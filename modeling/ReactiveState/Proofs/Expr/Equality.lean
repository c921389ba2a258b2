import ReactiveState.Proofs.Expr.Integers
import ReactiveState.Proofs.Value.Numeric

/-!
# Equality of numbers of two kinds, evaluated

`==`, `!=` and `contains` answer by `Value.Equals` (`answers_eq`, `answers_ne`, `answers_contains`),
which is agreement by value but for integers that meet floats inside of lists or dicts, and for
integers that are rounded.  So where neither happens, the answers do not depend on which of the
numbers are integers and which are floats (`equality_renumbered`); where it does they may
(`nested_numbers_by_kind`).
-/

namespace ReactiveState

namespace Expr

open Value (Agrees Renumbered RenumberedItems Equals Straight)

/-- The outcome is a boolean, which is true exactly if `p` holds. -/
def Answers (o : Evaluated) (p : Prop) : Prop := ∃ b : Bool, o = .ok (.bool b) ∧ (b = true ↔ p)

theorem Answers.congr {o : Evaluated} {p q : Prop} (h : Answers o p) (hpq : p ↔ q) :
    Answers o q := by
  obtain ⟨b, ho, hb⟩ := h
  exact ⟨b, ho, hb.trans hpq⟩

/-- Two answers to the same question are the same. -/
theorem Answers.eq {o o' : Evaluated} {p : Prop} (h : Answers o p) (h' : Answers o' p) :
    o = o' := by
  obtain ⟨b, rfl, hb⟩ := h
  obtain ⟨b', rfl, hb'⟩ := h'
  rw [Bool.eq_iff_iff.2 (hb.trans hb'.symm)]

section Evaluated

variable {source source' : FieldKey → Evaluated} {l r l' r' : Expr} {v w v' w' : Value}
  {items items' : List Value}

/-- An equation is answered by the equality of its operands. -/
theorem answers_eq (hl : l.evalWith source = .ok v) (hr : r.evalWith source = .ok w)
    (t : ValueType) : Answers ((binary .eq l r t).evalWith source) (Equals v w) :=
  ⟨Arithmetic.looselyEqual v w, evalWith_binary_of_ok hl hr .eq t, looselyEqual_iff v w⟩

/-- The negation of an equation is answered the other way round. -/
theorem answers_ne (hl : l.evalWith source = .ok v) (hr : r.evalWith source = .ok w)
    (t : ValueType) : Answers ((binary .ne l r t).evalWith source) (¬ Equals v w) := by
  refine ⟨!Arithmetic.looselyEqual v w, evalWith_binary_of_ok hl hr .ne t, ?_⟩
  rw [Bool.not_eq_true', ← Bool.not_eq_true, looselyEqual_iff]

/-- A search in a list is answered by comparing its items one by one. -/
theorem answers_contains (hl : l.evalWith source = .ok (.list items))
    (hr : r.evalWith source = .ok w) (t : ValueType) :
    Answers ((binary .contains l r t).evalWith source) (∃ item ∈ items, Equals item w) := by
  refine ⟨items.any fun v => Arithmetic.looselyEqual v w,
    evalWith_binary_of_ok hl hr .contains t, ?_⟩
  simp only [List.any_eq_true, looselyEqual_iff]

/-- Whether values agree does not depend on the kinds of their numbers, and neither do the answers
of `==`, `!=` and `contains` while no integer meets a float inside of lists or dicts and none is
rounded. -/
theorem equality_renumbered (hl : l.evalWith source = .ok v) (hr : r.evalWith source = .ok w)
    (hl' : l'.evalWith source' = .ok v') (hr' : r'.evalWith source' = .ok w')
    (hv : Renumbered v v') (hw : Renumbered w w') (t : ValueType) :
    (Agrees v w ↔ Agrees v' w') ∧
      Answers ((binary .eq l r t).evalWith source) (Equals v w) ∧
      Answers ((binary .ne l r t).evalWith source) (¬ Equals v w) ∧
      (∀ items, v = .list items →
        Answers ((binary .contains l r t).evalWith source) (∃ item ∈ items, Equals item w)) ∧
      (Straight v w → Straight v' w' →
        (binary .eq l r t).evalWith source = (binary .eq l' r' t).evalWith source' ∧
        (binary .ne l r t).evalWith source = (binary .ne l' r' t).evalWith source') ∧
      ∀ items items', v = .list items → v' = .list items' →
        (∀ item ∈ items, Straight item w) → (∀ item ∈ items', Straight item w') →
        (binary .contains l r t).evalWith source = (binary .contains l' r' t).evalWith source' := by
  -- Agreement looks at the numbers and not at their kinds
  have hagrees := hv.agrees_congr hw
  refine ⟨hagrees, answers_eq hl hr t, answers_ne hl hr t, ?_, fun hs hs' => ?_, ?_⟩
  · rintro items rfl
    exact answers_contains hl hr t
  · -- On both sides the answer is whether the values agree
    have hequals : Equals v w ↔ Equals v' w' :=
      hs.equals_iff.trans (hagrees.trans hs'.equals_iff.symm)
    exact ⟨((answers_eq hl hr t).congr hequals).eq (answers_eq hl' hr' t),
      ((answers_ne hl hr t).congr (not_congr hequals)).eq (answers_ne hl' hr' t)⟩
  · -- Item by item, as `contains` compares every item with the value
    rintro items items' rfl rfl hs hs'
    have hcontains : (∃ item ∈ items, Equals item w) ↔ ∃ item ∈ items', Equals item w' := calc
      _ ↔ ∃ item ∈ items, Agrees item w :=
        exists_congr fun item => and_congr_right fun h => (hs item h).equals_iff
      _ ↔ ∃ item ∈ items', Agrees item w' := hv.items.exists_agrees_iff hw
      _ ↔ _ := exists_congr fun item => and_congr_right fun h => (hs' item h).equals_iff.symm
    exact ((answers_contains hl hr t).congr hcontains).eq (answers_contains hl' hr' t)

end Evaluated

/-- A list is found among others, also when the number inside of both is written as a float. -/
theorem equality_renumbered_found :
    let rows : Expr := .literal (.list [.list [.int 1], .int 2])
    let row : Expr := .literal (.list [.int 1])
    let rows' : Expr := .literal (.list [.list [.float 1.0], .int 2])
    let row' : Expr := .literal (.list [.float 1.0])
    (binary .contains rows row .bool).evalConstant = .ok (.bool true) ∧
      (binary .contains rows' row' .bool).evalConstant = .ok (.bool true) := by
  intro rows row rows' row'
  let noFields : FieldKey → Evaluated := fun k => throw (.unknownField k)
  have hrow : Renumbered (.list [.int 1]) (.list [.float 1.0]) :=
    .list (.cons (.toFloat holds_one) .nil)
  have hrows : Renumbered (.list [.list [.int 1], .int 2]) (.list [.list [.float 1.0], .int 2]) :=
    .list (.cons hrow (.cons (.refl _) .nil))
  obtain ⟨-, -, -, -, -, hcontains⟩ :=
    @equality_renumbered noFields noFields rows row rows' row' _ _ _ _ rfl rfl rfl rfl hrows hrow
      .bool
  have hfound : (binary .contains rows row .bool).evalWith noFields = .ok (.bool true) := rfl
  refine ⟨hfound, (hcontains _ _ rfl rfl ?_ ?_).symm.trans hfound⟩
  -- What is compared are two integers or two floats, or a list and a number
  · simp [Straight, Value.MixesInside, Value.MixesItems, Value.Mixes, Value.RoundsTo]
  · simp [Straight, Value.MixesInside, Value.MixesItems, Value.Mixes, Value.RoundsTo]

/-- Inside of lists an integer and the float with its value differ, though the rules let them be
compared. -/
theorem nested_numbers_by_kind :
    let ones : Expr := .literal (.list [.int 1])
    let floats : Expr := .literal (.list [.float 1.0])
    let odd : Expr := .literal (.int 9007199254740993)
    let even : Expr := .literal (.int 9007199254740992)
    let rounded : Expr := .literal (.float 9007199254740992.0)
    Renumbered (.list [.int 1]) (.list [.float 1.0]) ∧
      BinaryOp.eq.resultType ones.type floats.type none = .ok .bool ∧
      (binary .eq ones ones .bool).evalConstant = .ok (.bool true) ∧
      (binary .eq ones floats .bool).evalConstant = .ok (.bool false) ∧
      Renumbered (.int 9007199254740992) (.float 9007199254740992.0) ∧
      (binary .eq odd even .bool).evalConstant = .ok (.bool false) ∧
      (binary .eq odd rounded .bool).evalConstant = .ok (.bool true) := by
  -- The float is 2 ^ 53, which the odd integer above it is rounded to
  have hparts : FloatParts.ofFloat 9007199254740992.0 = ⟨false, 2 ^ 52, 1⟩ := rfl
  have hlarge : Holds 9007199254740992.0 9007199254740992 :=
    ⟨rfl, by rw [hparts]; norm_num [FloatParts.value]⟩
  exact ⟨.list (.cons (.toFloat holds_one) .nil), rfl, rfl, rfl, .toFloat hlarge, rfl, rfl⟩

end Expr

end ReactiveState
