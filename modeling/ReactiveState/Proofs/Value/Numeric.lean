import ReactiveState.Expr.Arithmetic
import ReactiveState.Proofs.Number.Exact

/-!
# Equality of numbers of two kinds

Values agree (`Value.Agrees`) if they are the same when numbers are compared by value, at every
depth; so numbers can be replaced by those of the other kind with the same value
(`Renumbered.agrees_congr`).  The equality of values is agreement where integers meet integers and
floats meet floats (`beq_iff_agrees`), and that of expressions differs from agreement in two places
(`looselyEqual_iff`): an integer that meets a float inside of lists or dicts differs from it, and an
integer outside of them equals the float that it is rounded to.
-/

namespace ReactiveState

/-- A float that holds an integer holds no other one. -/
theorem Holds.int_iff {x : Float} {n : Int64} (h : Holds x n.toInt) (m : Int64) :
    n = m ↔ Holds x m.toInt :=
  ⟨fun heq => heq ▸ h, fun h' => Int64.toInt_inj.1 (h.eq h')⟩

namespace Value

mutual

/-- The values are the same if numbers are compared by their value, at every depth and whatever
their kind. -/
def Agrees : Value → Value → Prop
  | null, null => True
  | bool a, bool b => a = b
  | int m, int n => m = n
  | int n, float x => Holds x n.toInt
  | float x, int n => Holds x n.toInt
  | float x, float y => (x == y) = true
  | str a, str b => a = b
  | list as, list bs => AgreesItems as bs
  | dict as, dict bs => AgreesEntries as bs
  | _, _ => False

/-- The items agree one by one. -/
def AgreesItems : List Value → List Value → Prop
  | [], [] => True
  | a :: as, b :: bs => Agrees a b ∧ AgreesItems as bs
  | _, _ => False

/-- The keys are the same and the values agree. -/
def AgreesEntries : List (String × Value) → List (String × Value) → Prop
  | [], [] => True
  | (k, a) :: as, (k', b) :: bs => k = k' ∧ Agrees a b ∧ AgreesEntries as bs
  | _, _ => False

end

mutual

/-- Integers in the value are replaced by floats that hold them, or the other way round, at any
depth and any number of them. -/
inductive Renumbered : Value → Value → Prop where
  | refl (v : Value) : Renumbered v v
  | toFloat {n : Int64} {x : Float} (h : Holds x n.toInt) : Renumbered (int n) (float x)
  | toInt {n : Int64} {x : Float} (h : Holds x n.toInt) : Renumbered (float x) (int n)
  | list {as bs : List Value} (h : RenumberedItems as bs) : Renumbered (list as) (list bs)
  | dict {as bs : List (String × Value)} (h : RenumberedEntries as bs) :
    Renumbered (dict as) (dict bs)

/-- Numbers are replaced in the items. -/
inductive RenumberedItems : List Value → List Value → Prop where
  | nil : RenumberedItems [] []
  | cons {a b : Value} {as bs : List Value} (h : Renumbered a b) (hs : RenumberedItems as bs) :
    RenumberedItems (a :: as) (b :: bs)

/-- Numbers are replaced in the values of the entries. -/
inductive RenumberedEntries : List (String × Value) → List (String × Value) → Prop where
  | nil : RenumberedEntries [] []
  | cons {k : String} {a b : Value} {as bs : List (String × Value)} (h : Renumbered a b)
    (hs : RenumberedEntries as bs) : RenumberedEntries ((k, a) :: as) ((k, b) :: bs)

end

mutual

/-- An integer and a float stand at the same place of the two values. -/
def Mixes : Value → Value → Prop
  | int _, float _ => True
  | float _, int _ => True
  | list as, list bs => MixesItems as bs
  | dict as, dict bs => MixesEntries as bs
  | _, _ => False

/-- An integer and a float stand at the same place of two items. -/
def MixesItems : List Value → List Value → Prop
  | a :: as, b :: bs => Mixes a b ∨ MixesItems as bs
  | _, _ => False

/-- An integer and a float stand at the same place of two entries. -/
def MixesEntries : List (String × Value) → List (String × Value) → Prop
  | (_, a) :: as, (_, b) :: bs => Mixes a b ∨ MixesEntries as bs
  | _, _ => False

end

/-- An integer and a float stand at the same place inside of two lists or two dicts. -/
def MixesInside : Value → Value → Prop
  | list as, list bs => MixesItems as bs
  | dict as, dict bs => MixesEntries as bs
  | _, _ => False

/-- One of the values is an integer, and the other one is the float that it is rounded to, whose
value is another one. -/
def RoundsTo : Value → Value → Prop
  | int n, float x => (Float.ofInt n.toInt == x) = true ∧ ¬ Holds x n.toInt
  | float x, int n => (Float.ofInt n.toInt == x) = true ∧ ¬ Holds x n.toInt
  | _, _ => False

/-- What the equality of expressions decides. -/
def Equals (v w : Value) : Prop := (Agrees v w ∧ ¬ MixesInside v w) ∨ RoundsTo v w

/-- No integer meets a float inside of lists or dicts or is rounded to it. -/
def Straight (v w : Value) : Prop := ¬ MixesInside v w ∧ ¬ RoundsTo v w

/-- Where no integer meets a float inside, values are equal exactly if they agree. -/
theorem Straight.equals_iff {v w : Value} (h : Straight v w) : Equals v w ↔ Agrees v w :=
  (or_iff_left h.2).trans (and_iff_left h.1)

/-! ### Agreement -/

mutual

/-- Agreement does not depend on the order. -/
theorem Agrees.symm : ∀ {v w : Value}, Agrees v w → Agrees w v
  | .null, w, h | .bool _, w, h | .int _, w, h | .float _, w, h | .str _, w, h => by
    -- A number agrees with numbers only, and each of the comparisons is symmetric
    cases w <;> first | exact h | exact Eq.symm h | exact float_beq_symm h
  | .list as, w, h => by
    cases w with
    | list bs => exact AgreesItems.symm h
    | _ => cases h
  | .dict as, w, h => by
    cases w with
    | dict bs => exact AgreesEntries.symm h
    | _ => cases h

/-- Nor does agreement item by item. -/
theorem AgreesItems.symm : ∀ {as bs : List Value}, AgreesItems as bs → AgreesItems bs as
  | [], [], _ => trivial
  | [], _ :: _, h => nomatch h
  | _ :: _, [], h => nomatch h
  | _ :: _, _ :: _, h => ⟨h.1.symm, AgreesItems.symm h.2⟩

/-- Nor does agreement entry by entry. -/
theorem AgreesEntries.symm : ∀ {as bs : List (String × Value)},
    AgreesEntries as bs → AgreesEntries bs as
  | [], [], _ => trivial
  | [], _ :: _, h => nomatch h
  | _ :: _, [], h => nomatch h
  | _ :: _, _ :: _, h => ⟨h.1.symm, h.2.1.symm, AgreesEntries.symm h.2.2⟩

end

/-- Agreement in either order is the same. -/
theorem agrees_comm {v w : Value} : Agrees v w ↔ Agrees w v := ⟨Agrees.symm, Agrees.symm⟩

mutual

/-- Whether values agree does not depend on the kinds of the numbers inside them. -/
theorem Renumbered.agrees_iff : ∀ {v v' : Value}, Renumbered v v' →
    ∀ w, Agrees v w ↔ Agrees v' w
  | _, _, .refl _, _ => Iff.rfl
  | _, _, .toFloat h, w => by
    cases w with
    -- The float holds the integer, so both compare alike with every number
    | int m => exact h.int_iff m
    | float y => exact h.beq_iff.symm
    | _ => exact Iff.rfl
  | _, _, .toInt h, w => by
    cases w with
    | int m => exact (h.int_iff m).symm
    | float y => exact h.beq_iff
    | _ => exact Iff.rfl
  | _, _, .list h, w => by
    cases w with
    | list bs => exact h.agrees_iff bs
    | _ => exact Iff.rfl
  | _, _, .dict h, w => by
    cases w with
    | dict bs => exact h.agrees_iff bs
    | _ => exact Iff.rfl

/-- The same of lists, item by item. -/
theorem RenumberedItems.agrees_iff : ∀ {as as' : List Value}, RenumberedItems as as' →
    ∀ bs, AgreesItems as bs ↔ AgreesItems as' bs
  | _, _, .nil, _ => Iff.rfl
  | _, _, .cons _ _, [] => Iff.rfl
  | _, _, .cons h hs, b :: bs => and_congr (h.agrees_iff b) (hs.agrees_iff bs)

/-- The same of dicts, entry by entry. -/
theorem RenumberedEntries.agrees_iff : ∀ {as as' : List (String × Value)},
    RenumberedEntries as as' → ∀ bs, AgreesEntries as bs ↔ AgreesEntries as' bs
  | _, _, .nil, _ => Iff.rfl
  | _, _, .cons _ _, [] => Iff.rfl
  | _, _, .cons h hs, (_, b) :: bs =>
    and_congr_right' (and_congr (h.agrees_iff b) (hs.agrees_iff bs))

end

/-- Both sides may be renumbered. -/
theorem Renumbered.agrees_congr {v v' w w' : Value} (hv : Renumbered v v') (hw : Renumbered w w') :
    Agrees v w ↔ Agrees v' w' := by
  rw [hv.agrees_iff w, agrees_comm, hw.agrees_iff v', agrees_comm]

/-- Items are renumbered to themselves. -/
theorem RenumberedItems.refl (as : List Value) : RenumberedItems as as := by
  induction as with
  | nil => exact .nil
  | cons a as ih => exact .cons (.refl a) ih

/-- Lists are renumbered item by item. -/
theorem Renumbered.items {as bs : List Value} (h : Renumbered (.list as) (.list bs)) :
    RenumberedItems as bs := by
  cases h with
  | refl => exact RenumberedItems.refl as
  | list h => exact h

/-- Whether one of the items agrees with a value does not depend on the kinds of numbers either. -/
theorem RenumberedItems.exists_agrees_iff {as bs : List Value} {w w' : Value}
    (h : RenumberedItems as bs) (hw : Renumbered w w') :
    (∃ a ∈ as, Agrees a w) ↔ ∃ b ∈ bs, Agrees b w' := by
  induction as generalizing bs with
  | nil =>
    cases h
    simp
  | cons a as ih =>
    cases h with
    | cons h hs =>
      rw [List.exists_mem_cons_iff, List.exists_mem_cons_iff, h.agrees_congr hw, ih hs]

mutual

/-- Equality is agreement where no integer meets a float. -/
theorem beq_iff_agrees : ∀ v w : Value, beq v w = true ↔ Agrees v w ∧ ¬ Mixes v w
  | .null, w | .bool _, w | .int _, w | .float _, w | .str _, w => by
    cases w <;> simp [beq, Agrees, Mixes]
  | .list as, w => by
    cases w with
    | list bs => exact beqList_iff_agrees as bs
    | _ => simp [beq, Agrees]
  | .dict as, w => by
    cases w with
    | dict bs => exact beqEntries_iff_agrees as bs
    | _ => simp [beq, Agrees]

/-- Lists are equal if the items agree and no integer meets a float. -/
theorem beqList_iff_agrees : ∀ as bs : List Value,
    beqList as bs = true ↔ AgreesItems as bs ∧ ¬ MixesItems as bs
  | [], [] => by simp [beqList, AgreesItems, MixesItems]
  | [], _ :: _ => by simp [beqList, AgreesItems]
  | _ :: _, [] => by simp [beqList, AgreesItems]
  | a :: as, b :: bs => by
    rw [beqList, Bool.and_eq_true, beq_iff_agrees a b, beqList_iff_agrees as bs, AgreesItems,
      MixesItems, not_or]
    exact and_and_and_comm

/-- Dicts are equal under the same conditions. -/
theorem beqEntries_iff_agrees : ∀ as bs : List (String × Value),
    beqEntries as bs = true ↔ AgreesEntries as bs ∧ ¬ MixesEntries as bs
  | [], [] => by simp [beqEntries, AgreesEntries, MixesEntries]
  | [], _ :: _ => by simp [beqEntries, AgreesEntries]
  | _ :: _, [] => by simp [beqEntries, AgreesEntries]
  | (k, a) :: as, (k', b) :: bs => by
    rw [beqEntries, Bool.and_eq_true, Bool.and_eq_true, beq_iff_eq, beq_iff_agrees a b,
      beqEntries_iff_agrees as bs, AgreesEntries, MixesEntries, not_or]
    tauto

end

end Value

open Value

/-- The equality of expressions is agreement, but for integers that meet floats inside of lists or
dicts, and for integers that are rounded. -/
theorem looselyEqual_iff (v w : Value) : Arithmetic.looselyEqual v w = true ↔ Equals v w := by
  -- But for an integer beside a float, the derived equality decides
  have hkinds : Arithmetic.looselyEqual v w = beq v w → (Mixes v w ↔ MixesInside v w) →
      ¬ RoundsTo v w → (Arithmetic.looselyEqual v w = true ↔ Equals v w) := fun heq hmixes hno => by
    rw [heq, beq_iff_agrees, hmixes, Equals, or_iff_left hno]
  -- An integer beside a float is compared as a float, which may have rounded it
  have hmixed : ∀ (n : Int) (x : Float), (Float.ofInt n == x) = true ↔
      (Holds x n ∧ ¬ False) ∨ ((Float.ofInt n == x) = true ∧ ¬ Holds x n) := fun n x => by
    have hholds := @Holds.ofInt_beq x n
    tauto
  cases v with
  | int n =>
    cases w with
    | float x => exact hmixed n.toInt x
    | _ => exact hkinds rfl Iff.rfl id
  | float x =>
    cases w with
    | int n => exact hmixed n.toInt x
    | _ => exact hkinds rfl Iff.rfl id
  | _ => cases w <;> exact hkinds rfl Iff.rfl id

end ReactiveState
