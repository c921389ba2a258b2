import ReactiveState.Expr.Eval
import ReactiveState.Expr.Typing
import ReactiveState.Proofs.Typing.Accepts

/-!
# Typed arithmetic and comparison

`t.Delivers o` says that the result `o` of an operation is a value of the type or an error that no
type rules out.  Arithmetic on numbers delivers what its rule says.  A comparison does so as well,
except where two numbers are in no order (`Unordered`): this takes a NaN, and there it fails with an
invalid operand.

`arithmetic_operands` and `ordered_operands` say which values the rules let through.  The rules take
the unknown type for any other, so it has to be ruled out: for the result of arithmetic, and for the
operands of a comparison.
-/

namespace ReactiveState

/-- Whether the error is one that depends on more than the types of the operands. -/
def EvalError.isDynamic : EvalError → Bool
  | divisionByZero => true
  | overflow _ => true
  | indexOutOfRange _ _ => true
  | missingKey _ => true
  | invalidOperand _ _ => false
  | renderOnlyFunction _ => true
  | unknownField _ => false
  | negativeExponent _ => true
  | sizeLimit _ _ => true

/-- The result is a value of the type or an error that types do not rule out. -/
def ValueType.Delivers (t : ValueType) : Evaluated → Prop
  | .ok v => t.Accepts v
  | .error e => e.isDynamic = true

/-- Two numbers, one of them a float. -/
inductive Mixed : Value → Value → Prop where
  | floats (x y : Float) : Mixed (.float x) (.float y)
  | floatInt (x : Float) (n : Int64) : Mixed (.float x) (.int n)
  | intFloat (n : Int64) (y : Float) : Mixed (.int n) (.float y)

/-- The comparison of two numbers that are in no order, since one of them is a NaN. -/
structure Unordered (op : BinaryOp) (v w : Value) : Prop where
  isComparison : op ∈ [.lt, .le, .gt, .ge]
  mixed : Mixed v w
  nan : ∃ x y, v.number? = some x ∧ w.number? = some y ∧ (x.isNaN = true ∨ y.isNaN = true)

variable {a b t : ValueType} {v w : Value} {op : String}

open ValueType (Delivers)

/-- What delivers a type delivers it with null as well. -/
theorem ValueType.Delivers.orNull {o : Evaluated} (h : t.Delivers o) : t.orNull.Delivers o := by
  cases o with
  | ok v => exact accepts_orNull.2 (.inr h)
  | error e => exact h

/-! ### Arithmetic -/

namespace Arithmetic

/-- Exact operations deliver an integer or overflow. -/
theorem exact_delivers (op : String) (n : Int) : ValueType.int.Delivers (exact op n) := by
  unfold exact
  split
  · rfl
  · rfl

/-- A quotient of integers is an integer or an error that is listed. -/
theorem floorQuotient_delivers (m n : Int64) :
    ValueType.int.Delivers (floorQuotient op m n) := by
  unfold floorQuotient
  split
  · rfl
  · exact exact_delivers op _

/-- So is a remainder. -/
theorem remainder_delivers (m n : Int64) : ValueType.int.Delivers (remainder op m n) := by
  unfold remainder
  split
  · rfl
  · split
    · exact exact_delivers op _
    · rfl

/-- So is a power. -/
theorem power_delivers (m n : Int64) : ValueType.int.Delivers (power op m n) := by
  unfold power
  simp only
  split_ifs <;> first | rfl | exact exact_delivers op _

/-- A division of numbers delivers a float, or refuses to divide by zero. -/
theorem divided_delivers {f : Float → Float → Float} (hv : v.number?.isSome = true)
    (hw : w.number?.isSome = true) : ValueType.float.Delivers (divided op f v w) := by
  obtain ⟨x, hx⟩ := Option.isSome_iff_exists.1 hv
  obtain ⟨y, hy⟩ := Option.isSome_iff_exists.1 hw
  simp only [divided, floats, hx, hy]
  change ValueType.float.Delivers (if y == 0.0 then _ else _)
  split
  · rfl
  · rfl

/-- With a float among the operands the result is a float. -/
theorem numeric_mixed {f : Int → Int → Int} {g : Float → Float → Float} (h : Mixed v w) :
    ValueType.float.Delivers (numeric op f g v w) := by
  cases h <;> rfl

end Arithmetic

/-- Mixed operands are numbers. -/
theorem Mixed.isSome_number? (h : Mixed v w) :
    v.number?.isSome = true ∧ w.number?.isSome = true := by
  cases h <;> exact ⟨rfl, rfl⟩

/-- Two operands of numeric types are two integers or have a float among them. -/
theorem numeric_operands (ha : a.isNumeric = true) (hb : b.isNumeric = true) (hv : a.Accepts v)
    (hw : b.Accepts w) :
    (a = .int ∧ b = .int ∧ ∃ m n, v = .int m ∧ w = .int n) ∨
      (¬ (a = .int ∧ b = .int) ∧ Mixed v w) := by
  -- An operand of a numeric type is an integer or a float, as its type says
  have hcases : ∀ {t : ValueType} {v : Value}, t.isNumeric = true → t.Accepts v →
      (t = .int ∧ ∃ n, v = .int n) ∨ (t = .float ∧ ∃ x, v = .float x) := by
    intro t v ht hv
    cases t with
    | int => exact .inl ⟨rfl, ValueType.accepts_int.1 hv⟩
    | float => exact .inr ⟨rfl, ValueType.accepts_float.1 hv⟩
    | _ => cases ht
  rcases hcases ha hv with ⟨rfl, m, rfl⟩ | ⟨rfl, x, rfl⟩ <;>
    rcases hcases hb hw with ⟨rfl, n, rfl⟩ | ⟨rfl, y, rfl⟩
  · exact .inl ⟨rfl, rfl, m, n, rfl, rfl⟩
  · exact .inr ⟨nofun, .intFloat m y⟩
  · exact .inr ⟨nofun, .floatInt x n⟩
  · exact .inr ⟨nofun, .floats x y⟩

/-- A type without unknown parts is not the unknown one. -/
theorem ne_unknown (h : t.isConcrete = true) : t ≠ .unknown := by
  rintro rfl
  cases h

/-- What the rule of arithmetic lets through: two integers, or numbers of which one is a float. -/
theorem arithmetic_operands {op : BinaryOp} (h : ValueType.arithmetic op a b = .ok t)
    (ht : t ≠ .unknown) (hv : a.Accepts v) (hw : b.Accepts w) :
    ((∃ m n, v = .int m ∧ w = .int n) ∧ t = if op = .div then .float else .int) ∨
      (Mixed v w ∧ t = .float) := by
  unfold ValueType.arithmetic at h
  split at h
  · -- The rule gives the unknown type where an operand is unknown
    exact absurd (Except.ok.inj h).symm ht
  · exact absurd (Except.ok.inj h).symm ht
  · obtain ⟨m, rfl⟩ := ValueType.accepts_int.1 hv
    obtain ⟨n, rfl⟩ := ValueType.accepts_int.1 hw
    exact .inl ⟨⟨m, n, rfl, rfl⟩, (Except.ok.inj h).symm⟩
  · next hnot =>
    -- Not both are integers here, and the rule still asks for numbers
    split at h
    · next hnumeric =>
      rw [Bool.and_eq_true] at hnumeric
      rcases numeric_operands hnumeric.1 hnumeric.2 hv hw with ⟨ha, hb, _⟩ | ⟨_, hmixed⟩
      · exact absurd hb (hnot ha)
      · exact .inr ⟨hmixed, (Except.ok.inj h).symm⟩
    · cases h

/-! ### Order -/

section Floats

open Float.Model (UnpackedFloat)

/-- Comparing by exponent and then by mantissa, the other way round. -/
private theorem then_swap (e e' : Int) (m m' : Nat) :
    (compare e' e).then (compare m' m) = ((compare e e').then (compare m m')).swap := by
  rw [Ordering.swap_then, ← Std.OrientedOrd.eq_swap, ← Std.OrientedOrd.eq_swap]

/-- The order of two floats the other way round. -/
private theorem compare_swap (x y : UnpackedFloat) :
    y.compare x = (x.compare y).map Ordering.swap := by
  cases x with
  | finite s m e h =>
    cases y with
    | finite s' m' e' h' =>
      -- Signs decide unless they are the same; for two negative numbers the order of the sizes is
      -- turned round
      cases s <;> cases s'
      · exact congrArg (some ·.swap) (then_swap e e' m m')
      · rfl
      · rfl
      · exact congrArg some (then_swap e e' m m')
    | infinity s' => cases s <;> cases s' <;> rfl
    | zero s' => cases s <;> rfl
    | notANumber => cases s <;> rfl
  | infinity s =>
    cases y with
    | infinity s' => cases s <;> cases s' <;> rfl
    | finite s' => cases s <;> cases s' <;> rfl
    | _ => cases s <;> rfl
  | zero s =>
    cases y with
    | notANumber => rfl
    | zero s' => rfl
    | finite s' => cases s' <;> rfl
    | infinity s' => cases s' <;> rfl
  | notANumber => cases y <;> rfl

/-- Only a NaN has no order to some float. -/
private theorem isNaN_of_compare_eq_none {x y : UnpackedFloat} (h : x.compare y = none) :
    x.isNaN = true ∨ y.isNaN = true := by
  cases x with
  | notANumber => exact .inl rfl
  -- Numbers, infinities and zeros of either sign are all ordered
  | finite s =>
    cases y with
    | notANumber => exact .inr rfl
    | zero s' => cases s <;> cases h
    | _ s' => cases s <;> cases s' <;> cases h
  | infinity s =>
    cases y with
    | notANumber => exact .inr rfl
    | zero s' => cases s <;> cases h
    | _ s' => cases s <;> cases s' <;> cases h
  | zero s =>
    cases y with
    | notANumber => exact .inr rfl
    | _ s' => cases s' <;> cases h

/-- Two floats are in one of the three relations unless one of them is a NaN. -/
theorem isNaN_of_unordered {x y : Float} (hlt : ¬ x < y) (heq : ¬ (x == y) = true)
    (hgt : ¬ y < x) : x.isNaN = true ∨ y.isNaN = true := by
  have hlt' : ∀ {x y : Float}, x.toModel.unpack.compare y.toModel.unpack = some .lt → x < y := by
    intro x y h
    change decide (x.toModel < y.toModel) = true
    rw [decide_eq_true_eq]
    change (_ == some Ordering.lt) = true
    rw [h]
    rfl
  -- Otherwise the comparison of the models gives one of the three
  apply isNaN_of_compare_eq_none
  cases h : x.toModel.unpack.compare y.toModel.unpack with
  | none => rfl
  | some o =>
    cases o with
    | lt => exact absurd (hlt' h) hlt
    | eq => exact absurd (by change (_ == some Ordering.eq) = true; rw [h]; rfl) heq
    | gt => exact absurd (hlt' (by rw [compare_swap, h]; rfl)) hgt

end Floats

/-- A type without unknown parts is not asked about again. -/
theorem not_isUnknown (h : t.isConcrete = true) : ¬ t.isUnknown = true := by
  cases t <;> simp_all [ValueType.isConcrete, ValueType.isUnknown]

/-- What may be put in order: two integers, two strings, or numbers of which one is a float. -/
theorem ordered_operands (h : a.ordered b = true) (ha : a.isConcrete = true)
    (hb : b.isConcrete = true) (hv : a.Accepts v) (hw : b.Accepts w) :
    (∃ m n, v = .int m ∧ w = .int n) ∨ (∃ s s', v = .str s ∧ w = .str s') ∨ Mixed v w := by
  simp only [ValueType.ordered, Bool.or_eq_true, Bool.and_eq_true, beq_iff_eq] at h
  -- The last two cases are those of an unknown operand
  rcases h with ((⟨ha', hb'⟩ | ⟨rfl, rfl⟩) | ha') | hb'
  · rcases numeric_operands ha' hb' hv hw with ⟨-, -, hints⟩ | ⟨-, hmixed⟩
    · exact .inl hints
    · exact .inr (.inr hmixed)
  · obtain ⟨s, rfl⟩ := ValueType.accepts_str.1 hv
    obtain ⟨s', rfl⟩ := ValueType.accepts_str.1 hw
    exact .inr (.inl ⟨s, s', rfl, rfl⟩)
  · exact absurd ha' (not_isUnknown ha)
  · exact absurd hb' (not_isUnknown hb)

/-- Values that may be put in order are, but for a NaN. -/
theorem order_cases (h : a.ordered b = true) (ha : a.isConcrete = true) (hb : b.isConcrete = true)
    (hv : a.Accepts v) (hw : b.Accepts w) :
    (∃ o, Arithmetic.order op v w = .ok o) ∨
      (Arithmetic.order op v w = .error (.invalidOperand op v.kind) ∧ Mixed v w ∧
        ∃ x y, v.number? = some x ∧ w.number? = some y ∧ (x.isNaN = true ∨ y.isNaN = true)) := by
  rcases ordered_operands h ha hb hv hw with ⟨m, n, rfl, rfl⟩ | ⟨s, s', rfl, rfl⟩ | hmixed
  · exact .inl ⟨_, rfl⟩
  · exact .inl ⟨_, rfl⟩
  · obtain ⟨x, hx⟩ := Option.isSome_iff_exists.1 hmixed.isSome_number?.1
    obtain ⟨y, hy⟩ := Option.isSome_iff_exists.1 hmixed.isSome_number?.2
    -- The order of mixed numbers is that of their floats
    have horder : Arithmetic.order op v w =
        if x < y then .ok .lt else if x == y then .ok .eq else if x > y then .ok .gt
        else .error (.invalidOperand op v.kind) := by
      cases hmixed <;> simp only [Value.number?, Option.some.injEq] at hx hy <;> subst hx hy <;> rfl
    rw [horder]
    split_ifs with hlt heq hgt
    · exact .inl ⟨_, rfl⟩
    · exact .inl ⟨_, rfl⟩
    · exact .inl ⟨_, rfl⟩
    · exact .inr ⟨rfl, hmixed, x, y, hx, hy, isNaN_of_unordered hlt heq hgt⟩

/-- A comparison gives a boolean, or fails at a NaN. -/
theorem comparison_delivers {op : BinaryOp} {f : Ordering → Bool}
    (hop : op ∈ [.lt, .le, .gt, .ge]) (h : a.ordered b = true) (ha : a.isConcrete = true)
    (hb : b.isConcrete = true) (hv : a.Accepts v) (hw : b.Accepts w) {o : Evaluated}
    (ho : o = (Arithmetic.order op.symbol v w).map fun order => Value.bool (f order)) :
    ValueType.bool.Delivers o ∨
      (Unordered op v w ∧ o = .error (.invalidOperand op.symbol v.kind)) := by
  -- The operands have an order, or one of them is a NaN
  rcases order_cases h ha hb hv hw with ⟨order, horder⟩ | ⟨herror, hmixed, hnan⟩
  · rw [ho, horder]
    exact .inl rfl
  · rw [ho, herror]
    exact .inr ⟨⟨hop, hmixed, hnan⟩, rfl⟩

end ReactiveState
