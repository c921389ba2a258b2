import Mathlib.Data.Rat.Floor
import ReactiveState.Proofs.Expr.Checked
import ReactiveState.Proofs.Expr.Evaluation

/-!
# Integer arithmetic

`Arithmetic.Exact op n o` says that an outcome `o` is the number `n` if it fits in 64 bits, and an
overflow of `op` if it does not.  Sums, differences, products, negation and the absolute value are
exact, and so is the floor of a quotient by anything but zero (`Expr.arithmetic_exact`).  On the way
to it nothing overflows, although it is made from a truncated quotient.

Remainders and powers are exact too, but for two kinds of operands whose result would fit
(`Expr.remainder_power_exact`): the least integer has no remainder by `-1`, and none of the bases
`-1`, `0` and `1` has a power whose exponent takes more than 32 bits.
-/

namespace ReactiveState

/-- Whether a number is one of those of 64 bits. -/
def FitsInt64 (n : Int) : Prop :=
  -2 ^ 63 ≤ n ∧ n < 2 ^ 63

instance (n : Int) : Decidable (FitsInt64 n) := inferInstanceAs (Decidable (_ ∧ _))

/-- What is held in 64 bits fits into them. -/
theorem fitsInt64_toInt (k : Int64) : FitsInt64 k.toInt :=
  Checked.toInt_bounds k

/-- A number that fits is given as it is. -/
theorem int64?_of_fits {n : Int} (h : FitsInt64 n) : ∃ k : Int64, int64? n = some k ∧ k.toInt = n :=
  Checked.exists_int64? h.1 h.2

/-- Nothing is given exactly for numbers that do not fit. -/
theorem int64?_eq_none_iff {n : Int} : int64? n = none ↔ ¬ FitsInt64 n := by
  constructor
  · intro h hfits
    obtain ⟨k, hk, -⟩ := int64?_of_fits hfits
    rw [h] at hk
    cases hk
  · intro h
    cases hk : int64? n with
    | none => rfl
    | some k => exact absurd (int64?_eq_some_iff.1 hk ▸ fitsInt64_toInt k) h

namespace Arithmetic

/-- The outcome is the number, or an overflow of the operation if the number does not fit in 64
bits. -/
structure Exact (op : String) (n : Int) (o : Evaluated) : Prop where
  ok_iff : ∀ v, o = .ok v ↔ ∃ k : Int64, k.toInt = n ∧ v = .int k
  error_iff : ∀ e, o = .error e ↔ ¬ FitsInt64 n ∧ e = .overflow op

variable {op : String} {a b k : Int64} {n : Int} {o : Evaluated}

/-- An operation whose result fits and is given is exact. -/
theorem Exact.of_fits (hk : k.toInt = n) : Exact op n (.ok (.int k)) where
  ok_iff v := by
    constructor
    · rintro ⟨⟩
      exact ⟨k, hk, rfl⟩
    · rintro ⟨j, hj, rfl⟩
      rw [Int64.toInt_inj.1 (hj.trans hk.symm)]
  error_iff e := ⟨nofun, fun h => absurd (hk ▸ fitsInt64_toInt k) h.1⟩

/-- So is one that overflows because its result does not fit. -/
theorem Exact.of_not_fits (hn : ¬ FitsInt64 n) : Exact op n (.error (.overflow op)) where
  ok_iff v := ⟨nofun, fun ⟨k, hk, _⟩ => absurd (hk ▸ fitsInt64_toInt k) hn⟩
  error_iff e := by
    constructor
    · rintro ⟨⟩
      exact ⟨hn, rfl⟩
    · rintro ⟨-, rfl⟩
      rfl

/-- Operations that work out the whole number and then check its range are exact. -/
theorem exact_isExact (op : String) (n : Int) : Exact op n (exact op n) := by
  unfold exact
  cases hk : int64? n with
  | none => exact .of_not_fits (int64?_eq_none_iff.1 hk)
  | some k => exact .of_fits (int64?_eq_some_iff.1 hk)

/-! ### Quotients -/

/-- Integer division by a positive number rounds the quotient down. -/
private theorem fdiv_eq_floor_of_pos (m : Int) {n : Int} (hn : 0 < n) :
    m.fdiv n = ⌊(m / n : ℚ)⌋ := by
  rw [Int.floor_div_cast_of_nonneg hn.le, Int.floor_intCast, Int.fdiv_eq_ediv_of_nonneg m hn.le]

/-- Integer division that rounds down gives the floor of the rational quotient. -/
theorem fdiv_eq_floor (m : Int) {n : Int} (hn : n ≠ 0) : m.fdiv n = ⌊(m / n : ℚ)⌋ := by
  rcases hn.lt_or_gt with hneg | hpos
  · -- Both signs turned round make the same quotient
    have hflipped := fdiv_eq_floor_of_pos (-m) (neg_pos.2 hneg)
    rwa [Int.neg_fdiv_neg, Int.cast_neg, Int.cast_neg, neg_div_neg_eq] at hflipped
  · exact fdiv_eq_floor_of_pos m hpos

/-- Only one quotient does not fit. -/
theorem not_fitsInt64_tdiv_iff (hb : b ≠ 0) :
    ¬ FitsInt64 (a.toInt.tdiv b.toInt) ↔ a = Int64.minValue ∧ b = -1 := by
  constructor
  · intro h
    unfold FitsInt64 at h
    -- The dividend fits, which bounds the size of the quotient
    obtain ⟨hlow, hhigh⟩ := fitsInt64_toInt a
    have hsize := Checked.natAbs_tdiv_add a.toInt (Checked.toInt_ne_zero hb)
    have hdivision := Int.mul_tdiv_add_tmod a.toInt b.toInt
    -- The quotient is no larger than the dividend, so it is `2 ^ 63` and nothing remains
    have hquotient : a.toInt.tdiv b.toInt = 2 ^ 63 := by omega
    have ha : a.toInt = -2 ^ 63 := by omega
    rw [hquotient] at hdivision
    have hb : b.toInt = -1 := by omega
    exact ⟨Int64.toInt_inj.1 ha, Int64.toInt_inj.1 hb⟩
  · rintro ⟨rfl, rfl⟩ h
    exact absurd h.2 (by decide)

/-- The floor fits whenever the quotient does: it is below it only where that is not whole. -/
theorem fitsInt64_fdiv_iff (hb : b ≠ 0) :
    FitsInt64 (a.toInt.fdiv b.toInt) ↔ FitsInt64 (a.toInt.tdiv b.toInt) := by
  rw [Checked.fdiv_eq _ (Checked.toInt_ne_zero hb)]
  split
  · next hadjust =>
    -- Something remains, so the quotient is smaller in size than the dividend and one less still
    -- fits
    have hsize := Checked.natAbs_tdiv_add a.toInt (Checked.toInt_ne_zero hb)
    obtain ⟨hlow, hhigh⟩ := fitsInt64_toInt a
    unfold FitsInt64
    omega
  · rfl

/-- The outcome is the floor of the quotient; there is none by zero, and the one of the least
integer by `-1` does not fit. -/
structure Floors (op : String) (a b : Int64) (o : Evaluated) : Prop where
  byZero : o = .error .divisionByZero ↔ b = 0
  overflow : o = .error (.overflow op) ↔ a = Int64.minValue ∧ b = -1
  floor : b ≠ 0 → Exact op ⌊(a.toInt / b.toInt : ℚ)⌋ o

/-- The quotient of two integers is rounded down, with an error for division by zero and for the one
quotient that does not fit. -/
theorem floorQuotient_floors (op : String) (a b : Int64) :
    Floors op a b (floorQuotient op a b) := by
  unfold floorQuotient
  -- Division by zero is told apart first, as the only case without a quotient
  by_cases hb : b = 0
  · rw [if_pos hb]
    exact ⟨⟨fun _ => hb, fun _ => rfl⟩, ⟨nofun, fun h => absurd (h.2.symm.trans hb) (by decide)⟩,
      fun h => absurd hb h⟩
  · have hexact := exact_isExact op (a.toInt.fdiv b.toInt)
    rw [if_neg hb]
    refine ⟨?_, ?_, fun _ => fdiv_eq_floor _ (Checked.toInt_ne_zero hb) ▸ hexact⟩
    · rw [hexact.error_iff]
      exact ⟨(nomatch ·.2), (absurd · hb)⟩
    · -- Rounded down or truncated, it is the same quotient that does not fit
      rw [hexact.error_iff, fitsInt64_fdiv_iff hb, not_fitsInt64_tdiv_iff hb]
      exact and_iff_left rfl

/-- The truncated quotient, less one where it is not whole and the signs differ. -/
def lowered (a b : Int) : Int :=
  if a.tmod b ≠ 0 ∧ ¬ (a < 0 ↔ b < 0) then a.tdiv b - 1 else a.tdiv b

/-- The quotient as the source works it out: truncated, and less one where a remainder has the other
sign. -/
theorem floorQuotient_lowered (op : String) (hb : b ≠ 0) :
    Exact op (lowered a.toInt b.toInt) (floorQuotient op a b) := by
  have hlowered : lowered a.toInt b.toInt = a.toInt.fdiv b.toInt := by
    rw [Checked.fdiv_eq _ (Checked.toInt_ne_zero hb)]
    simp only [lowered, ne_eq, decide_eq_decide]
  rw [floorQuotient, if_neg hb, hlowered]
  exact exact_isExact op _

/-! ### Remainders -/

/-- The remainder of the least integer by `-1` is refused, though it is zero. -/
theorem remainder_eq_overflow (op : String) :
    remainder op Int64.minValue (-1) = .error (.overflow op) := rfl

/-- Every other remainder by a number other than zero is exact, and has the sign of the dividend. -/
theorem remainder_isExact (op : String) (hb : b ≠ 0) (h : ¬ (a = Int64.minValue ∧ b = -1)) :
    Exact op (a.toInt.tmod b.toInt) (remainder op a b) := by
  rw [← not_fitsInt64_tdiv_iff hb, not_not] at h
  obtain ⟨k, hk, -⟩ := int64?_of_fits h
  rw [remainder, if_neg hb, hk, Option.isSome_some, if_pos rfl]
  exact exact_isExact op _

/-- A remainder that is given is that of truncating division. -/
theorem remainder_eq_ok {v : Value} (h : remainder op a b = .ok v) :
    b ≠ 0 ∧ ∃ k : Int64, k.toInt = a.toInt.tmod b.toInt ∧ v = .int k := by
  have hb : b ≠ 0 := by
    rintro rfl
    rw [remainder, if_pos rfl] at h
    cases h
  -- The two cases that are refused have no remainder
  have hpair : ¬ (a = Int64.minValue ∧ b = -1) := by
    rintro ⟨rfl, rfl⟩
    rw [remainder_eq_overflow] at h
    cases h
  exact ⟨hb, ((remainder_isExact op hb hpair).ok_iff v).1 h⟩

/-! ### Powers -/

/-- The bases whose powers stay in range. -/
def Bounded (base : Int64) : Prop :=
  base = 0 ∨ base = 1 ∨ base = -1

/-- The bases whose powers stay in range are `-1`, `0` and `1`. -/
theorem bounded_iff : Bounded a ↔ a.toInt.natAbs < 2 := by
  have hzero : (0 : Int64).toInt = 0 := rfl
  have hone : (1 : Int64).toInt = 1 := rfl
  have hneg : (-1 : Int64).toInt = -1 := rfl
  unfold Bounded
  rw [← Int64.toInt_inj, ← Int64.toInt_inj, ← Int64.toInt_inj, hzero, hone, hneg]
  omega

/-- Every other base leaves the range before its exponent reaches 64. -/
theorem not_fitsInt64_pow {e : Nat} (ha : ¬ Bounded a) (he : 64 ≤ e) :
    ¬ FitsInt64 (a.toInt ^ e) := by
  rw [bounded_iff, not_lt] at ha
  intro h
  have hsize : 2 ^ 64 ≤ (a.toInt ^ e).natAbs := by
    rw [Int.natAbs_pow]
    exact (Nat.pow_le_pow_right (by decide) he).trans (Nat.pow_le_pow_left ha e)
  unfold FitsInt64 at h
  omega

/-- A power is exact, unless the exponent takes more than 32 bits and the base stays in range. -/
theorem power_isExact (op : String) (hb : 0 ≤ b) (h : 2 ^ 32 ≤ b.toInt → ¬ Bounded a) :
    Exact op (a.toInt ^ b.toInt.toNat) (power op a b) := by
  unfold power
  generalize he : b.toInt.toNat = e
  have hwidth : UInt32.size = 2 ^ 32 := rfl
  simp only [if_neg (Int64.not_lt.2 hb)]
  split_ifs with hlarge h0 hpos h1 hneg heven hover
  -- The exponent takes more than 32 bits, so the base is none of the bounded ones
  · exact .of_not_fits (not_fitsInt64_pow (h (by omega)) (by omega))
  -- The bounded bases are settled by the exponent being zero, even or odd
  · subst h0 hpos
    exact .of_fits rfl
  · subst h0
    exact .of_fits (zero_pow hpos).symm
  · subst h1
    exact .of_fits (one_pow e).symm
  · subst hneg
    exact .of_fits (Even.neg_one_pow (Nat.even_iff.2 heven)).symm
  · subst hneg
    exact .of_fits (Odd.neg_one_pow (Nat.odd_iff.2 (by omega))).symm
  -- Any other base is multiplied out, unless the exponent alone rules that out
  · exact .of_not_fits (not_fitsInt64_pow (by unfold Bounded; tauto) hover)
  · exact exact_isExact op _

/-- An exponent of more than 32 bits is refused, whatever the base. -/
theorem power_eq_overflow (op : String) (h : 2 ^ 32 ≤ b.toInt) :
    power op a b = .error (.overflow op) := by
  have hb : ¬ b < 0 := by
    rw [Checked.lt_zero_iff]
    omega
  -- An exponent is narrowed to 32 bits before the power is computed
  have hwidth : UInt32.size = 2 ^ 32 := rfl
  unfold power
  simp only [if_neg hb]
  rw [if_pos (by omega)]
  rfl

end Arithmetic

/-! ### Expressions -/

namespace Expr

open Arithmetic (Exact Floors Bounded lowered)

variable {source : FieldKey → Evaluated} {l r : Expr} {a b : Int64}

/-- An operation on an operand that evaluates is applied to its value. -/
theorem evalWith_unary_of_ok {v : Value} (hl : l.evalWith source = .ok v) (op : UnaryOp)
    (t : ValueType) : (unary op l t).evalWith source = op.apply v := by
  rw [evalWith_unary, hl]
  rfl

/-- The same of an operation on two operands. -/
theorem evalWith_binary_of_ok {v w : Value} (hl : l.evalWith source = .ok v)
    (hr : r.evalWith source = .ok w) (op : BinaryOp) (t : ValueType) :
    (binary op l r t).evalWith source = op.apply v w := by
  rw [evalWith_binary, hl, Except.bind, hr]
  rfl

/-- Arithmetic on integers is exact up to the limits of their range.  A quotient is rounded down,
which is the truncated quotient less one where something remains and the signs differ, and on a
machine with integers of 64 bits no step of an operation breaks down. -/
theorem arithmetic_exact (hl : l.evalWith source = .ok (.int a))
    (hr : r.evalWith source = .ok (.int b)) (t : ValueType) :
    Exact "+" (a.toInt + b.toInt) ((binary .add l r t).evalWith source) ∧
      Exact "-" (a.toInt - b.toInt) ((binary .sub l r t).evalWith source) ∧
      Exact "*" (a.toInt * b.toInt) ((binary .mul l r t).evalWith source) ∧
      Exact "neg" (-a.toInt) ((unary .neg l t).evalWith source) ∧
      Exact "abs" |a.toInt| ((unary (.call .abs) l t).evalWith source) ∧
      Floors "//" a b ((binary .floorDiv l r t).evalWith source) ∧
      (∀ v, (binary .mod l r t).evalWith source = .ok v →
        (∃ k : Int64, k.toInt = a.toInt.tmod b.toInt ∧ v = .int k) ∧
          Exact "//" (lowered a.toInt b.toInt) ((binary .floorDiv l r t).evalWith source)) ∧
      (∀ op : UnaryOp, Checked.operation (.unary op) [.int a] =
        .ok ((unary op l t).evalWith source)) ∧
      ∀ op : BinaryOp, Checked.operation (.binary op) [.int a, .int b] =
        .ok ((binary op l r t).evalWith source) := by
  -- From here on the operations on values are meant, and the expressions are gone
  simp only [evalWith_binary_of_ok hl hr, evalWith_unary_of_ok hl]
  refine ⟨Arithmetic.exact_isExact _ _, Arithmetic.exact_isExact _ _, Arithmetic.exact_isExact _ _,
    Arithmetic.exact_isExact _ _, ?_, Arithmetic.floorQuotient_floors _ a b, ?_,
    fun op => Checked.operation_unary op _, fun op => Checked.operation_binary op _ _⟩
  · -- The magnitude is checked like a sum
    rw [Int.abs_eq_natAbs]
    exact Arithmetic.exact_isExact _ _
  · intro v hv
    -- Where there is a remainder the divisor is not zero, and the quotient can be had from the
    -- truncated one
    obtain ⟨hb, hk⟩ := @Arithmetic.remainder_eq_ok "%" a b v hv
    exact ⟨hk, Arithmetic.floorQuotient_lowered "//" hb⟩

/-- The least integer halved, and divided by `-1`, which is the one quotient that does not fit. -/
theorem arithmetic_exact_least :
    let x : Expr := .literal (.int Int64.minValue)
    let y : Expr := .literal (.int 2)
    let z : Expr := .literal (.int (-1))
    (binary .floorDiv x y .int).evalConstant = .ok (.int (-4611686018427387904)) ∧
      (binary .floorDiv x z .int).evalConstant = .error (.overflow "//") ∧
      (binary .sub x z .int).evalConstant = .ok (.int (-9223372036854775807)) := by
  intro x y z
  let noFields : FieldKey → Evaluated := fun k => throw (.unknownField k)
  obtain ⟨-, -, -, -, -, hhalf, -⟩ := @arithmetic_exact noFields x y _ _ rfl rfl .int
  obtain ⟨-, hdifference, -, -, -, hwhole, -⟩ := @arithmetic_exact noFields x z _ _ rfl rfl .int
  -- The half is exact, the whole overflows, and the difference is exact again
  refine ⟨((hhalf.floor (by decide)).ok_iff _).2 ⟨_, ?_, rfl⟩, hwhole.overflow.2 ⟨rfl, rfl⟩,
    (hdifference.ok_iff _).2 ⟨_, rfl, rfl⟩⟩
  rw [← Arithmetic.fdiv_eq_floor _ (by decide)]
  rfl

/-- Remainders and powers are exact as well, with two exceptions that are refused though they fit:
the remainder of the least integer by `-1`, and powers of `-1`, `0` and `1` whose exponent takes
more than 32 bits. -/
theorem remainder_power_exact (hl : l.evalWith source = .ok (.int a))
    (hr : r.evalWith source = .ok (.int b)) (t : ValueType) :
    (b ≠ 0 → ¬ (a = Int64.minValue ∧ b = -1) →
        Exact "%" (a.toInt.tmod b.toInt) ((binary .mod l r t).evalWith source)) ∧
      (a = Int64.minValue → b = -1 →
        (binary .mod l r t).evalWith source = .error (.overflow "%")) ∧
      (0 ≤ b → (2 ^ 32 ≤ b.toInt → ¬ Bounded a) →
        Exact "**" (a.toInt ^ b.toInt.toNat) ((binary .pow l r t).evalWith source)) ∧
      (2 ^ 32 ≤ b.toInt →
        (binary .pow l r t).evalWith source = .error (.overflow "**")) := by
  -- From here on the operations on values are meant, and the expressions are gone
  simp only [evalWith_binary_of_ok hl hr]
  refine ⟨Arithmetic.remainder_isExact "%", ?_, Arithmetic.power_isExact "**",
    Arithmetic.power_eq_overflow "**"⟩
  rintro rfl rfl
  exact Arithmetic.remainder_eq_overflow "%"

/-- A power at the limit of the range, and one of zero with the largest exponent that is taken. -/
theorem remainder_power_exact_limits :
    let base : Expr := .literal (.int (-2))
    let exponent : Expr := .literal (.int 63)
    let zero : Expr := .literal (.int 0)
    let largest : Expr := .literal (.int 4294967295)
    (binary .pow base exponent .int).evalConstant = .ok (.int Int64.minValue) ∧
      (binary .mod base exponent .int).evalConstant = .ok (.int (-2)) ∧
      (binary .pow zero largest .int).evalConstant = .ok (.int 0) := by
  intro base exponent zero largest
  let noFields : FieldKey → Evaluated := fun k => throw (.unknownField k)
  obtain ⟨hremainder, -, hpower, -⟩ :=
    @remainder_power_exact noFields base exponent _ _ rfl rfl .int
  obtain ⟨-, -, hzero, -⟩ := @remainder_power_exact noFields zero largest _ _ rfl rfl .int
  refine ⟨((hpower (by decide) fun h => absurd h (by decide)).ok_iff _).2 ⟨_, rfl, rfl⟩,
    ((hremainder (by decide) (by decide)).ok_iff _).2 ⟨_, rfl, rfl⟩,
    ((hzero (by decide) fun h => absurd h (by decide)).ok_iff _).2 ⟨0, ?_, rfl⟩⟩
  -- The exponent is out of reach of evaluation
  exact (zero_pow (by decide)).symm

/-- The remainder of the least integer by `-1` and the power of one are in range, and both are
refused. -/
theorem not_exact_remainder_power :
    let least : Expr := .literal (.int Int64.minValue)
    let minusOne : Expr := .literal (.int (-1))
    let one : Expr := .literal (.int 1)
    let large : Expr := .literal (.int 4294967296)
    ¬ Exact "%" (Int64.minValue.toInt.tmod (-1)) (binary .mod least minusOne .int).evalConstant ∧
      ¬ Exact "**" (1 ^ 4294967296) (binary .pow one large .int).evalConstant := by
  intro least minusOne one large
  constructor
  · intro h
    -- The remainder is zero, yet overflow is reported
    exact ((h.error_iff (.overflow "%")).1 rfl).1 (by decide)
  · -- The power is evaluated by `one_pow`; its exponent is out of reach of evaluation
    intro h
    refine ((h.error_iff (.overflow "**")).1 rfl).1 ?_
    rw [one_pow]
    decide

end Expr

end ReactiveState
