import Mathlib.Data.Nat.Digits.Defs
import ReactiveState.Number.Format

/-!
# How many digits a number has

Bounds on the decimals that doubles are written with.  They are far from tight: it is enough that
the number of digits and the place of the point are small for an integer of 32 bits
(`digits_bounds`).
-/

namespace ReactiveState

namespace FloatParts

/-- The mantissa of a double has at most 53 bits. -/
theorem mantissa_ofFloat_lt (x : Float) : (ofFloat x).mantissa < 2 ^ 53 := by
  have hfraction : x.toBits.toNat % leadingBit < leadingBit := Nat.mod_lt _ (by decide)
  have hleading : leadingBit = 2 ^ 52 := rfl
  simp only [ofFloat, ofBits]
  split <;> simp only <;> omega

/-- The exponent of a double is that of an integer mantissa, between the subnormal and the largest
ones. -/
theorem exponent_ofFloat_bounds (x : Float) :
    -1074 ≤ (ofFloat x).exponent ∧ (ofFloat x).exponent ≤ 972 := by
  have hfield : x.toBits.toNat / leadingBit % 2048 < 2048 := Nat.mod_lt _ (by decide)
  simp only [ofFloat, ofBits]
  split <;> simp only <;> omega

end FloatParts

namespace Decimal

variable {tie : Tie} {m : Nat} {q : Int}

/-- The point that is found is one of the two neighbours of the value. -/
theorem nearest?_eq {g : Grid} {k : Nat} (h : g.nearest? tie m q = some k) :
    k = 4 * m * g.factor / g.unit ∨ k = 4 * m * g.factor / g.unit + 1 := by
  simp only [Grid.nearest?] at h
  generalize 4 * m * g.factor / g.unit = low at h ⊢
  grind

/-- What is found on a grid is at most one above the scaled value. -/
theorem nearest?_le {g : Grid} {k : Nat} (h : g.nearest? tie m q = some k) :
    k ≤ 4 * m * g.factor + 1 := by
  have hlow : 4 * m * g.factor / g.unit ≤ 4 * m * g.factor := Nat.div_le_self _ _
  rcases nearest?_eq h with rfl | rfl <;> omega

/-- The search ends on one of the grids that it tries. -/
theorem search_bounds {B : Nat} (tie : Tie) (steps : Nat) (p : Int)
    (hgrid : ∀ p' k, p - steps ≤ p' → (Grid.of q p').nearest? tie m q = some k → k ≤ B) :
    (search tie m q steps p).coefficient ≤ B ∧ p - steps ≤ (search tie m q steps p).exponent ∧
      (search tie m q steps p).exponent ≤ p := by
  induction steps generalizing p with
  | zero =>
    refine ⟨?_, by simp [search], by simp [search]⟩
    rw [search]
    cases h : (Grid.of q p).nearest? tie m q with
    | none => exact Nat.zero_le B
    | some k => exact hgrid p k (by simp) h
  | succ steps ih =>
    rw [search]
    cases h : (Grid.of q p).nearest? tie m q with
    -- The search ends here, or goes on with the next finer grid
    | some k => exact ⟨hgrid p k (by omega) h, by simp only; omega, Int.le_refl p⟩
    | none =>
      obtain ⟨hB, hlow, hhigh⟩ := ih (p - 1) fun p' k hp' => hgrid p' k (by omega)
      simp only
      exact ⟨hB, by omega, by omega⟩

/-- The factor of a grid is a power of ten times a power of two. -/
theorem factor_le {p : Int} {a b : Nat} (hp : -a ≤ p) (hq : q - 2 ≤ b) :
    (Grid.of q p).factor ≤ 10 ^ a * 2 ^ b := by
  rw [Grid.of, Nat.shiftLeft_eq]
  refine Nat.mul_le_mul ?_ (Nat.pow_le_pow_right (by decide) (by omega))
  exact Nat.pow_le_pow_right (by decide) (by omega)

/-- The shortest decimal of a double has a coefficient of bounded size, and an exponent between
minus one thousand and one thousand. -/
theorem shortest_bounds {a b : Nat} (tie : Tie) (ha : 1000 ≤ a) (hb : 970 ≤ b) (hm : m < 2 ^ 53)
    (hlow : -1074 ≤ q) (hhigh : q ≤ 972) :
    (shortest tie m q).coefficient ≤ 4 * 2 ^ 53 * (10 ^ a * 2 ^ b) + 1 ∧
      -1000 ≤ (shortest tie m q).exponent ∧ (shortest tie m q).exponent ≤ 1000 := by
  -- The grids that are tried are few, since the mantissa has at most 53 bits
  have hlog : m.log2 ≤ 53 := by
    rcases Nat.eq_zero_or_pos m with rfl | hpos
    · decide
    · exact ((Nat.log2_lt hpos.ne').2 hm).le
  obtain ⟨hcoefficient, hlower, hupper⟩ := search_bounds (m := m) (q := q) tie 24
    ((m.log2 + q + 2) * 30103 / 100000 + 1) fun p k hp hk => by
      have hfactor : (Grid.of q p).factor ≤ 10 ^ a * 2 ^ b := factor_le (by omega) (by omega)
      -- A point next to the value is at most one above the scaled value
      have hproduct : 4 * m * (Grid.of q p).factor ≤ 4 * 2 ^ 53 * (10 ^ a * 2 ^ b) :=
        Nat.mul_le_mul (by omega) hfactor
      exact (nearest?_le hk).trans (Nat.add_le_add_right hproduct 1)
  rw [shortest]
  exact ⟨hcoefficient, by omega, by omega⟩

end Decimal

namespace NumberFormat

/-- The number of digits and the place of the point are small. -/
theorem digits_bounds (f : NumberFormat) (x : Float) :
    let d := f.digits (FloatParts.ofFloat x)
    0 < d.1.length ∧ d.1.length ≤ 1500 ∧ -1000 ≤ d.2 ∧ d.2 ≤ 2500 := by
  obtain ⟨hlow, hhigh⟩ := FloatParts.exponent_ofFloat_bounds x
  obtain ⟨hcoefficient, hlower, hupper⟩ := Decimal.shortest_bounds f.tie (Nat.le_refl 1000)
    (Nat.le_refl 970) (FloatParts.mantissa_ofFloat_lt x) hlow hhigh
  have hbound : 4 * 2 ^ 53 * (10 ^ 1000 * 2 ^ 970) + 1 < 10 ^ 1500 := by decide +kernel
  have hlength := Nat.toDigits_length 10 _ 1500 (by decide) (hcoefficient.trans_lt hbound)
  have hpos : 0 < (Nat.toDigits 10 (Decimal.shortest f.tie (FloatParts.ofFloat x).mantissa
    (FloatParts.ofFloat x).exponent).coefficient).length := Nat.length_toDigits_pos
  -- These hold numbers of more than a thousand digits, which arithmetic had better not see
  clear hcoefficient hbound
  simp only [digits]
  exact ⟨hpos, hlength, by omega, by omega⟩

end NumberFormat

end ReactiveState
