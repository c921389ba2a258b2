import Mathlib.Algebra.Order.Field.Power
import Mathlib.Algebra.Order.Field.Rat
import Mathlib.Tactic.Linarith
import Mathlib.Tactic.LinearCombination
import Mathlib.Tactic.Ring
import ReactiveState.Number.Shortest

/-!
# Shortest decimals

The decimal that `shortest` finds rounds to the double, and no decimal on a coarser grid does
(`isShortest_shortest`).  So its coefficient is not zero and has no zero at its end.

A grid of powers of ten is in integers; `Grid.unit_mul` ties it to the numbers that it stands for.
-/

namespace ReactiveState

namespace Decimal

variable {tie : Tie} {m k : Nat} {p q s : Int}

/-- The lower end of the numbers that round to `m · 2 ^ q`, in quarters of `2 ^ q`. -/
def lowerEnd (m : Nat) (q : Int) : Nat :=
  if m = FloatParts.leadingBit ∧ -1074 < q then 4 * m - 1 else 4 * m - 2

/-- The number rounds to the double `m · 2 ^ q`, a half to the even one. -/
def RoundsTo (r : ℚ) (m : Nat) (q : Int) : Prop :=
  if m % 2 = 0 then lowerEnd m q * 2 ^ (q - 2) ≤ r ∧ r ≤ (4 * m + 2) * 2 ^ (q - 2)
  else lowerEnd m q * 2 ^ (q - 2) < r ∧ r < (4 * m + 2) * 2 ^ (q - 2)

/-! ### Powers of two and of ten -/

/-- Between powers of two and of ten, `28 / 93` is taken for the logarithm of two, from above. -/
theorem pow_two_le_pow_ten {a b : Nat} (h : 28 * b ≤ 93 * a) : (2 : ℚ) ^ b ≤ 10 ^ a := by
  refine le_of_pow_le_pow_left₀ (n := 28) (by norm_num) (by positivity) ?_
  calc ((2 : ℚ) ^ b) ^ 28 = 2 ^ (28 * b) := by rw [← pow_mul, Nat.mul_comm]
    _ ≤ 2 ^ (93 * a) := pow_le_pow_right₀ (by norm_num) h
    _ = (2 ^ 93) ^ a := by rw [pow_mul]
    _ ≤ (10 ^ 28) ^ a := pow_le_pow_left₀ (by norm_num) (by norm_num) a
    _ = (10 ^ a) ^ 28 := by rw [← pow_mul, ← pow_mul, Nat.mul_comm]

/-- From below it is taken to be `3 / 10`. -/
theorem pow_ten_le_pow_two {a b : Nat} (h : 10 * a ≤ 3 * b) : (10 : ℚ) ^ a ≤ 2 ^ b := by
  refine le_of_pow_le_pow_left₀ (n := 3) (by norm_num) (by positivity) ?_
  calc ((10 : ℚ) ^ a) ^ 3 = (10 ^ 3) ^ a := by rw [← pow_mul, ← pow_mul, Nat.mul_comm]
    _ ≤ (2 ^ 10) ^ a := pow_le_pow_left₀ (by norm_num) (by norm_num) a
    _ = 2 ^ (10 * a) := by rw [pow_mul]
    _ ≤ 2 ^ (3 * b) := pow_le_pow_right₀ (by norm_num) h
    _ = (2 ^ b) ^ 3 := by rw [← pow_mul, Nat.mul_comm]

/-- A power with any exponent as a quotient of two with exponents that are not negative. -/
theorem pow_toNat {x : ℚ} (hx : x ≠ 0) (p : Int) : x ^ p.toNat = x ^ p * x ^ (-p).toNat := by
  rw [← zpow_natCast, ← zpow_natCast, ← zpow_add₀ hx]
  congr 1
  omega

/-- Powers compare as their positive and their negative parts do. -/
theorem zpow_le_zpow {x y : ℚ} (hx : 0 < x) (hy : 0 < y) (h : x ^ s.toNat ≤ y ^ p.toNat)
    (h' : y ^ (-p).toNat ≤ x ^ (-s).toNat) : x ^ s ≤ y ^ p := by
  have hxs : 0 < x ^ (-s).toNat := pow_pos hx _
  have hyp : 0 < y ^ (-p).toNat := pow_pos hy _
  have hmul : x ^ s.toNat * y ^ (-p).toNat ≤ y ^ p.toNat * x ^ (-s).toNat :=
    mul_le_mul h h' hyp.le (pow_pos hy _).le
  rw [pow_toNat hx.ne' s, pow_toNat hy.ne' p] at hmul
  refine le_of_mul_le_mul_right ?_ (mul_pos hxs hyp)
  linarith

/-- The estimate from above, also for exponents that are negative. -/
theorem zpow_two_le_zpow_ten (h : 28 * s ≤ 93 * p) (h' : 3 * s ≤ 10 * p) :
    (2 : ℚ) ^ s ≤ 10 ^ p :=
  zpow_le_zpow (by norm_num) (by norm_num) (pow_two_le_pow_ten (by omega))
    (pow_ten_le_pow_two (by omega))

/-- The estimate from below, also for exponents that are negative. -/
theorem zpow_ten_le_zpow_two (h : 10 * p ≤ 3 * s) (h' : 93 * p ≤ 28 * s) :
    (10 : ℚ) ^ p ≤ 2 ^ s :=
  zpow_le_zpow (by norm_num) (by norm_num) (pow_ten_le_pow_two (by omega))
    (pow_two_le_pow_ten (by omega))

/-! ### Grids -/

/-- A step of the grid is `10 ^ p` for numbers scaled by `2 ^ (q - 2)`. -/
theorem Grid.unit_mul (q p : Int) :
    ((Grid.of q p).unit : ℚ) * 2 ^ (q - 2) = (Grid.of q p).factor * 10 ^ p := by
  -- One of the two powers has a negative exponent, and stands as a factor on the other side
  have hten := pow_toNat (x := 10) (by norm_num) p
  have htwo := pow_toNat (x := 2) (by norm_num) (q - 2)
  have hneg : -(q - 2) = 2 - q := by omega
  rw [hneg] at htwo
  simp only [Grid.of, Nat.shiftLeft_eq, Nat.pow_eq]
  push_cast
  rw [hten, htwo]
  ring

/-- The factor of a grid is positive. -/
theorem Grid.factor_pos (q p : Int) : 0 < (Grid.of q p).factor := by
  simp [Grid.of, Nat.shiftLeft_eq, Nat.pow_eq]

/-- So is its unit. -/
theorem Grid.unit_pos (q p : Int) : 0 < (Grid.of q p).unit := by
  simp [Grid.of, Nat.shiftLeft_eq, Nat.pow_eq]

/-- A point of the grid, scaled. -/
theorem Grid.point_mul (q p : Int) (k : Nat) :
    (k : ℚ) * 10 ^ p * (Grid.of q p).factor = k * (Grid.of q p).unit * 2 ^ (q - 2) := by
  linear_combination -(k : ℚ) * Grid.unit_mul q p

/-- Points of the grid compare with quarters of `2 ^ q` as the scaled numbers do. -/
theorem Grid.le_iff (q p : Int) (b k : Nat) :
    (b : ℚ) * 2 ^ (q - 2) ≤ k * 10 ^ p ↔ b * (Grid.of q p).factor ≤ k * (Grid.of q p).unit := by
  have hfactor : (0 : ℚ) < (Grid.of q p).factor := by exact_mod_cast Grid.factor_pos q p
  have htwo : (0 : ℚ) < 2 ^ (q - 2) := by positivity
  rw [← mul_le_mul_iff_left₀ hfactor, Grid.point_mul, mul_right_comm, mul_le_mul_iff_left₀ htwo]
  exact_mod_cast Iff.rfl

/-- A bound from above on a point of a grid, asked in whole numbers. -/
theorem Grid.ge_iff (q p : Int) (b k : Nat) :
    (k : ℚ) * 10 ^ p ≤ b * 2 ^ (q - 2) ↔ k * (Grid.of q p).unit ≤ b * (Grid.of q p).factor := by
  have hfactor : (0 : ℚ) < (Grid.of q p).factor := by exact_mod_cast Grid.factor_pos q p
  have htwo : (0 : ℚ) < 2 ^ (q - 2) := by positivity
  rw [← mul_le_mul_iff_left₀ hfactor, Grid.point_mul, mul_right_comm (b : ℚ),
    mul_le_mul_iff_left₀ htwo]
  exact_mod_cast Iff.rfl

/-- A point of the grid rounds to the double if it lies between the ends. -/
theorem roundsTo_iff : RoundsTo (k * 10 ^ p) m q ↔
    if m % 2 = 0 then lowerEnd m q * (Grid.of q p).factor ≤ k * (Grid.of q p).unit ∧
      k * (Grid.of q p).unit ≤ (4 * m + 2) * (Grid.of q p).factor
    else lowerEnd m q * (Grid.of q p).factor < k * (Grid.of q p).unit ∧
      k * (Grid.of q p).unit < (4 * m + 2) * (Grid.of q p).factor := by
  -- Both ends, as integers on the grid and as fractions
  have hlow := Grid.le_iff q p (lowerEnd m q) k
  have hhigh := Grid.ge_iff q p (4 * m + 2) k
  have hlow' := Grid.ge_iff q p (lowerEnd m q) k
  have hhigh' := Grid.le_iff q p (4 * m + 2) k
  push_cast at hlow hhigh hlow' hhigh'
  unfold RoundsTo
  -- The ends count where the mantissa is even, as ties round to even
  split_ifs
  · rw [hlow, hhigh]
  · rw [← not_le, ← not_le, ← not_le, ← not_le, hlow', hhigh']

/-- The lower end is below the double itself. -/
theorem lowerEnd_lt (hm : 0 < m) : lowerEnd m q < 4 * m := by
  unfold lowerEnd
  split_ifs <;> omega

/-- It is positive if the double is. -/
theorem lowerEnd_pos (hm : 0 < m) : 0 < lowerEnd m q := by
  unfold lowerEnd
  split_ifs <;> omega

/-! ### The point that is found -/

/-- The point of the grid at the value or just below it. -/
def Grid.floor (m : Nat) (q p : Int) : Nat := 4 * m * (Grid.of q p).factor / (Grid.of q p).unit

/-- The point below the value is not above it. -/
theorem Grid.floor_mul_le (m : Nat) (q p : Int) :
    Grid.floor m q p * (Grid.of q p).unit ≤ 4 * m * (Grid.of q p).factor :=
  Nat.div_mul_le_self _ _

/-- The point after it is above the value. -/
theorem Grid.lt_floor_add_one_mul (m : Nat) (q p : Int) :
    4 * m * (Grid.of q p).factor < (Grid.floor m q p + 1) * (Grid.of q p).unit :=
  Nat.lt_mul_of_div_lt (Nat.lt_succ_self _) (Grid.unit_pos q p)

/-- The point below the value is not above the upper end. -/
theorem roundsTo_floor_iff (m : Nat) (q p : Int) : RoundsTo (Grid.floor m q p * 10 ^ p) m q ↔
    if m % 2 = 0 then lowerEnd m q * (Grid.of q p).factor ≤ Grid.floor m q p * (Grid.of q p).unit
    else lowerEnd m q * (Grid.of q p).factor < Grid.floor m q p * (Grid.of q p).unit := by
  have hfactor := Grid.factor_pos q p
  have hfloor := Grid.floor_mul_le m q p
  -- The point below the value is below the upper end by two quarters of a unit at least
  have hupper : (4 * m + 2) * (Grid.of q p).factor =
      4 * m * (Grid.of q p).factor + 2 * (Grid.of q p).factor := by ring
  rw [roundsTo_iff, hupper]
  split_ifs
  · exact and_iff_left (by omega)
  · exact and_iff_left (by omega)

/-- The point above the value is not below the lower end. -/
theorem roundsTo_floor_add_one_iff (hm : 0 < m) (q p : Int) :
    RoundsTo ((Grid.floor m q p + 1 : Nat) * 10 ^ p) m q ↔
      if m % 2 = 0 then
        (Grid.floor m q p + 1) * (Grid.of q p).unit ≤ (4 * m + 2) * (Grid.of q p).factor
      else (Grid.floor m q p + 1) * (Grid.of q p).unit < (4 * m + 2) * (Grid.of q p).factor := by
  have hfloor := Grid.lt_floor_add_one_mul m q p
  have hlower : lowerEnd m q * (Grid.of q p).factor ≤ 4 * m * (Grid.of q p).factor :=
    Nat.mul_le_mul_right _ (lowerEnd_lt hm).le
  rw [roundsTo_iff]
  -- The lower end is below the value and so below the point; only the upper one is in question
  split_ifs
  · exact and_iff_right (by omega)
  · exact and_iff_right (by omega)

/-- The search on a grid finds one of the two points next to the value, if one of them rounds to the
double. -/
theorem nearest?_cases (tie : Tie) (hm : 0 < m) (q p : Int) :
    (∃ k, (Grid.of q p).nearest? tie m q = some k ∧ RoundsTo (k * 10 ^ p) m q) ∨
      (Grid.of q p).nearest? tie m q = none ∧ ¬ RoundsTo (Grid.floor m q p * 10 ^ p) m q ∧
        ¬ RoundsTo ((Grid.floor m q p + 1 : Nat) * 10 ^ p) m q := by
  have hlow := roundsTo_floor_iff m q p
  have hhigh := roundsTo_floor_add_one_iff hm q p
  have hlower : (if m = FloatParts.leadingBit ∧ -1074 < q then 4 * m - 1 else 4 * m - 2) =
    lowerEnd m q := rfl
  have hfloor : 4 * m * (Grid.of q p).factor / (Grid.of q p).unit = Grid.floor m q p := rfl
  simp only [Grid.nearest?, hlower, hfloor]
  by_cases hl : RoundsTo (Grid.floor m q p * 10 ^ p) m q
  · left
    -- Where both points round to the double, the nearer one is taken, and on a tie the one that the
    -- mode says
    by_cases hh : RoundsTo ((Grid.floor m q p + 1 : Nat) * 10 ^ p) m q
    · rw [if_pos (And.intro (hlow.1 hl) (hhigh.1 hh))]
      split
      · exact ⟨_, rfl, hl⟩
      · exact ⟨_, rfl, hh⟩
      · split_ifs
        · exact ⟨_, rfl, hl⟩
        · exact ⟨_, rfl, hh⟩
    · rw [if_neg fun h => hh (hhigh.2 h.2), if_pos (hlow.1 hl)]
      exact ⟨_, rfl, hl⟩
  · -- The point below is out, so the one above is taken if it rounds to the double
    rw [if_neg fun h => hl (hlow.2 h.1), if_neg fun h => hl (hlow.2 h)]
    by_cases hh : RoundsTo ((Grid.floor m q p + 1 : Nat) * 10 ^ p) m q
    · rw [if_pos (hhigh.1 hh)]
      exact .inl ⟨_, rfl, hh⟩
    · rw [if_neg fun h => hh (hhigh.2 h)]
      exact .inr ⟨rfl, hl, hh⟩

/-- If any point of the grid rounds to the double, the search on the grid finds one that does. -/
theorem exists_nearest? (tie : Tie) (hm : 0 < m) (h : RoundsTo (k * 10 ^ p) m q) :
    ∃ k, (Grid.of q p).nearest? tie m q = some k ∧ RoundsTo (k * 10 ^ p) m q := by
  rcases nearest?_cases tie hm q p with hfound | ⟨-, hlow, hhigh⟩
  · exact hfound
  · exfalso
    rw [roundsTo_iff] at h
    rcases Nat.lt_or_ge (Grid.floor m q p) k with hlt | hge
    · -- The point above the value is at most this one, so it is not above the upper end either
      have hle := Nat.mul_le_mul_right (Grid.of q p).unit hlt
      refine hhigh ((roundsTo_floor_add_one_iff hm q p).2 ?_)
      split_ifs at h ⊢
      · exact hle.trans h.2
      · exact hle.trans_lt h.2
    · -- The point below the value is at least this one, so it is not below the lower end
      have hle := Nat.mul_le_mul_right (Grid.of q p).unit hge
      refine hlow ((roundsTo_floor_iff m q p).2 ?_)
      split_ifs at h ⊢
      · exact h.1.trans hle
      · exact h.1.trans_le hle

/-- A grid that is finer than a quarter of a unit has a point that rounds to the double. -/
theorem exists_roundsTo (hm : 0 < m) (h : (10 : ℚ) ^ p ≤ 2 ^ (q - 2)) :
    ∃ k : Nat, RoundsTo (k * 10 ^ p) m q := by
  -- A step of the grid is no longer than a quarter of a unit, which is the least distance to the
  -- lower end
  have hunit : (Grid.of q p).unit ≤ (Grid.of q p).factor := by
    simpa using (Grid.ge_iff q p 1 1).1 (by simpa using h)
  have hfloor := Grid.lt_floor_add_one_mul m q p
  have hlower : (lowerEnd m q + 1) * (Grid.of q p).factor ≤ 4 * m * (Grid.of q p).factor :=
    Nat.mul_le_mul_right _ (lowerEnd_lt hm)
  rw [Nat.add_mul, Nat.one_mul] at hfloor hlower
  refine ⟨Grid.floor m q p, (roundsTo_floor_iff m q p).2 ?_⟩
  split_ifs <;> omega

/-- Only positive numbers round to a positive double. -/
theorem RoundsTo.pos {r : ℚ} (hm : 0 < m) (h : RoundsTo r m q) : 0 < r := by
  have hlower : (0 : ℚ) < lowerEnd m q * 2 ^ (q - 2) :=
    mul_pos (by exact_mod_cast lowerEnd_pos hm) (by positivity)
  unfold RoundsTo at h
  split_ifs at h
  · exact hlower.trans_le h.1
  · exact hlower.trans h.1

/-- No point of a grid that is coarser than the double rounds to it. -/
theorem not_roundsTo_of_lt (hm : 0 < m) (h : (4 * m + 2) * (2 : ℚ) ^ (q - 2) < 10 ^ p) (k : Nat) :
    ¬ RoundsTo (k * 10 ^ p) m q := by
  intro hround
  -- The point zero is not the double's, so the point is at least one step of the grid
  have hk : (1 : ℚ) ≤ k := by
    rcases Nat.eq_zero_or_pos k with rfl | hk
    · simpa using hround.pos hm
    · exact_mod_cast hk
  have hle : (10 : ℚ) ^ p ≤ k * 10 ^ p := le_mul_of_one_le_left (by positivity) hk
  unfold RoundsTo at hround
  split_ifs at hround
  · exact absurd hround.2 (not_le.2 (h.trans_le hle))
  · exact absurd hround.2 (not_lt.2 (h.trans_le hle).le)

/-! ### The search -/

/-- The decimal rounds to the double, and none on the next coarser grid does. -/
structure IsShortest (d : Decimal) (m : Nat) (q : Int) : Prop where
  roundsTo : RoundsTo (d.coefficient * 10 ^ d.exponent) m q
  not_roundsTo : ∀ k : Nat, ¬ RoundsTo (k * 10 ^ (d.exponent + 1)) m q

/-- The search gives a shortest decimal if the grid above the first one is too coarse and the last
one fine enough. -/
theorem isShortest_search (tie : Tie) (hm : 0 < m) {steps : Nat} {p : Int}
    (hcoarse : ∀ k : Nat, ¬ RoundsTo (k * 10 ^ (p + 1)) m q)
    (hfine : ∃ k : Nat, RoundsTo (k * 10 ^ (p - steps)) m q) :
    IsShortest (search tie m q steps p) m q := by
  induction steps generalizing p with
  | zero =>
    rw [Nat.cast_zero, Int.sub_zero] at hfine
    -- The last grid is fine enough
    obtain ⟨k, hk⟩ := hfine
    obtain ⟨k, hfind, hround⟩ := exists_nearest? tie hm hk
    rw [search, hfind]
    exact ⟨hround, hcoarse⟩
  | succ steps ih =>
    rw [search]
    cases hfind : (Grid.of q p).nearest? tie m q with
    | some k =>
      -- A point was found here, and the grid above was too coarse
      obtain ⟨k', hfind', hround⟩ | ⟨hnone, -⟩ := nearest?_cases tie hm q p
      · obtain rfl : k = k' := Option.some.inj (hfind.symm.trans hfind')
        exact ⟨hround, hcoarse⟩
      · exact absurd (hfind.symm.trans hnone) nofun
    | none =>
      -- Nothing on this grid, which is the next coarser one for the rest of the search
      refine ih (fun k hk => ?_) ?_
      · rw [Int.sub_add_cancel] at hk
        obtain ⟨k', hfind', -⟩ := exists_nearest? tie hm hk
        exact absurd (hfind.symm.trans hfind') nofun
      · have hlast : p - 1 - steps = p - (steps + 1 : Nat) := by omega
        rwa [hlast]

/-- What is found is a shortest decimal, for the mantissas and exponents of doubles. -/
theorem isShortest_shortest (tie : Tie) (hm : 0 < m) (hlt : m < 2 ^ 53) (hlow : -1074 ≤ q)
    (hhigh : q ≤ 972) : IsShortest (shortest tie m q) m q := by
  have hlog : m.log2 < 53 := (Nat.log2_lt hm.ne').2 hlt
  refine isShortest_search tie hm (not_roundsTo_of_lt hm ?_) (exists_roundsTo hm ?_)
  · -- The first grid is coarser than the upper end of the double
    have hupper : ((4 * m + 2 : Nat) : ℚ) < 2 ^ (m.log2 + 3) := by
      have hself : m < 2 ^ (m.log2 + 1) := Nat.lt_log2_self
      have hpow : 2 ^ (m.log2 + 3) = 4 * 2 ^ (m.log2 + 1) := by ring
      exact_mod_cast (by omega : 4 * m + 2 < 2 ^ (m.log2 + 3))
    push_cast at hupper
    calc (4 * m + 2) * (2 : ℚ) ^ (q - 2)
        < 2 ^ (m.log2 + 3) * 2 ^ (q - 2) := mul_lt_mul_of_pos_right hupper (by positivity)
      _ = 2 ^ (m.log2 + q + 1) := by
          rw [← zpow_natCast, ← zpow_add₀ (by norm_num)]
          congr 1
          push_cast
          ring
      _ ≤ 10 ^ ((m.log2 + q + 2) * 30103 / 100000 + 1 + 1) :=
          zpow_two_le_zpow_ten (by omega) (by omega)
  · -- The last one is finer than the distance between its ends
    exact zpow_ten_le_zpow_two (by omega) (by omega)

/-- A shortest decimal of a positive double is positive. -/
theorem IsShortest.coefficient_pos {d : Decimal} (h : IsShortest d m q) (hm : 0 < m) :
    0 < d.coefficient := by
  rcases Nat.eq_zero_or_pos d.coefficient with hzero | hpos
  · simpa [hzero] using h.roundsTo.pos hm
  · exact hpos

/-- A coefficient with a zero at its end would be on the next coarser grid. -/
theorem IsShortest.coefficient_mod_ten {d : Decimal} (h : IsShortest d m q) :
    d.coefficient % 10 ≠ 0 := by
  intro hmod
  refine h.not_roundsTo (d.coefficient / 10) ?_
  have hcoefficient : (d.coefficient : ℚ) = (d.coefficient / 10 : Nat) * 10 := by
    exact_mod_cast (by omega : d.coefficient = d.coefficient / 10 * 10)
  have hround := h.roundsTo
  rw [hcoefficient] at hround
  rwa [zpow_add_one₀ (by norm_num), mul_comm ((10 : ℚ) ^ d.exponent), ← mul_assoc]

end Decimal

end ReactiveState
