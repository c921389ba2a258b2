import Mathlib
import ReactiveState.Proofs.Number.Digits
import ReactiveState.Proofs.Value.Equality

/-!
# Integers that doubles hold

A double holds an integer if its parts have the value of the integer (`Holds`).  The conversion of
integers rounds, but it does not round an integer that some double holds: it gives that double, or
the other one of the zeros (`Holds.ofInt_beq`).

The conversion is computed on unpacked doubles, whose mantissas are shifted up for the computation
and down for the result.  A mantissa that fits is the same afterwards (`Canonical`), and the parts
of every finite double fit (`FloatParts.canonical_ofFloat`).

What unpacking and packing do to the bits is known to the library (`UnpackedFloat.pack_unpack`);
this part of it comes with the whole of Mathlib only.
-/

namespace ReactiveState

open Float.Model (Format UnpackedFloat totalExponent)
open Float.Model.UnpackedFloat (ExtendedMantissa Sign)

/-! ### Shifting exact mantissas -/

/-- Multiplying by a power of two adds to the logarithm. -/
theorem log2_mul_two_pow {m : Nat} (hm : m ≠ 0) (k : Nat) : (m * 2 ^ k).log2 = m.log2 + k := by
  induction k with
  | zero => simp
  | succ k ih =>
    have hne : m * 2 ^ k ≠ 0 := Nat.mul_ne_zero hm (by positivity)
    rw [show m * 2 ^ (k + 1) = 2 * (m * 2 ^ k) by ring, Nat.log2_two_mul hne, ih]
    rfl

/-- Zeros at the end are shifted out without a trace. -/
theorem shiftRight_mul_two_pow (m k : Nat) :
    (⟨m * 2 ^ k, false, false⟩ : ExtendedMantissa) >>> k = ⟨m, false, false⟩ := by
  induction k generalizing m with
  | zero => simp [HShiftRight.hShiftRight, Nat.repeat]
  | succ k ih =>
    -- Shifting by one more is shifting by one at the end
    have hstep : (⟨m * 2 ^ (k + 1), false, false⟩ : ExtendedMantissa) >>> (k + 1) =
        ((⟨(m * 2) * 2 ^ k, false, false⟩ : ExtendedMantissa) >>> k).shiftRightOne := by
      rw [pow_succ', ← mul_assoc]
      rfl
    rw [hstep, ih]
    simp [ExtendedMantissa.shiftRightOne]

/-- Mantissa and exponent are those of a double. -/
structure Canonical (m : Nat) (e : Int) : Prop where
  pos : 0 < m
  lt : m < 2 ^ 53
  target : Format.binary64.targetExponent (totalExponent m e) = e

variable {m n : Nat} {e : Int} {s : Sign}

/-- The total exponent is that of the value, however its mantissa is shifted. -/
theorem Canonical.totalExponent_mul (h : Canonical m e) (k : Nat) :
    totalExponent (m * 2 ^ k) (e - k) = totalExponent m e := by
  rw [totalExponent, totalExponent, log2_mul_two_pow h.pos.ne']
  push_cast
  ring

/-- A mantissa that was only shifted up is shifted down again, and nothing is lost. -/
theorem Canonical.shiftToTargetExponent (h : Canonical m e) (k : Nat) :
    UnpackedFloat.shiftToTargetExponent .binary64 (m * 2 ^ k) (e - k) .exact =
      (⟨m, false, false⟩, e) := by
  have hshift : (e - (e - (k : Int))).toNat = k := by omega
  simp only [UnpackedFloat.shiftToTargetExponent, UnpackedFloat.shiftToExponent,
    h.totalExponent_mul, h.target, hshift, ExtendedMantissa.ofMantissaAndAccuracy,
    shiftRight_mul_two_pow]
  congr 1
  omega

/-- Rounding shifts the zeros out again and has nothing to round off. -/
theorem Canonical.roundWithAccuracy (h : Canonical m e) (k : Nat) :
    UnpackedFloat.roundWithAccuracy .binary64 s (m * 2 ^ k) (e - k) .exact =
      .finite s m e h.pos := by
  have hagain : UnpackedFloat.shiftToTargetExponent .binary64 m e .exact =
      (⟨m, false, false⟩, e) := by simpa using h.shiftToTargetExponent 0
  have hrounded : (⟨m, false, false⟩ : ExtendedMantissa).roundedMantissa = m := rfl
  simp only [UnpackedFloat.roundWithAccuracy, h.shiftToTargetExponent, hrounded, hagain,
    h.pos.ne', dite_false]

/-! ### Parts of a double -/

namespace FloatParts

open Float.Model.UnpackedFloat (unpackExponent unpackMantissa unpackSign unpackExponent_def
  unpackMantissa_def unpackSign_def)

/-- The number that the parts stand for. -/
def value (p : FloatParts) : ℚ :=
  (if p.negative then -1 else 1) * p.mantissa * (2 : ℚ) ^ p.exponent

/-- A mantissa of zero stands for zero, whatever the exponent. -/
theorem value_eq_zero {p : FloatParts} (h : p.mantissa = 0) : p.value = 0 := by
  rw [value, h, Nat.cast_zero, mul_zero, zero_mul]

/-- The sign, as it is unpacked. -/
def sign (p : FloatParts) : Sign := if p.negative then .negative else .positive

/-- The exponent stands in the eleven bits above the mantissa. -/
theorem toNat_unpackExponent (bits : UInt64) :
    (@unpackExponent .binary64 bits.toBitVec).toNat = bits.toNat / leadingBit % 2048 := by
  rw [unpackExponent_def, BitVec.extractLsb'_toNat, Nat.shiftRight_eq_div_pow]
  rfl

/-- The mantissa stands in the lowest bits. -/
theorem toNat_unpackMantissa (bits : UInt64) :
    (@unpackMantissa .binary64 bits.toBitVec).toNat = bits.toNat % leadingBit := by
  rw [unpackMantissa_def, BitVec.extractLsb'_toNat, Nat.shiftRight_zero]
  rfl

/-- The top bit is the sign. -/
theorem ofBitVec_unpackSign (bits : UInt64) :
    Sign.ofBitVec (@unpackSign .binary64 bits.toBitVec) = (ofBits bits).sign := by
  have hbits := bits.toNat_lt
  have hbit : signBit = 2 ^ 63 := rfl
  -- The sign is one bit, so the quotient is zero or one
  have hsign : (@unpackSign .binary64 bits.toBitVec).toNat = bits.toNat / 2 ^ 63 := by
    rw [unpackSign_def, BitVec.extractLsb'_toNat, Nat.shiftRight_eq_div_pow]
    change bits.toNat / 2 ^ 63 % 2 ^ 1 = bits.toNat / 2 ^ 63
    omega
  have hnegative : (ofBits bits).negative = decide (2 ^ 63 ≤ bits.toNat) := by
    simp only [ofBits, hbit]
    split_ifs <;> rfl
  simp only [Sign.ofBitVec, ← BitVec.toNat_inj, hsign, sign, hnegative, decide_eq_true_eq,
    BitVec.toNat_ofNat]
  split_ifs <;> first | rfl | omega

/-- A one is put before the bits of the mantissa. -/
theorem toNat_leading_append (bits : UInt64) :
    (1#1 ++ @unpackMantissa .binary64 bits.toBitVec).toNat =
      leadingBit + bits.toNat % leadingBit := by
  rw [BitVec.toNat_append, ← toNat_unpackMantissa, ← Nat.shiftLeft_add_eq_or_of_lt (BitVec.isLt _)]
  rfl

/-- The mantissa of the parts, with its leading bit unless the double is subnormal. -/
theorem mantissa_ofBits (bits : UInt64) : (ofBits bits).mantissa =
    if bits.toNat / leadingBit % 2048 = 0 then bits.toNat % leadingBit
    else leadingBit + bits.toNat % leadingBit := by
  simp only [ofBits]
  split_ifs <;> rfl

/-- The exponent of the parts, in units of the last bit of the mantissa. -/
theorem exponent_ofBits (bits : UInt64) : (ofBits bits).exponent =
    if bits.toNat / leadingBit % 2048 = 0 then (-1074 : Int)
    else (bits.toNat / leadingBit % 2048 : Nat) - (1075 : Int) := by
  simp only [ofBits]
  split_ifs <;> rfl

/-- The parts of a finite double are those that it is unpacked to. -/
theorem unpack_cases {x : Float} (hx : x.isFinite = true) :
    ((ofFloat x).mantissa = 0 ∧ x.toModel.unpack = .zero (ofFloat x).sign) ∨
      ∃ h : 0 < (ofFloat x).mantissa, x.toModel.unpack =
        .finite (ofFloat x).sign (ofFloat x).mantissa (ofFloat x).exponent h := by
  change (UnpackedFloat.unpack .binary64 x.toBits.toBitVec).isFinite = true at hx
  change (_ ∧ UnpackedFloat.unpack .binary64 x.toBits.toBitVec = _) ∨
    ∃ h, UnpackedFloat.unpack .binary64 x.toBits.toBitVec = _
  -- The three fields of the double as numbers
  have hexponent := toNat_unpackExponent x.toBits
  have hmantissa := toNat_unpackMantissa x.toBits
  have hleading := toNat_leading_append x.toBits
  have hzero : @unpackExponent .binary64 x.toBits.toBitVec = 0#_ ↔
      x.toBits.toNat / leadingBit % 2048 = 0 := by
    rw [← hexponent, ← BitVec.toNat_inj]
    rfl
  have hzero' : @unpackMantissa .binary64 x.toBits.toBitVec = 0#_ ↔
      x.toBits.toNat % leadingBit = 0 := by
    rw [← hmantissa, ← BitVec.toNat_inj]
    rfl
  simp only [ofFloat, ← ofBitVec_unpackSign, mantissa_ofBits, exponent_ofBits]
  -- Unpacking asks for the exponent first, all ones or all zeros, and then for the mantissa
  simp only [UnpackedFloat.unpack] at hx ⊢
  split_ifs at hx with hones hfraction hfield hfraction
  -- Infinities and NaN are not finite
  · cases hx
  · cases hx
  -- Zeros, subnormal and normal doubles
  · left
    rw [if_pos (hzero.1 hfield), if_neg hones, if_pos hfield, dif_pos hfraction]
    exact ⟨hzero'.1 hfraction, rfl⟩
  · right
    rw [if_neg hones, if_pos hfield, dif_neg hfraction]
    simp only [hmantissa, hexponent, hzero.1 hfield]
    exact ⟨Nat.pos_of_ne_zero (mt hzero'.2 hfraction), rfl⟩
  · right
    rw [if_neg hones, if_neg hfield]
    simp only [if_neg (mt hzero.2 hfield), hleading, hexponent]
    exact ⟨Nat.add_pos_left (by decide) _, rfl⟩

/-- A double that is not zero has a mantissa that fits. -/
theorem canonical_ofFloat {x : Float} (h : 0 < (ofFloat x).mantissa) :
    Canonical (ofFloat x).mantissa (ofFloat x).exponent := by
  refine ⟨h, mantissa_ofFloat_lt x, ?_⟩
  have hfraction : x.toBits.toNat % leadingBit < leadingBit := Nat.mod_lt _ (by decide)
  have hleading : leadingBit = 2 ^ 52 := rfl
  rw [ofFloat, mantissa_ofBits] at h ⊢
  rw [exponent_ofBits]
  simp only [Format.targetExponent, totalExponent, Format.mantissaBits, Format.minExponent]
  split_ifs at h ⊢ with hfield
  -- A subnormal mantissa is short, but the exponent is the least one there is
  · have hlog : (x.toBits.toNat % leadingBit).log2 < 52 := (Nat.log2_lt h.ne').2 (by omega)
    omega
  · -- A normal mantissa has its leading bit
    have hlog : (leadingBit + x.toBits.toNat % leadingBit).log2 = 52 :=
      (Nat.log2_eq_iff h.ne').2 ⟨by omega, by omega⟩
    omega

end FloatParts

/-! ### Packing what was unpacked -/

/-- Packing undoes unpacking for doubles, whose bits are valid. -/
theorem pack_unpack_toModel (x : Float) : Float.Model.pack x.toModel.unpack = x.toModel := by
  rcases x with ⟨⟨bits, hvalid⟩⟩
  simp only [Float.Model.pack, Float.Model.unpack, UnpackedFloat.pack_unpack_of_valid hvalid]

/-- Packing loses nothing that was unpacked, for any bits. -/
theorem unpack_pack_unpack (b : BitVec Format.binary64.numBits) :
    UnpackedFloat.unpack .binary64
      (UnpackedFloat.pack .binary64 (UnpackedFloat.unpack .binary64 b)) =
        UnpackedFloat.unpack .binary64 b := by
  rw [UnpackedFloat.pack_unpack]
  split_ifs with hnan
  · -- A NaN comes back as the one NaN that there is when unpacked
    simp only [UnpackedFloat.isNaNBits, decide_eq_true_eq] at hnan
    rw [UnpackedFloat.unpack_packedNaN]
    simp [UnpackedFloat.unpack, hnan]
  · rfl

/-- A finite double is determined by its exponent and mantissa up to the sign. -/
theorem unpack_packComponents {b : BitVec Format.binary64.numBits} {h : 0 < m}
    (hb : UnpackedFloat.unpack .binary64 b = .finite s m e h) (s' : Sign) :
    UnpackedFloat.unpack .binary64 (UnpackedFloat.packComponents .binary64 s'
      (UnpackedFloat.unpackExponent b) (UnpackedFloat.unpackMantissa b)) = .finite s' m e h := by
  simp only [UnpackedFloat.unpack, UnpackedFloat.unpackMantissa_packComponents,
    UnpackedFloat.unpackExponent_packComponents, UnpackedFloat.unpackSign_packComponents,
    Sign.ofBitVec_toBitVec] at hb ⊢
  split_ifs at hb ⊢ <;> simp_all

/-- A finite double keeps its mantissa and exponent under another sign. -/
theorem unpack_pack_finite {x : Float} {h : 0 < m} (hx : x.toModel.unpack = .finite s m e h)
    (s' : Sign) : (Float.Model.pack (.finite s' m e h)).unpack = .finite s' m e h := by
  rw [← unpack_packComponents hx s']
  exact unpack_pack_unpack _

/-! ### Conversion of natural numbers

The conversion multiplies by a power of ten, here by one.  Small numbers are first rounded to
doubles of their own, large ones are multiplied with all their digits. -/

/-- Rounding an integer that has a mantissa that fits gives this mantissa. -/
theorem Canonical.round (h : Canonical m e) (hne : n ≠ 0)
    (hn : n * 2 ^ (-e).toNat = m * 2 ^ e.toNat) :
    UnpackedFloat.round .binary64 s n 0 = .finite s m e h.pos := by
  -- Both are the same number, so their lengths in bits agree
  have htotal : totalExponent n 0 = totalExponent m e := by
    have hlog := congrArg Nat.log2 hn
    rw [log2_mul_two_pow hne, log2_mul_two_pow h.pos.ne'] at hlog
    simp only [totalExponent]
    omega
  -- Shifting to the exponent of the mantissa drops zeros only
  have hround := h.roundWithAccuracy (s := s) e.toNat
  have hexponent : (0 : Int) - ((0 - e).toNat : Int) = e - (e.toNat : Int) := by omega
  simp only [UnpackedFloat.round, UnpackedFloat.decreaseExponent, htotal, h.target,
    Nat.shiftLeft_eq, hexponent]
  rw [zero_sub, hn, hround]

/-- An integer below `2 ^ 53` is converted by rounding it as it is. -/
theorem Canonical.ofUInt64 (h : Canonical m e) (hne : n ≠ 0) (hsmall : n < 2 ^ 53)
    (hn : n * 2 ^ (-e).toNat = m * 2 ^ e.toNat) :
    UnpackedFloat.ofUInt64 .binary64 n.toUInt64 = .finite .positive m e h.pos := by
  -- The number fits in 64 bits, so nothing is lost before it is rounded
  have htoNat : n.toUInt64.toNat = n := by
    rw [Nat.toUInt64, UInt64.toNat_ofNat']
    omega
  have hpos : compare (n : Int) 0 = .gt := compare_gt_iff_gt.2 (by omega)
  simp only [UnpackedFloat.ofUInt64, UnpackedFloat.ofNat, UnpackedFloat.ofInt,
    UnpackedFloat.normalize, htoNat, hpos, Int.toNat_natCast]
  exact h.round hne hn

/-- A large integer is converted with 53 more bits, which are zeros. -/
theorem ofScientific_zero (hne : n ≠ 0) : UnpackedFloat.ofScientific .binary64 n 0 =
    UnpackedFloat.roundWithAccuracy .binary64 .positive (n * 2 ^ 53) (-53) .exact := by
  have hsign : Sign.positive * Sign.positive = .positive := rfl
  have hbits : Format.binary64.mantissaBits = 53 := rfl
  rw [UnpackedFloat.ofScientific, dif_neg hne, if_neg (by decide), if_neg (by simp),
    if_pos (le_refl 0)]
  simp only [UnpackedFloat.mul, hsign, hbits, Nat.shiftLeft_eq, Int.toNat_zero, pow_zero, mul_one,
    add_zero, Nat.cast_ofNat]

/-- A large integer that a double holds is converted exactly: the zeros that are put behind it are
shifted out again. -/
theorem Canonical.ofScientific (h : Canonical m e) (hlarge : 2 ^ 53 ≤ n)
    (hn : n * 2 ^ (-e).toNat = m * 2 ^ e.toNat) :
    UnpackedFloat.ofScientific .binary64 n 0 = .finite .positive m e h.pos := by
  -- A mantissa that is shifted down is too small to come out as the integer
  have hexp : 0 ≤ e := by
    by_contra hneg
    have hup : n * 1 ≤ n * 2 ^ (-e).toNat := Nat.mul_le_mul_left n Nat.one_le_two_pow
    rw [hn, Int.toNat_of_nonpos (by omega)] at hup
    have := h.lt
    omega
  have hshift : n * 2 ^ 53 = m * 2 ^ (e.toNat + 53) := by
    rw [Int.toNat_of_nonpos (by omega : -e ≤ 0), pow_zero, mul_one] at hn
    rw [hn, pow_add, mul_assoc]
  have hexponent : (-53 : Int) = e - ((e.toNat + 53 : Nat) : Int) := by omega
  rw [ofScientific_zero (by omega), hshift, hexponent]
  exact h.roundWithAccuracy _

/-- A natural number is converted to the double of its value. -/
theorem Canonical.ofNat_eq {y : Float} (h : Canonical m e)
    (hy : y.toModel.unpack = .finite .positive m e h.pos)
    (hn : n * 2 ^ (-e).toNat = m * 2 ^ e.toNat) : Float.ofNat n = y := by
  -- It is enough to come out with the same unpacked form
  have hpack : Float.ofModel (.pack (.finite .positive m e h.pos)) = y := by
    rw [← hy, pack_unpack_toModel]
  have hne : n ≠ 0 := by
    rintro rfl
    have := Nat.mul_pos h.pos (Nat.two_pow_pos e.toNat)
    omega
  change Float.ofScientific n false 0 = y
  unfold Float.ofScientific
  split
  · next hsmall =>
    -- A small number is converted and then multiplied by one, which changes nothing
    have hfloat : n.toUInt64.toFloat = y := by
      change Float.ofModel (.pack (UnpackedFloat.ofUInt64 .binary64 n.toUInt64)) = y
      rw [h.ofUInt64 hne hsmall.1 hn, hpack]
    have hone : (Float.ofBits 0x3FF0000000000000).toModel.unpack =
        .finite .positive (2 ^ 52) (-52) (by decide) := rfl
    have hmul : UnpackedFloat.mul .binary64 y.toModel.unpack
        (Float.ofBits 0x3FF0000000000000).toModel.unpack = .finite .positive m e h.pos := by
      rw [hone, hy]
      exact h.roundWithAccuracy 52
    change n.toUInt64.toFloat * Float.ofBits 0x3FF0000000000000 = y
    rw [hfloat]
    change Float.ofModel (.pack (UnpackedFloat.mul .binary64 y.toModel.unpack
      (Float.ofBits 0x3FF0000000000000).toModel.unpack)) = y
    rw [hmul, hpack]
  · -- A large number is rounded at once
    next hlarge =>
    change Float.ofModel (.pack (UnpackedFloat.ofScientific .binary64 n 0)) = y
    rw [h.ofScientific (by omega) hn, hpack]

/-! ### Conversion of integers -/

/-- The double is finite and has the value of the integer. -/
structure Holds (x : Float) (n : Int) : Prop where
  finite : x.isFinite = true
  value : (FloatParts.ofFloat x).value = n

/-- An equation between fractions, with the negative powers brought to the other side. -/
theorem shifted_eq_of_value {m k : Nat} {e : Int} (h : (m : ℚ) * 2 ^ e = k) :
    k * 2 ^ (-e).toNat = m * 2 ^ e.toNat := by
  have hpow : (2 : ℚ) ^ e * 2 ^ (-e).toNat = 2 ^ e.toNat := by
    have hsum : e + ((-e).toNat : Int) = e.toNat := by omega
    rw [← zpow_natCast, ← zpow_add₀ two_ne_zero, hsum, zpow_natCast]
  have hcast : (k : ℚ) * 2 ^ (-e).toNat = m * 2 ^ e.toNat := by rw [← h, mul_assoc, hpow]
  exact_mod_cast hcast

/-- A finite double is no NaN, so it equals itself. -/
theorem beq_self_of_unpack {x : Float} {h : 0 < m} (hx : x.toModel.unpack = .finite s m e h) :
    (x == x) = true := by
  have hnan : x.isNaN = false := by
    change x.toModel.unpack.isNaN = false
    rw [hx]
    rfl
  exact float_beq_self_iff.2 hnan

/-- The negative of a double that is not zero has the same mantissa and exponent. -/
theorem unpack_neg {x : Float} {h : 0 < m} (hx : x.toModel.unpack = .finite s m e h) :
    (Float.neg x).toModel.unpack = .finite (-s) m e h := by
  change (Float.Model.pack x.toModel.unpack.neg).unpack = _
  rw [hx]
  exact unpack_pack_finite hx (-s)

/-- The sign of a finite double can be turned twice. -/
theorem neg_neg_of_unpack {x : Float} {h : 0 < m} (hx : x.toModel.unpack = .finite s m e h) :
    Float.neg (Float.neg x) = x := by
  have hsign : - -s = s := by cases s <;> rfl
  have hunpack : (Float.neg x).toModel.unpack.neg = x.toModel.unpack := by
    rw [unpack_neg hx, hx, UnpackedFloat.neg, hsign]
  change Float.ofModel (.pack (Float.neg x).toModel.unpack.neg) = x
  rw [hunpack, pack_unpack_toModel]

/-- An integer is converted to the double that holds it, up to the sign of a zero. -/
theorem Holds.ofInt_beq {x : Float} {n : Int} (h : Holds x n) : (Float.ofInt n == x) = true := by
  have hvalue := h.value
  rcases FloatParts.unpack_cases h.finite with ⟨hzero, hunpack⟩ | ⟨hpos, hunpack⟩
  · -- Zeros: both of them equal the zero that `0` is converted to
    have hn : n = 0 := by
      rw [FloatParts.value_eq_zero hzero] at hvalue
      exact_mod_cast hvalue.symm
    rw [hn]
    change ((Float.ofInt 0).toModel.unpack.compare x.toModel.unpack == some .eq) = true
    rw [hunpack]
    rfl
  · have hcanonical := FloatParts.canonical_ofFloat hpos
    rw [FloatParts.value] at hvalue
    rw [FloatParts.sign] at hunpack
    -- Only the value of the parts matters from here on
    generalize (FloatParts.ofFloat x).mantissa = m at *
    generalize (FloatParts.ofFloat x).exponent = e at *
    have hweight : (0 : ℚ) < m * 2 ^ e := by positivity
    split_ifs at hvalue hunpack with hnegative
    · -- A negative integer is converted by way of the double that is not negative
      obtain ⟨k, rfl⟩ : ∃ k, n = Int.negSucc k := Int.eq_negSucc_of_lt_zero (by
        have : (n : ℚ) < 0 := by linarith
        exact_mod_cast this)
      -- Its magnitude is a natural number with the same mantissa and exponent
      have hk : (m : ℚ) * 2 ^ e = (k + 1 : Nat) := by
        rw [Int.cast_negSucc] at hvalue
        linarith
      have hofNat : Float.ofNat (k + 1) = Float.neg x :=
        hcanonical.ofNat_eq (unpack_neg hunpack) (shifted_eq_of_value hk)
      change (Float.neg (Float.ofNat (k + 1)) == x) = true
      rw [hofNat, neg_neg_of_unpack hunpack]
      exact beq_self_of_unpack hunpack
    · obtain ⟨k, rfl⟩ : ∃ k : Nat, n = k := Int.eq_ofNat_of_zero_le (by
        have : (0 : ℚ) < n := by linarith
        exact_mod_cast this.le)
      have hk : (m : ℚ) * 2 ^ e = k := by
        rw [Int.cast_natCast] at hvalue
        linarith
      have hofNat : Float.ofNat k = x := hcanonical.ofNat_eq hunpack (shifted_eq_of_value hk)
      change (Float.ofNat k == x) = true
      rw [hofNat]
      exact beq_self_of_unpack hunpack

/-! ### Doubles that hold the same integer -/

variable {x y z : Float} {k l : Int}

/-- Equality of doubles is symmetric. -/
theorem float_beq_symm (h : (x == y) = true) : (y == x) = true := by
  obtain ⟨hx, hy, h | h | h⟩ := Float.beq_iff_ne_nan_and_eq.1 h
  · exact Float.beq_iff_ne_nan_and_eq.2 ⟨hy, hx, .inl h.symm⟩
  · exact Float.beq_iff_ne_nan_and_eq.2 ⟨hy, hx, .inr (.inr h.symm)⟩
  · exact Float.beq_iff_ne_nan_and_eq.2 ⟨hy, hx, .inr (.inl h.symm)⟩

/-- Equality of doubles is transitive; because of NaN it is not reflexive. -/
theorem float_beq_trans (h : (x == y) = true) (h' : (y == z) = true) : (x == z) = true := by
  rw [Float.beq_iff_ne_nan_and_eq] at h h' ⊢
  grind

/-- A double holds one integer at most. -/
theorem Holds.eq (h : Holds x k) (h' : Holds x l) : k = l := by
  have hvalue := h.value.symm.trans h'.value
  exact_mod_cast hvalue

/-- Both zeros hold `0`. -/
theorem holds_zero : Holds 0 0 := ⟨rfl, by rw [FloatParts.value_eq_zero rfl]; rfl⟩

theorem holds_negZero : Holds (-0) 0 := ⟨rfl, by rw [FloatParts.value_eq_zero rfl]; rfl⟩

/-- Doubles are equal to one that holds an integer exactly if they hold it, too. -/
theorem Holds.beq_iff (h : Holds x k) : (x == y) = true ↔ Holds y k := by
  refine ⟨fun hxy => ?_, fun h' => ?_⟩
  · obtain ⟨-, -, rfl | ⟨rfl, rfl⟩ | ⟨rfl, rfl⟩⟩ := Float.beq_iff_ne_nan_and_eq.1 hxy
    · exact h
    · exact h.eq holds_zero ▸ holds_negZero
    · exact h.eq holds_negZero ▸ holds_zero
  · exact float_beq_trans (float_beq_symm h.ofInt_beq) h'.ofInt_beq

/-- The double `1.0` holds `1`. -/
theorem holds_one : Holds 1.0 1 := by
  have hparts : FloatParts.ofFloat 1.0 = ⟨false, 2 ^ 52, -52⟩ := rfl
  exact ⟨rfl, by rw [hparts]; norm_num [FloatParts.value]⟩

end ReactiveState
