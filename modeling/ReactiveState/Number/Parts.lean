/-! # The parts of a double

A finite double is `± mantissa · 2 ^ exponent` with a mantissa below `2 ^ 53` and an exponent of at
least `-1074`.  `FloatParts` holds the three parts, so that digits, remainders and whole parts are
computed in exact integer arithmetic. -/

namespace ReactiveState

/-- The number `± mantissa · 2 ^ exponent`. -/
structure FloatParts where
  negative : Bool
  mantissa : Nat
  exponent : Int
deriving DecidableEq, Repr

namespace FloatParts

/-- The weight of the leading bit of a mantissa, `2 ^ 52`; it is not written out. -/
def leadingBit : Nat := 0x10000000000000

/-- The weight of the sign among the bits, `2 ^ 63`. -/
def signBit : Nat := 0x8000000000000000

/-- The parts of the finite double with these bits. -/
def ofBits (bits : UInt64) : FloatParts :=
  let field : Nat := bits.toNat / leadingBit % 2048
  let fraction : Nat := bits.toNat % leadingBit
  if field = 0 then ⟨signBit ≤ bits.toNat, fraction, -1074⟩
  else ⟨signBit ≤ bits.toNat, leadingBit + fraction, field - 1075⟩

/-- The parts of a finite double. -/
def ofFloat (x : Float) : FloatParts := ofBits x.toBits

/-- The bits of the double of this value, for a value that a double holds exactly: the mantissa is
shifted up as far as the widths of mantissa and exponent allow. -/
def toBits (p : FloatParts) : UInt64 :=
  let sign := if p.negative then signBit else 0
  if p.mantissa = 0 then UInt64.ofNat sign
  else
    let shift := min (52 - p.mantissa.log2) (p.exponent + 1074).toNat
    let mantissa := p.mantissa <<< shift
    let field := (p.exponent - shift + 1075).toNat
    if mantissa < leadingBit then UInt64.ofNat (sign + mantissa)
    else UInt64.ofNat (sign + field * leadingBit + (mantissa - leadingBit))

/-- The double of this value, for a value that a double holds exactly. -/
def toFloat (p : FloatParts) : Float := Float.ofBits p.toBits

/-- The whole part, toward zero. -/
def truncate (p : FloatParts) : Int :=
  let n := if 0 ≤ p.exponent then p.mantissa <<< p.exponent.toNat
    else p.mantissa >>> (-p.exponent).toNat
  if p.negative then -(n : Int) else n

/-- The remainder of truncating division; the dividend's sign is kept. -/
def remainder (a b : FloatParts) : FloatParts :=
  let e := min a.exponent b.exponent
  let m := a.mantissa <<< (a.exponent - e).toNat
  let n := b.mantissa <<< (b.exponent - e).toNat
  ⟨a.negative, m % n, e⟩

end FloatParts

/-- The remainder of truncating division of doubles, which is always exact.  There is none of an
infinite dividend or by zero, and a finite dividend is its own remainder by an infinity. -/
def floatRemainder (x y : Float) : Float :=
  if x.isNaN || y.isNaN || x.isInf || y == 0.0 then 0.0 / 0.0
  else if y.isInf then x
  else ((FloatParts.ofFloat x).remainder (FloatParts.ofFloat y)).toFloat

end ReactiveState
