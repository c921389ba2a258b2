/-! # Reading decimals

The double nearest to a decimal.  `Float.ofScientific` rounds correctly; very large and very small
exponents are settled before it would raise ten to them. -/

namespace ReactiveState

/-- The value of decimal digits; other characters count as their distance from `'0'`. -/
def digitsValue (digits : List Char) : Nat :=
  digits.foldl (fun n c => 10 * n + (c.toNat - '0'.toNat)) 0

/-- The double nearest to `coefficient · 10 ^ exponent`, infinity where that is out of range. -/
def nearestFloat (coefficient : Nat) (exponent : Int) : Float :=
  if coefficient = 0 then 0.0
  else
    let width : Int := (Nat.toDigits 10 coefficient).length
    if 320 < width + exponent then 1.0 / 0.0
    else if width + exponent < -340 then 0.0
    else Float.ofScientific coefficient (exponent < 0) exponent.natAbs

/-- The same with a sign. -/
def signedFloat (negative : Bool) (coefficient : Nat) (exponent : Int) : Float :=
  if negative then -(nearestFloat coefficient exponent) else nearestFloat coefficient exponent

end ReactiveState
