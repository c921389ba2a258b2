import ReactiveState.Number.Shortest

/-! # Number formats

How a double is written down.  The digits are the shortest ones that read back; a `NumberFormat`
decides where the positional form ends, how a whole number is marked, which way ties go, and how
zeros and the values that are no numbers are written.

There are two formats: `jsonNumber`, in which every field value travels, and `scriptNumber`, in
which a number becomes a string. -/

namespace ReactiveState

/-- The decisions of a format. -/
structure NumberFormat where
  /-- With the point before digit `n + 1`, the form is positional when `low < n ≤ high`. -/
  low : Int
  high : Int
  /-- What follows the digits of a whole number in positional form. -/
  whole : List Char
  /-- Which of two equally near shortest decimals is taken. -/
  tie : Tie
  zero : String
  negativeZero : String
  notANumber : String
  infinity : String
  negativeInfinity : String

namespace NumberFormat

/-- Digits with a point behind the first one, if more follow. -/
def mantissaText : List Char → List Char
  | [] => []
  | [d] => [d]
  | d :: ds => d :: '.' :: ds

/-- The number `0.d₁…dₖ · 10 ^ n` in positional or in exponential form. -/
def layout (f : NumberFormat) (digits : List Char) (n : Int) : List Char :=
  if f.low < n ∧ n ≤ f.high then
    if digits.length ≤ n then digits ++ List.replicate (n - digits.length).toNat '0' ++ f.whole
    else if 0 < n then digits.take n.toNat ++ '.' :: digits.drop n.toNat
    else '0' :: '.' :: (List.replicate (-n).toNat '0' ++ digits)
  else
    mantissaText digits ++ 'e' :: (if n - 1 < 0 then '-' else '+') :: Nat.toDigits 10 (n - 1).natAbs

/-- The digits of a positive double and the place of its point. -/
def digits (f : NumberFormat) (p : FloatParts) : List Char × Int :=
  let d := Decimal.shortest f.tie p.mantissa p.exponent
  let ds := Nat.toDigits 10 d.coefficient
  (ds, ds.length + d.exponent)

/-- The text of a double. -/
def text (f : NumberFormat) (x : Float) : String :=
  if x.isNaN then f.notANumber
  else if x.isInf then (if x > 0.0 then f.infinity else f.negativeInfinity)
  else
    let p := FloatParts.ofFloat x
    if p.mantissa = 0 then (if p.negative then f.negativeZero else f.zero)
    else
      let d := f.digits p
      String.ofList ((if p.negative then ['-'] else []) ++ f.layout d.1 d.2)

end NumberFormat

/-- The format of JSON text: positional between `1e-5` and `1e16`, a whole number has a fraction,
and what is no number is `null`. -/
def jsonNumber : NumberFormat where
  low := -5
  high := 16
  whole := ['.', '0']
  tie := .toEven
  zero := "0.0"
  negativeZero := "-0.0"
  notANumber := "null"
  infinity := "null"
  negativeInfinity := "null"

/-- The format of a number turned into a string: positional between `1e-6` and `1e21`, a whole
number is written without a fraction, and zero has no sign. -/
def scriptNumber : NumberFormat where
  low := -6
  high := 21
  whole := []
  tie := .up
  zero := "0"
  negativeZero := "0"
  notANumber := "NaN"
  infinity := "Infinity"
  negativeInfinity := "-Infinity"

end ReactiveState
