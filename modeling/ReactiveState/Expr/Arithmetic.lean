import ReactiveState.FieldKey
import ReactiveState.Value
import ReactiveState.Number.Int64
import ReactiveState.Number.Parts

/-! # Arithmetic of expressions

Integers are exact: an operation gives the mathematical result if it fits in 64 bits and fails with
`overflow` if it does not.  There are two results that fit and fail all the same, the remainder of
the least integer by `-1` and a power whose exponent takes more than 32 bits.  As soon as one
operand is a float, both are taken as doubles. -/

namespace ReactiveState

/-- Why an expression has no value. -/
inductive EvalError where
  | divisionByZero
  | overflow (op : String)
  | indexOutOfRange (index : Int64) (length : Nat)
  | missingKey (key : String)
  /-- An operation met a value of a kind it does not know. -/
  | invalidOperand (op : String) (found : String)
  /-- A function that only the client has. -/
  | renderOnlyFunction (name : String)
  | unknownField (key : FieldKey)
  | negativeExponent (exponent : Int64)
  /-- A repetition would grow beyond the limit. -/
  | sizeLimit (op : String) (limit : Nat)
deriving DecidableEq

namespace EvalError

/-- The text of the error. -/
def message : EvalError → String
  | divisionByZero => "division by zero"
  | overflow op => "integer overflow in `" ++ op ++ "`"
  | indexOutOfRange index length =>
    "index " ++ toString index.toInt ++ " out of range for length " ++ toString length
  | missingKey key => "missing key `" ++ key ++ "`"
  | invalidOperand op found => "`" ++ op ++ "` cannot be applied to a " ++ found ++ " value"
  | renderOnlyFunction name =>
    "function `" ++ name ++ "` only exists on the client and cannot be evaluated on the server"
  | unknownField key => "unknown field `" ++ key.text ++ "`"
  | negativeExponent exponent =>
    "negative exponent " ++ toString exponent.toInt ++ " in integer power"
  | sizeLimit op limit =>
    "`" ++ op ++ "` would produce more than " ++ toString limit ++ " elements"

end EvalError

/-- A value, or the reason why there is none. -/
abbrev Evaluated := Except EvalError Value

namespace Arithmetic

/-- The integer, if it fits. -/
def exact (op : String) (n : Int) : Evaluated :=
  match int64? n with
  | some k => return .int k
  | none => throw (.overflow op)

/-- The floor of the quotient. -/
def floorQuotient (op : String) (a b : Int64) : Evaluated :=
  if b = 0 then throw .divisionByZero else exact op (a.toInt.fdiv b.toInt)

/-- The remainder of truncating division.  It is refused where the quotient does not fit. -/
def remainder (op : String) (a b : Int64) : Evaluated :=
  if b = 0 then throw .divisionByZero
  else if (int64? (a.toInt.tdiv b.toInt)).isSome then exact op (a.toInt.tmod b.toInt)
  else throw (.overflow op)

/-- The power.  A base of two or more in size leaves the range before its exponent reaches 64. -/
def power (op : String) (base exponent : Int64) : Evaluated :=
  let e := exponent.toInt.toNat
  if exponent < 0 then throw (.negativeExponent exponent)
  else if UInt32.size ≤ e then throw (.overflow op)
  -- The three bases whose powers never leave the range
  else if base = 0 then return .int (if e = 0 then 1 else 0)
  else if base = 1 then return .int 1
  else if base = -1 then return .int (if e % 2 = 0 then 1 else -1)
  else if 64 ≤ e then throw (.overflow op)
  else exact op (base.toInt.pow e)

/-- The two operands as doubles; the first that is no number is reported. -/
def floats (op : String) (a b : Value) : Except EvalError (Float × Float) :=
  match a.number?, b.number? with
  | some x, some y => return (x, y)
  | none, _ => throw (.invalidOperand op a.kind)
  | _, none => throw (.invalidOperand op b.kind)

/-- An operation that has an exact form on integers. -/
def numeric (op : String) (onInts : Int → Int → Int) (onFloats : Float → Float → Float)
    (a b : Value) : Evaluated :=
  match a, b with
  | .int m, .int n => exact op (onInts m.toInt n.toInt)
  | a, b => do
    let (x, y) ← floats op a b
    return .float (onFloats x y)

/-- A division of doubles, which a zero divisor stops. -/
def divided (op : String) (onFloats : Float → Float → Float) (a b : Value) : Evaluated := do
  let (x, y) ← floats op a b
  if y == 0.0 then throw .divisionByZero else return .float (onFloats x y)

/-- The lesser of two doubles, the second of two equal ones, and the number if one is a NaN. -/
def lesser (x y : Float) : Float :=
  if x.isNaN then y else if y.isNaN then x else if x < y then x else y

/-- The greater of two doubles, the second of two equal ones, and the number if one is a NaN. -/
def greater (x y : Float) : Float :=
  if x.isNaN then y else if y.isNaN then x else if x > y then x else y

/-- The order of two values: integers as integers, strings by code point, all else as doubles. -/
def order (op : String) (a b : Value) : Except EvalError Ordering :=
  match a, b with
  | .int m, .int n => return compare m.toInt n.toInt
  | .str s, .str t => return compare s t
  | a, b => do
    let (x, y) ← floats op a b
    -- A NaN is in none of the three relations to anything
    if x < y then return .lt
    else if x == y then return .eq
    else if x > y then return .gt
    else throw (.invalidOperand op a.kind)

/-- Equality in which an integer equals the float of the same value. -/
def looselyEqual (a b : Value) : Bool :=
  match a, b with
  | .int n, .float x => Float.ofInt n.toInt == x
  | .float x, .int n => Float.ofInt n.toInt == x
  | a, b => a == b

end Arithmetic

end ReactiveState
