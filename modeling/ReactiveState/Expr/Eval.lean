import ReactiveState.Expr.Arithmetic
import ReactiveState.Expr.Basic
import ReactiveState.Text.Blank
import ReactiveState.Text.Case
import ReactiveState.Text.Search
import ReactiveState.Value.Written

/-! # Evaluation

`Expr.eval` evaluates an expression with a reader of fields.  The reader may have effects, such as
filling a cache or noting what was read, so evaluation runs in any monad with evaluation errors;
`Expr.evalWith` is the case of a reader that only answers.

Operands are evaluated from left to right.  A logical operation evaluates its right operand only if
the left one does not decide, and a conditional only one branch. -/

namespace ReactiveState

namespace Value

/-! ### Operations on values -/

/-- The most bytes or items that a repetition may produce. -/
def maxRepetition : Nat := 0x100000

/-- How many copies a repetition makes of something of this size. -/
def copies (op : String) (size : Nat) (n : Int64) : Except EvalError Nat :=
  -- Nothing repeated is nothing, whatever the count
  if size = 0 ∨ n ≤ 0 then return 0
  else if size * n.toInt.toNat ≤ maxRepetition then return n.toInt.toNat
  else throw (.sizeLimit op maxRepetition)

/-- The text repeated. -/
def repeatText (op : String) (s : String) (n : Int64) : Evaluated := do
  let k ← copies op s.utf8ByteSize n
  return .str (String.join (List.replicate k s))

/-- The items repeated. -/
def repeatItems (op : String) (items : List Value) (n : Int64) : Evaluated := do
  let k ← copies op items.length n
  return .list (List.replicate k items).flatten

/-- The position that an index means; a negative one counts from the end. -/
def position (index : Int64) (length : Nat) : Except EvalError Nat :=
  let i : Int := if index < 0 then length + index.toInt else index.toInt
  if 0 ≤ i ∧ i < length then return i.toNat else throw (.indexOutOfRange index length)

/-- The value at a key. -/
def valueAt (entries : List (String × Value)) (key : String) : Evaluated :=
  match KeyMap.find? key entries with
  | some v => return v
  | none => throw (.missingKey key)

/-- The value at an index or a key; null has only nulls in it. -/
def indexed (op : String) (container index : Value) : Evaluated :=
  match container, index with
  | .null, _ => return .null
  | .list items, .int i => do
    let k ← position i items.length
    match items[k]? with
    | some v => return v
    | none => throw (.indexOutOfRange i items.length)
  | .str s, .int i => do
    let k ← position i s.toList.length
    match s.toList[k]? with
    | some c => return .str (String.ofList [c])
    | none => throw (.indexOutOfRange i s.toList.length)
  | .dict entries, .str key => valueAt entries key
  | container, _ => throw (.invalidOperand op container.kind)

/-- The value at a fixed name; null has only nulls in it. -/
def attributeOf (op : String) (container name : Value) : Evaluated :=
  match container, name with
  | .null, _ => return .null
  | .dict entries, .str key => valueAt entries key
  | container, _ => throw (.invalidOperand op container.kind)

/-- Whether an item, a part of a text or a key is in the container. -/
def contained (op : String) (container item : Value) : Evaluated :=
  match container, item with
  | .list items, item => return .bool (items.any fun v => Arithmetic.looselyEqual v item)
  | .str s, .str part => return .bool (Text.contains s part)
  | .dict entries, .str key => return .bool (KeyMap.contains key entries)
  | container, _ => throw (.invalidOperand op container.kind)

/-- The value as a string: a string as it is, a number in the format `scriptNumber`, and all else as
JSON text. -/
def toText : Value → String
  | str s => s
  | int n => toString n.toInt
  | float x => scriptNumber.text x
  | v => v.jsonText

/-- The integer nearest to a double, a half rounded up. -/
def rounded (op : String) (x : Float) : Evaluated :=
  let r := (x + 0.5).floor
  -- The bound is `2 ^ 63`; the least integer itself is refused with it
  if r.isFinite && r.abs < 9223372036854775808.0 then
    return .int (Int64.ofInt (FloatParts.ofFloat r).truncate)
  else throw (.overflow op)

end Value

/-! ### Applying operators -/

/-- Applies a function to its argument. -/
def UnaryFunction.apply (f : UnaryFunction) (v : Value) : Evaluated :=
  let invalid : Evaluated := throw (.invalidOperand f.name v.kind)
  match f with
  | .abs => match v with
    | .int n => Arithmetic.exact f.name n.toInt.natAbs
    | .float x => return .float x.abs
    | _ => invalid
  | .round => match v with
    | .int n => return .int n
    | .float x => Value.rounded f.name x
    | _ => invalid
  | .upper => match v with
    | .str s => return .str (Text.upper s)
    | _ => invalid
  | .lower => match v with
    | .str s => return .str (Text.lower s)
    | _ => invalid
  | .trim => match v with
    | .str s => return .str (Text.trim s)
    | _ => invalid
  | .keys => match v with
    | .dict entries => return .list ((KeyMap.keys entries).map .str)
    | _ => invalid
  | .values => match v with
    | .dict entries => return .list (KeyMap.values entries)
    | _ => invalid

/-- Applies an operation to its operand. -/
def UnaryOp.apply (op : UnaryOp) (v : Value) : Evaluated :=
  match op with
  | .neg => match v with
    | .int n => Arithmetic.exact op.symbol (-n.toInt)
    | .float x => return .float (-x)
    | v => throw (.invalidOperand op.symbol v.kind)
  | .not => return .bool (!v.isTruthy)
  | .length => match v with
    | .str s => return .int (Int64.ofNat s.toList.length)
    | .list items => return .int (Int64.ofNat items.length)
    | .dict entries => return .int (Int64.ofNat entries.length)
    | v => throw (.invalidOperand op.symbol v.kind)
  | .stringify => return .str v.toText
  | .annotate _ => return v
  | .call f => f.apply v

/-- The strings of a list; the first item that is none is reported. -/
def itemTexts (op : String) : List Value → Except EvalError (List String)
  | [] => return []
  | .str s :: vs => do
    let ss ← itemTexts op vs
    return s :: ss
  | v :: _ => throw (.invalidOperand op v.kind)

/-- Applies a function to its arguments. -/
def BinaryFunction.apply (f : BinaryFunction) (a b : Value) : Evaluated :=
  match f with
  | .min => Arithmetic.numeric f.name Min.min Arithmetic.lesser a b
  | .max => Arithmetic.numeric f.name Max.max Arithmetic.greater a b
  | .join =>
    match a, b with
    | .list items, .str separator => do
      let ss ← itemTexts f.name items
      return .str (separator.intercalate ss)
    | a, .str _ => throw (.invalidOperand f.name a.kind)
    | _, b => throw (.invalidOperand f.name b.kind)
  | .split =>
    match a, b with
    | .str s, .str separator => return .list ((Text.split s separator).map .str)
    | .str _, b => throw (.invalidOperand f.name b.kind)
    | a, _ => throw (.invalidOperand f.name a.kind)

/-- Applies an operation to its operands. -/
def BinaryOp.apply (op : BinaryOp) (a b : Value) : Evaluated :=
  match op with
  | .add => match a, b with
    | .str s, .str t => return .str (s ++ t)
    | .list xs, .list ys => return .list (xs ++ ys)
    | a, b => Arithmetic.numeric op.symbol (· + ·) (· + ·) a b
  | .sub => Arithmetic.numeric op.symbol (· - ·) (· - ·) a b
  | .mul => match a, b with
    | .str s, .int n => Value.repeatText op.symbol s n
    | .int n, .str s => Value.repeatText op.symbol s n
    | .list xs, .int n => Value.repeatItems op.symbol xs n
    | .int n, .list xs => Value.repeatItems op.symbol xs n
    | a, b => Arithmetic.numeric op.symbol (· * ·) (· * ·) a b
  | .div => Arithmetic.divided op.symbol (· / ·) a b
  | .floorDiv => match a, b with
    | .int m, .int n => Arithmetic.floorQuotient op.symbol m n
    | a, b => Arithmetic.divided op.symbol (fun x y => (x / y).floor) a b
  | .mod => match a, b with
    | .int m, .int n => Arithmetic.remainder op.symbol m n
    | a, b => Arithmetic.divided op.symbol floatRemainder a b
  | .pow => match a, b with
    | .int m, .int n => Arithmetic.power op.symbol m n
    | a, b => do
      let (x, y) ← Arithmetic.floats op.symbol a b
      return .float (x ^ y)
  | .lt => do return .bool ((← Arithmetic.order op.symbol a b) == .lt)
  | .le => do return .bool ((← Arithmetic.order op.symbol a b) != .gt)
  | .gt => do return .bool ((← Arithmetic.order op.symbol a b) == .gt)
  | .ge => do return .bool ((← Arithmetic.order op.symbol a b) != .lt)
  | .eq => return .bool (Arithmetic.looselyEqual a b)
  | .ne => return .bool (!Arithmetic.looselyEqual a b)
  | .contains => Value.contained op.symbol a b
  | .index => Value.indexed op.symbol a b
  | .attr => Value.attributeOf op.symbol a b
  | .call f => f.apply a b

/-- Whether the left operand already is the result. -/
def LogicalOp.decides (op : LogicalOp) (left : Value) : Bool :=
  match op with
  | .and => !left.isTruthy
  | .or => left.isTruthy

/-! ### Evaluating expressions -/

namespace Expr

/-- The value of an expression whose fields are read by `read`. -/
def eval {m : Type → Type} [Monad m] [MonadExceptOf EvalError m] (read : FieldKey → m Value) :
    Expr → m Value
  | literal v => pure v
  | field k _ => read k
  | unary op e _ => do
    let v ← eval read e
    MonadExcept.ofExcept (op.apply v)
  | binary op l r _ => do
    let v ← eval read l
    let w ← eval read r
    MonadExcept.ofExcept (op.apply v w)
  | logical op l r _ => do
    let v ← eval read l
    -- The result is one of the operands, not a boolean made from them
    if op.decides v then pure v else eval read r
  | cond c y n _ => do
    let v ← eval read c
    if v.isTruthy then eval read y else eval read n
  | external name _ _ => throw (.renderOnlyFunction name)

/-- The value of an expression whose fields have fixed answers. -/
def evalWith (source : FieldKey → Evaluated) (e : Expr) : Evaluated :=
  e.eval source

/-- The value of an expression that reads no field. -/
def evalConstant (e : Expr) : Evaluated :=
  e.evalWith fun k => throw (.unknownField k)

end Expr

end ReactiveState
