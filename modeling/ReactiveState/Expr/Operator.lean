import ReactiveState.ValueType

/-! # Operators and functions

The operations an expression is built from, grouped by how many operands they take and by whether
they evaluate all of them: `UnaryOp` and `BinaryOp` are strict, `LogicalOp` looks at its right
operand only when the left one does not decide, and the conditional takes one branch.

An operator is found by its symbol and a function by its name; both stand in messages. -/

namespace ReactiveState

/-- The functions of one argument. -/
inductive UnaryFunction where
  | abs | round | upper | lower | trim | keys | values
deriving DecidableEq, Repr

/-- The functions of two arguments. -/
inductive BinaryFunction where
  | min | max | join | split
deriving DecidableEq, Repr

/-- The strict operations on one operand. -/
inductive UnaryOp where
  | neg
  | not
  | length
  | stringify
  /-- Gives the operand a more specific type. -/
  | annotate (type : ValueType)
  | call (f : UnaryFunction)
deriving DecidableEq

/-- The strict operations on two operands. -/
inductive BinaryOp where
  | add | sub | mul | div | floorDiv | mod | pow
  | lt | le | gt | ge
  | eq | ne
  | contains
  /-- The item at an index, or the value at a key. -/
  | index
  /-- The value at a name that the expression fixes. -/
  | attr
  | call (f : BinaryFunction)
deriving DecidableEq, Repr

/-- The operations that may leave their right operand alone. -/
inductive LogicalOp where
  | and | or
deriving DecidableEq, Repr

/-- The name of the function. -/
def UnaryFunction.name : UnaryFunction → String
  | abs => "abs"
  | round => "round"
  | upper => "upper"
  | lower => "lower"
  | trim => "trim"
  | keys => "keys"
  | values => "values"

/-- The name of the function. -/
def BinaryFunction.name : BinaryFunction → String
  | min => "min"
  | max => "max"
  | join => "join"
  | split => "split"

/-- The symbol of the operator, or the name of the function. -/
def UnaryOp.symbol : UnaryOp → String
  | neg => "neg"
  | not => "not"
  | length => "length"
  | stringify => "str"
  | annotate _ => "annotate"
  | call f => f.name

/-- The symbol of the operator, or the name of the function. -/
def BinaryOp.symbol : BinaryOp → String
  | add => "+"
  | sub => "-"
  | mul => "*"
  | div => "/"
  | floorDiv => "//"
  | mod => "%"
  | pow => "**"
  | lt => "<"
  | le => "<="
  | gt => ">"
  | ge => ">="
  | eq => "=="
  | ne => "!="
  | contains => "contains"
  | index => "[]"
  | attr => "."
  | call f => f.name

/-- The symbol of the operator. -/
def LogicalOp.symbol : LogicalOp → String
  | and => "and"
  | or => "or"

/-- An operator, of any number of operands. -/
inductive Operator where
  | unary (op : UnaryOp)
  | binary (op : BinaryOp)
  | logical (op : LogicalOp)
  | cond
deriving DecidableEq

namespace Operator

/-- How many operands the operator takes. -/
def arity : Operator → Nat
  | unary _ => 1
  | binary _ => 2
  | logical _ => 2
  | cond => 3

/-- The symbol of the operator. -/
def symbol : Operator → String
  | unary op => op.symbol
  | binary op => op.symbol
  | logical op => op.symbol
  | cond => "cond"

/-- The operators that a symbol alone determines: all but the annotation, which carries a type. -/
def plain : List Operator :=
  [binary .add, binary .sub, binary .mul, binary .div, binary .floorDiv, binary .mod, binary .pow,
    unary .neg, binary .lt, binary .le, binary .gt, binary .ge, binary .eq, binary .ne,
    logical .and, logical .or, unary .not, binary .contains, binary .index, binary .attr,
    unary .length, unary .stringify, cond]

/-- The operator of a symbol; the type is that of an annotation. -/
def ofSymbol? (symbol : String) (type : ValueType) : Option Operator :=
  (plain ++ [unary (.annotate type)]).find? (·.symbol = symbol)

end Operator

/-- A function that both the evaluator and the renderer know. -/
inductive Function where
  | unary (f : UnaryFunction)
  | binary (f : BinaryFunction)
deriving DecidableEq, Repr

namespace Function

/-- How many arguments the function takes. -/
def arity : Function → Nat
  | unary _ => 1
  | binary _ => 2

/-- The name of the function. -/
def name : Function → String
  | unary f => f.name
  | binary f => f.name

/-- Every function. -/
def all : List Function :=
  [unary .abs, unary .round, binary .min, binary .max, unary .upper, unary .lower, unary .trim,
    binary .join, binary .split, unary .keys, unary .values]

/-- The function of a name. -/
def ofName? (name : String) : Option Function :=
  all.find? (·.name = name)

end Function

end ReactiveState
