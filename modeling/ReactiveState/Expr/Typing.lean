import ReactiveState.Expr.Basic

/-! # Building expressions

An operation is built from its operands by one rule per operator, which gives the type of the result
or refuses the operand types.  The unknown type stands for any type, so a rule accepts it wherever
some type would do.

The rules are `UnaryOp.resultType`, `BinaryOp.resultType`, `LogicalOp.resultType` and `condType`;
`Expr.operation` and `Expr.call` check the number of operands and apply them. -/

namespace ReactiveState

/-- Why an expression cannot be built or compiled. -/
inductive CompositionError where
  /-- An operation does not support its operand types. -/
  | typeMismatch (op : String) (left : ValueType) (right : Option ValueType)
  /-- An attribute of a type that has none of this name. -/
  | noSuchAttribute (type : ValueType) (name : String)
  | unknownFunction (name : String)
  | arityMismatch (name : String) (expected found : Nat)
  /-- An annotation contradicts what is known of the type. -/
  | cannotAnnotate (source target : ValueType)
  /-- A type is needed where none is known. -/
  | unresolvedType (expression : String) (type : ValueType)
  /-- A relative reference is left where only absolute ones make sense. -/
  | relativeReference (field : String)
deriving DecidableEq

namespace CompositionError

/-- The text of the error. -/
def message : CompositionError → String
  | typeMismatch op left none =>
    "type mismatch: cannot apply `" ++ op ++ "` to `" ++ left.text ++ "`"
  | typeMismatch op left (some right) =>
    "type mismatch: cannot apply `" ++ op ++ "` to `" ++ left.text ++ "` and `" ++ right.text ++ "`"
  | noSuchAttribute type name =>
    "type `" ++ type.text ++ "` has no attribute `" ++ name ++ "`"
  | unknownFunction name => "unknown function `" ++ name ++ "`"
  | arityMismatch name expected found =>
    "function `" ++ name ++ "` expects " ++ toString expected ++ " argument(s), got "
      ++ toString found
  | cannotAnnotate source target =>
    "cannot annotate a var of type `" ++ source.text ++ "` as `" ++ target.text ++ "`"
  | unresolvedType expression type =>
    "var `" ++ expression ++ "` has unresolved type `" ++ type.text
      ++ "`; annotate it with a concrete type"
  | relativeReference field =>
    "var references `" ++ field ++ "` relative to its container; rebase it before compiling"

end CompositionError

/-- A type, or the reason why there is none. -/
abbrev Typed := Except CompositionError ValueType

namespace ValueType

/-- The type of the items of a joined sequence. -/
def unifyItems? (a b : ValueType) : Option ValueType :=
  if a = b then some a
  else match a, b with
    | unknown, other => some other
    | other, unknown => some other
    | _, _ => none

/-- The type of the values that are not null. -/
def withoutNull : ValueType → ValueType
  | optional t => withoutNull t
  | t => t

/-- Whether values of the types may be tested for equality.  Optionals compare as what they hold,
null and the unknown type compare with everything, and so do numbers with each other. -/
def comparable : ValueType → ValueType → Bool
  | unknown, _ => true
  | null, _ => true
  | optional a, b => comparable a b
  | a, b =>
    match a, b.withoutNull with
    | _, unknown => true
    | _, null => true
    | sequence a, sequence b => comparable a b
    | mapping a, mapping b => comparable a b
    | a, b => a == b || (a.isNumeric && b.isNumeric)

/-- The type of an attribute.  Through an optional the result is optional too. -/
def attributeType (container : ValueType) (name : String) : Typed :=
  match container with
  | optional inner => do
    let t ← attributeType inner name
    return t.orNull
  | unknown => return unknown
  | mapping value => return value
  | object attributes =>
    match KeyMap.find? name attributes with
    | some t => return t
    | none => throw (.noSuchAttribute container name)
  | other => throw (.noSuchAttribute other name)

/-- The type of an indexed value.  `key` is the text of the index where that is a literal string. -/
def indexed (container index : ValueType) (key : Option String) : Typed :=
  match container, index with
  | optional inner, _ => do
    let t ← indexed inner index key
    return t.orNull
  | unknown, int => return unknown
  | unknown, str => return unknown
  | unknown, unknown => return unknown
  | sequence item, int => return item
  | sequence item, unknown => return item
  | str, int => return str
  | str, unknown => return str
  | mapping value, str => return value
  | mapping value, unknown => return value
  | object attributes, str =>
    match key with
    | some name => (object attributes).attributeType name
    | none => return unknown
  | object _, unknown => return unknown
  | container, index => throw (.typeMismatch BinaryOp.index.symbol container (some index))

/-- The type of an arithmetic result; two integers give an integer, except in a division. -/
def arithmetic (op : BinaryOp) (a b : ValueType) : Typed :=
  match a, b with
  | unknown, _ => return unknown
  | _, unknown => return unknown
  | int, int => return if op = .div then float else int
  | a, b =>
    if a.isNumeric && b.isNumeric then return float else throw (.typeMismatch op.symbol a (some b))

/-- Whether a string may be of the type. -/
def mayBeString : ValueType → Bool
  | str => true
  | unknown => true
  | _ => false

/-- The value if the condition holds, else a mismatch of the operand types. -/
def given (condition : Bool) (result : ValueType) (op : BinaryOp) (a b : ValueType) : Typed :=
  if condition then return result else throw (.typeMismatch op.symbol a (some b))

end ValueType

/-- The type of a function's result. -/
def UnaryFunction.resultType (f : UnaryFunction) (t : ValueType) : Typed :=
  let mismatch : Typed := throw (.typeMismatch f.name t none)
  match f with
  | .abs => match t with
    | .int => return .int
    | .float => return .float
    | .unknown => return .unknown
    | _ => mismatch
  | .round => match t with
    | .int => return .int
    | .float => return .int
    | .unknown => return .int
    | _ => mismatch
  | .upper => if t.mayBeString then return .str else mismatch
  | .lower => if t.mayBeString then return .str else mismatch
  | .trim => if t.mayBeString then return .str else mismatch
  | .keys => match t with
    | .mapping _ => return .sequence .str
    | .object _ => return .sequence .str
    | .unknown => return .sequence .str
    | _ => mismatch
  | .values => match t with
    | .mapping value => return .sequence value
    | .object _ => return .sequence .unknown
    | .unknown => return .sequence .unknown
    | _ => mismatch

/-- The type of an operation on one operand. -/
def UnaryOp.resultType (op : UnaryOp) (t : ValueType) : Typed :=
  let mismatch : Typed := throw (.typeMismatch op.symbol t none)
  match op with
  | .neg => match t with
    | .int => return .int
    | .float => return .float
    | .unknown => return .unknown
    | _ => mismatch
  | .not => return .bool
  | .length => match t with
    | .str => return .int
    | .sequence _ => return .int
    | .mapping _ => return .int
    | .object _ => return .int
    | .unknown => return .int
    | _ => mismatch
  | .stringify => return .str
  | .annotate target => if target.refines t then return target else throw (.cannotAnnotate t target)
  | .call f => f.resultType t

/-- Whether values of the types may be put in order. -/
def ValueType.ordered (a b : ValueType) : Bool :=
  (a.isNumeric && b.isNumeric) || (a == .str && b == .str) || a.isUnknown || b.isUnknown

/-- Whether a value of the second type may be looked for in one of the first. -/
def ValueType.searchable (container item : ValueType) : Bool :=
  match container with
  | .unknown => true
  | .sequence inner => inner.comparable item
  | .str => item.mayBeString
  | .mapping _ => item.mayBeString
  | .object _ => item.mayBeString
  | _ => false

/-- The type of a function's result. -/
def BinaryFunction.resultType (f : BinaryFunction) (a b : ValueType) : Typed :=
  match f with
  | .min => ValueType.arithmetic (.call .min) a b
  | .max => ValueType.arithmetic (.call .max) a b
  | .join =>
    let joinable := match a with
      | .sequence item => item.mayBeString
      | .unknown => true
      | _ => false
    ValueType.given (joinable && b.mayBeString) .str (.call .join) a b
  | .split => ValueType.given (a.mayBeString && b.mayBeString) (.sequence .str) (.call .split) a b

/-- The type of an operation on two operands.  `key` is the text of the right operand where that is
a literal string. -/
def BinaryOp.resultType (op : BinaryOp) (a b : ValueType) (key : Option String) : Typed :=
  match op with
  | .add => match a, b with
    | .str, .str => return .str
    | .sequence x, .sequence y =>
      match x.unifyItems? y with
      | some t => return .sequence t
      | none => throw (.typeMismatch op.symbol a (some b))
    | _, _ => ValueType.arithmetic op a b
  | .mul => match a, b with
    | .str, .int => return .str
    | .int, .str => return .str
    | .sequence item, .int => return .sequence item
    | .int, .sequence item => return .sequence item
    | _, _ => ValueType.arithmetic op a b
  | .sub => ValueType.arithmetic op a b
  | .div => ValueType.arithmetic op a b
  | .floorDiv => ValueType.arithmetic op a b
  | .mod => ValueType.arithmetic op a b
  | .pow => ValueType.arithmetic op a b
  | .lt => ValueType.given (a.ordered b) .bool op a b
  | .le => ValueType.given (a.ordered b) .bool op a b
  | .gt => ValueType.given (a.ordered b) .bool op a b
  | .ge => ValueType.given (a.ordered b) .bool op a b
  | .eq => ValueType.given (a.comparable b) .bool op a b
  | .ne => ValueType.given (a.comparable b) .bool op a b
  | .contains => ValueType.given (a.searchable b) .bool op a b
  | .index => a.indexed b key
  | .attr =>
    match key with
    | some name => a.attributeType name
    | none => throw (.typeMismatch op.symbol a (some b))
  | .call f => f.resultType a b

/-- The type of a logical operation, whose result is one of the operands. -/
def LogicalOp.resultType (op : LogicalOp) (a b : ValueType) : Typed :=
  if a = b then return a
  else if op = .or ∧ a = .optional b then return b
  else if a = .unknown ∨ b = .unknown then return .unknown
  else throw (.typeMismatch op.symbol a (some b))

/-- The type of a conditional from the types of its branches. -/
def condType (a b : ValueType) : Typed :=
  if a = b then return a
  else if a = .unknown ∨ b = .unknown then return .unknown
  else if a = .null then return b.orNull
  else if b = .null then return a.orNull
  else if a = .optional b then return b.orNull
  else if b = .optional a then return a.orNull
  else throw (.typeMismatch Operator.cond.symbol a (some b))

namespace Expr

/-- Applies an operator to operands.  The number of operands is checked first. -/
def operation (op : Operator) (operands : List Expr) : Except CompositionError Expr :=
  match op, operands with
  | .unary op, [e] => do
    let t ← op.resultType e.type
    return unary op e t
  | .binary op, [l, r] => do
    let t ← op.resultType l.type r.type r.literalText?
    return binary op l r t
  | .logical op, [l, r] => do
    let t ← op.resultType l.type r.type
    return logical op l r t
  | .cond, [c, y, n] => do
    let t ← condType y.type n.type
    return cond c y n t
  | op, operands => throw (.arityMismatch op.symbol op.arity operands.length)

/-- Calls a function by its name. -/
def call (name : String) (args : List Expr) : Except CompositionError Expr :=
  match Function.ofName? name with
  | none => throw (.unknownFunction name)
  | some (.unary f) =>
    match args with
    | [e] => do
      let t ← f.resultType e.type
      return unary (.call f) e t
    | args => throw (.arityMismatch f.name 1 args.length)
  | some (.binary f) =>
    match args with
    | [l, r] => do
      let t ← f.resultType l.type r.type
      return binary (.call f) l r t
    | args => throw (.arityMismatch f.name 2 args.length)

end Expr

end ReactiveState
