import ReactiveState.Expr.Typing
import ReactiveState.Identifier
import ReactiveState.Value.Written

/-! # Rendering

The expression as JavaScript source for the client.  Every operation has one lowering rule; binary
operators are always put in parentheses, so precedence never matters.  A field is read from the
client's store, as `state["path"].field`.

`Expr.compile` is the last step before the source is used: it refuses relative references and an
unknown type. -/

namespace ReactiveState

namespace ValueType

/-- How a member of a receiver of this type is reached: what may be null is asked first. -/
def chain : ValueType → String
  | optional _ => "?."
  | unknown => "?."
  | null => "?."
  | _ => "."

/-- Whether values of the type are dicts, null aside. -/
def isKeyed : ValueType → Bool
  | mapping _ => true
  | object _ => true
  | optional t => isKeyed t
  | _ => false

end ValueType

namespace Render

/-- A reference to a field. -/
def field (k : FieldKey) : String :=
  if k.isRelative then "self." ++ k.field
  else "state[" ++ Quoted.text k.path ++ "]." ++ k.field

/-- A binary operator between two operands. -/
def infixed (left symbol right : String) : String :=
  "(" ++ left ++ " " ++ symbol ++ " " ++ right ++ ")"

/-- A list repeated. -/
def repeated (list count : String) : String :=
  "Array.from(\x7b length: " ++ count ++ " \x7d, () => " ++ list ++ ").flat()"

/-- A call of a function on its argument. -/
def unaryFunction (f : UnaryFunction) (a : String) : String :=
  match f with
  | .abs => "Math.abs(" ++ a ++ ")"
  | .round => "Math.round(" ++ a ++ ")"
  | .upper => a ++ ".toUpperCase()"
  | .lower => a ++ ".toLowerCase()"
  | .trim => a ++ ".trim()"
  | .keys => "Object.keys(" ++ a ++ ")"
  | .values => "Object.values(" ++ a ++ ")"

/-- A call of a function on its arguments. -/
def binaryFunction (f : BinaryFunction) (a b : String) : String :=
  match f with
  | .min => "Math.min(" ++ a ++ ", " ++ b ++ ")"
  | .max => "Math.max(" ++ a ++ ", " ++ b ++ ")"
  | .join => a ++ ".join(" ++ b ++ ")"
  | .split => a ++ ".split(" ++ b ++ ")"

/-- An operation on an operand of type `t` with source `a`. -/
def unary (op : UnaryOp) (t : ValueType) (a : String) : String :=
  match op with
  | .neg => "(-" ++ a ++ ")"
  | .not => "(!" ++ a ++ ")"
  | .length =>
    if t.isKeyed then "Object.keys(" ++ a ++ ").length" else a ++ t.chain ++ "length"
  | .stringify => "String(" ++ a ++ ")"
  | .annotate _ => a
  | .call f => unaryFunction f a

/-- An indexed value. -/
def indexed (t : ValueType) (a b : String) : String :=
  if t.isKeyed then
    if t.chain = "?." then a ++ "?.[" ++ b ++ "]" else a ++ "[" ++ b ++ "]"
  else a ++ t.chain ++ "at(" ++ b ++ ")"

/-- The value at a fixed name; a name that is no identifier is quoted. -/
def attributeSource (t : ValueType) (a name : String) : String :=
  if isIdentifier name then a ++ t.chain ++ name else a ++ "?.[" ++ Quoted.text name ++ "]"

/-- An operation on operands of types `s` and `t` with sources `a` and `b`.  `name` is the text of
the right operand where that is a literal. -/
def binary (op : BinaryOp) (s t : ValueType) (a b : String) (name : Option String) : String :=
  match op with
  | .add => match s, t with
    | .sequence _, .sequence _ => "[..." ++ a ++ ", ..." ++ b ++ "]"
    | _, _ => infixed a "+" b
  | .mul => match s, t with
    | .str, .int => a ++ ".repeat(" ++ b ++ ")"
    | .int, .str => b ++ ".repeat(" ++ a ++ ")"
    | .sequence _, .int => repeated a b
    | .int, .sequence _ => repeated b a
    | _, _ => infixed a "*" b
  | .sub => infixed a "-" b
  | .div => infixed a "/" b
  | .floorDiv => "Math.floor(" ++ a ++ " / " ++ b ++ ")"
  | .mod => infixed a "%" b
  | .pow => infixed a "**" b
  | .lt => infixed a "<" b
  | .le => infixed a "<=" b
  | .gt => infixed a ">" b
  | .ge => infixed a ">=" b
  | .eq => infixed a "===" b
  | .ne => infixed a "!==" b
  | .contains =>
    if s.isKeyed then "Object.hasOwn(" ++ a ++ ", " ++ b ++ ")"
    else a ++ s.chain ++ "includes(" ++ b ++ ")"
  | .index => indexed s a b
  | .attr => attributeSource s a (name.getD b)
  | .call f => binaryFunction f a b

/-- A logical operator between two operands. -/
def logical (op : LogicalOp) (a b : String) : String :=
  match op with
  | .and => infixed a "&&" b
  | .or => infixed a "||" b

end Render

/-- An expression that is ready for the client. -/
structure CompiledExpr where
  source : String
  type : ValueType

namespace Expr

mutual

/-- The source text of the expression. -/
def render : Expr → String
  | literal v => v.jsonText
  | field k _ => Render.field k
  | unary op e _ => Render.unary op e.type (render e)
  | binary op l r _ => Render.binary op l.type r.type (render l) (render r) r.literalText?
  | logical op l r _ => Render.logical op (render l) (render r)
  | cond c y n _ => "(" ++ render c ++ " ? " ++ render y ++ " : " ++ render n ++ ")"
  | external name args _ => name ++ "(" ++ ", ".intercalate (renderArgs args) ++ ")"

/-- The source texts of the arguments. -/
def renderArgs : List Expr → List String
  | [] => []
  | e :: es => render e :: renderArgs es

end

/-- The source and type for the client, if no relative reference is left and the type is known. -/
def compile (e : Expr) : Except CompositionError CompiledExpr :=
  match e.dependencies.find? (·.isRelative) with
  | some k => throw (.relativeReference k.field)
  | none =>
    if e.type.isUnknown then throw (.unresolvedType e.render e.type)
    else return ⟨e.render, e.type⟩

end Expr

end ReactiveState
