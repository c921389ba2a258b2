import ReactiveState.Expr.Basic
import ReactiveState.Identifier
import ReactiveState.Program
import ReactiveState.Storage

/-! # Schemas

A `Schema` declares one type of container: its stored fields, computed fields, handlers and
children, each in the order of declaration.  The four share one namespace: every declaration
reserves its name, which has to be an identifier that is not taken yet.

There is no inheritance.  `extending` copies the declarations of a base schema, which reserves their
names like declaring them one by one. -/

namespace ReactiveState

/-- The declaration of a stored field. -/
structure FieldDecl where
  name : String
  type : ValueType
  default : Value
  /-- A backend field never leaves the server. -/
  backend : Bool := false
  storage : Option ClientStorage := none

/-- The declaration of a field that starts at the zero of its type. -/
def FieldDecl.ofType (name : String) (type : ValueType) : FieldDecl :=
  ⟨name, type, type.zero, false, none⟩

/-- The declaration of one type of container. -/
inductive Schema where
  | mk (name : String) (fields : List FieldDecl) (computed : List (String × Expr))
    (handlers : List (String × Handler)) (children : List (String × Schema))
    (inherited : List String)

namespace Schema

/-- The name of the container type. -/
def name : Schema → String
  | mk name _ _ _ _ _ => name

/-- The stored fields. -/
def fields : Schema → List FieldDecl
  | mk _ fields _ _ _ _ => fields

/-- The computed fields. -/
def computed : Schema → List (String × Expr)
  | mk _ _ computed _ _ _ => computed

/-- The handlers. -/
def handlers : Schema → List (String × Handler)
  | mk _ _ _ handlers _ _ => handlers

/-- The children. -/
def children : Schema → List (String × Schema)
  | mk _ _ _ _ children _ => children

/-- The names that were copied from a base schema. -/
def inherited : Schema → List String
  | mk _ _ _ _ _ inherited => inherited

/-- The declaration of a stored field. -/
def field? (s : Schema) (name : String) : Option FieldDecl :=
  s.fields.find? (·.name = name)

/-- The expression of a computed field. -/
def computed? (s : Schema) (name : String) : Option Expr :=
  KeyMap.find? name s.computed

/-- The handler of a name. -/
def handler? (s : Schema) (name : String) : Option Handler :=
  KeyMap.find? name s.handlers

/-- The child of a name. -/
def child? (s : Schema) (name : String) : Option Schema :=
  KeyMap.find? name s.children

/-- Whether the name is copied from a base schema. -/
def isInherited (s : Schema) (name : String) : Bool :=
  s.inherited.contains name

/-- Whether the name is that of a stored or computed field. -/
def hasField (s : Schema) (name : String) : Bool :=
  (s.field? name).isSome || (s.computed? name).isSome

/-- Whether the name is taken. -/
def declares (s : Schema) (name : String) : Bool :=
  s.hasField name || (s.handler? name).isSome || (s.child? name).isSome

/-! ### Building -/

/-- A schema that is built, or the first error on the way. -/
abbrev Building := Except StateError Schema

/-- A schema without declarations. -/
def start (name : String) : Building :=
  if isIdentifier name then return mk name [] [] [] [] [] else throw (.invalidName name)

/-- Checks that the name may be declared: it is an identifier and not taken yet. -/
def reserve (s : Schema) (name : String) : Except StateError Unit :=
  if !isIdentifier name then throw (.invalidName name)
  else if s.declares name then throw (.schemaConflict s.name name)
  else return ()

/-- The schema with one more stored field. -/
def addField : Schema → FieldDecl → Schema
  | mk n fs cs hs ks is, decl => mk n (fs ++ [decl]) cs hs ks is

/-- The schema with one more computed field. -/
def addComputed : Schema → String → Expr → Schema
  | mk n fs cs hs ks is, name, e => mk n fs (cs ++ [(name, e)]) hs ks is

/-- The schema with one more handler. -/
def addHandler : Schema → String → Handler → Schema
  | mk n fs cs hs ks is, name, h => mk n fs cs (hs ++ [(name, h)]) ks is

/-- The schema with one more child. -/
def addChild : Schema → String → Schema → Schema
  | mk n fs cs hs ks is, name, k => mk n fs cs hs (ks ++ [(name, k)]) is

/-- The schema with one more name marked as copied. -/
def addInherited : Schema → String → Schema
  | mk n fs cs hs ks is, name => mk n fs cs hs ks (is ++ [name])

/-- Declares a stored field.  The default is stored as the type coerces it. -/
def declare (s : Schema) (decl : FieldDecl) : Building := do
  s.reserve decl.name
  match decl.type.coerce decl.default with
  | some v => return s.addField { decl with default := v }
  | none => throw (.fieldTypeMismatch s.name decl.name decl.type decl.default.kind)

/-- Declares a computed field. -/
def declareComputed (s : Schema) (name : String) (e : Expr) : Building := do
  s.reserve name
  return s.addComputed name e

/-- Declares a handler. -/
def declareHandler (s : Schema) (name : String) (h : Handler) : Building := do
  s.reserve name
  return s.addHandler name h

/-- Declares a child. -/
def declareChild (s : Schema) (name : String) (child : Schema) : Building := do
  s.reserve name
  return s.addChild name child

/-- Copies the declarations of a base schema, in the order stored fields, computed fields, handlers
and children. -/
def extending (s base : Schema) : Building := do
  let s ← base.fields.foldlM (fun s decl => do
    s.reserve decl.name
    return (s.addField decl).addInherited decl.name) s
  let s ← base.computed.foldlM (fun s c => do
    s.reserve c.1
    return (s.addComputed c.1 c.2).addInherited c.1) s
  let s ← base.handlers.foldlM (fun s h => do
    s.reserve h.1
    return (s.addHandler h.1 h.2).addInherited h.1) s
  base.children.foldlM (fun s k => do
    s.reserve k.1
    return (s.addChild k.1 k.2).addInherited k.1) s

end Schema

end ReactiveState
