import ReactiveState.Delta
import ReactiveState.FieldKey
import ReactiveState.Value.Written
import ReactiveState.ValueType
import ReactiveState.Wire.Struct

/-! # The written form of types, keys and deltas

A type is written as its kind and, where it has one, its content: `{"kind":"int"}`,
`{"kind":"sequence","of":{"kind":"int"}}`.  A key is a structure of path and field, a delta a map of
maps. -/

namespace ReactiveState

namespace ValueType

mutual

/-- The document of a type. -/
def toDocument : ValueType → Document
  | null => .struct [("kind", .str "null")]
  | bool => .struct [("kind", .str "bool")]
  | int => .struct [("kind", .str "int")]
  | float => .struct [("kind", .str "float")]
  | str => .struct [("kind", .str "str")]
  | sequence t => .struct [("kind", .str "sequence"), ("of", toDocument t)]
  | mapping t => .struct [("kind", .str "mapping"), ("of", toDocument t)]
  | optional t => .struct [("kind", .str "optional"), ("of", toDocument t)]
  | object attributes =>
    .struct [("kind", .str "object"), ("of", .struct (attributeDocuments attributes))]
  | unknown => .struct [("kind", .str "unknown")]

/-- The documents of the attributes. -/
def attributeDocuments : List (String × ValueType) → List (String × Document)
  | [] => []
  | (k, t) :: attributes => (k, toDocument t) :: attributeDocuments attributes

end

/-- The kinds, in the order of their positions. -/
def kindNames : List String :=
  ["null", "bool", "int", "float", "str", "sequence", "mapping", "optional", "object", "unknown"]

/-- The type of a kind and its content. -/
def ofKind? (kind : String) (content : Option Document) (inner : Document → Option ValueType) :
    Option ValueType :=
  let unit (t : ValueType) : Option ValueType :=
    match content with
    | none => some t
    | some .null => some t
    | some _ => none
  match kind with
  | "null" => unit null
  | "bool" => unit bool
  | "int" => unit int
  | "float" => unit float
  | "str" => unit str
  | "sequence" => (content.bind inner).map sequence
  | "mapping" => (content.bind inner).map mapping
  | "optional" => (content.bind inner).map optional
  | "object" =>
    (content.bind fun d => d.entries? inner).map fun es => object (KeyMap.ofList es)
  | "unknown" => unit unknown
  | _ => none

/-- The type of a document that nests at most `depth` types. -/
def ofDocumentWithin? (dialect : Dialect) : Nat → Document → Option ValueType
  | 0, _ => none
  | depth + 1, d => do
    let p ← Parts.ofDocument? dialect ["kind", "of"] false d
    let kind ← dialect.choice? kindNames (← p.part? 0)
    let name ← kindNames[kind]?
    if p.positional ∧ (p.part? 1).isNone then none
    else ofKind? name (p.part? 1) (ofDocumentWithin? dialect depth)

end ValueType

mutual

/-- How many maps and sequences are nested in a document. -/
def Document.nesting : Document → Nat
  | .seq ds => Document.itemNesting ds + 1
  | .map es => Document.entryNesting es + 1
  | _ => 0

/-- The deepest nesting among items. -/
def Document.itemNesting : List Document → Nat
  | [] => 0
  | d :: ds => max (Document.nesting d) (Document.itemNesting ds)

/-- The deepest nesting among the values of entries. -/
def Document.entryNesting : List (Document × Document) → Nat
  | [] => 0
  | (_, d) :: es => max (Document.nesting d) (Document.entryNesting es)

end

/-- The type of a document. -/
def ValueType.ofDocument? (dialect : Dialect) (d : Document) : Option ValueType :=
  ofDocumentWithin? dialect (d.nesting + 1) d

namespace FieldKey

/-- The document of a key. -/
def toDocument (k : FieldKey) : Document :=
  .struct [("path", .str k.path), ("field", .str k.field)]

/-- The key of a document. -/
def ofDocument? (dialect : Dialect) (d : Document) : Option FieldKey := do
  let p ← Parts.ofDocument? dialect ["path", "field"] false d
  let path ← p.required? 0 Document.text?
  let field ← p.required? 1 Document.text?
  return ⟨path, field⟩

end FieldKey

namespace Delta

/-- The document of a delta. -/
def toDocument (d : Delta) : Document :=
  .dict (fun fields => (Value.dict fields).toDocument) d.containers

/-- The delta of a document. -/
def ofDocument? (d : Document) : Option Delta := do
  let containers ← d.entries? fun fields => fields.entries? Value.ofDocument?
  return ofList containers

/-- The compact JSON text. -/
def jsonText (d : Delta) : String :=
  d.toDocument.jsonText

end Delta

end ReactiveState
