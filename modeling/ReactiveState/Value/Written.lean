import ReactiveState.Value
import ReactiveState.Document.Json
import ReactiveState.Document.MessagePack
import ReactiveState.Number.Int64

/-! # The written form of values

A value is written as the document of the same shape.  Reading goes the other way and is more
lenient: an integer beyond 64 bits signed becomes a float, bytes that are UTF-8 become a string, and
of two entries with one key the later wins. -/

namespace ReactiveState

namespace Value

mutual

/-- The document of a value. -/
def toDocument : Value → Document
  | null => .null
  | bool b => .bool b
  | int n => .int n.toInt
  | float x => .float x
  | str s => .str s
  | list items => .seq (itemDocuments items)
  | dict entries => .map (entryDocuments entries)

/-- The documents of the items. -/
def itemDocuments : List Value → List Document
  | [] => []
  | v :: vs => toDocument v :: itemDocuments vs

/-- The documents of the entries. -/
def entryDocuments : List (String × Value) → List (Document × Document)
  | [] => []
  | (k, v) :: vs => (.str k, toDocument v) :: entryDocuments vs

end

mutual

/-- The value of a document, if every part of it has one and every key is text. -/
def ofDocument? : Document → Option Value
  | .null => some null
  | .bool b => some (bool b)
  | .int n =>
    match int64? n with
    | some k => some (int k)
    | none => some (float (Float.ofInt n))
  | .float x => some (float x)
  | .str s => some (str s)
  | .bytes bs => (Document.bytes bs).text?.map str
  | .seq items => (ofItems? items).map list
  | .map entries => (ofEntries? entries).map fun es => dict (KeyMap.ofList es)
  | .unreadable => none

/-- The values of the items. -/
def ofItems? : List Document → Option (List Value)
  | [] => some []
  | d :: ds => do
    let v ← ofDocument? d
    let vs ← ofItems? ds
    return v :: vs

/-- The entries, in the order in which they are written. -/
def ofEntries? : List (Document × Document) → Option (List (String × Value))
  | [] => some []
  | (k, d) :: es => do
    let k ← k.text?
    let v ← ofDocument? d
    let vs ← ofEntries? es
    return (k, v) :: vs

end

/-- The compact JSON text. -/
def jsonText (v : Value) : String :=
  v.toDocument.jsonText

end Value

end ReactiveState
