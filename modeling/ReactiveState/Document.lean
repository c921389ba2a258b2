/-! # Documents

A `Document` is what the text and byte formats of the library write and read: a tree of scalars,
sequences and maps.  A map keeps its entries in the order in which they are written, duplicates
included, so that a decoder can tell what it was given.

`unreadable` is a part that a reader can pass over but that has no value, such as an extension of a
byte format or a number beyond the range of a double.  A decoder refuses it, but ignores it where it
ignores a field. -/

namespace ReactiveState

/-- A tree of scalars, sequences and maps. -/
inductive Document where
  | null
  | bool (b : Bool)
  | int (n : Int)
  | float (x : Float)
  | str (s : String)
  /-- Bytes that are not marked as text. -/
  | bytes (bs : List UInt8)
  | seq (items : List Document)
  | map (entries : List (Document × Document))
  /-- A part without a value. -/
  | unreadable
deriving Inhabited

namespace Document

/-- A map whose keys are strings. -/
def struct (fields : List (String × Document)) : Document :=
  map (fields.map fun p => (str p.1, p.2))

/-- A sequence of strings. -/
def strings (ss : List String) : Document :=
  seq (ss.map str)

/-- The document, or null when there is none. -/
def optional (d : Option Document) : Document :=
  d.getD null

/-- The text of a string, or of bytes that are UTF-8. -/
def text? : Document → Option String
  | str s => some s
  | bytes bs => String.fromUTF8? ⟨bs.toArray⟩
  | _ => none

end Document

end ReactiveState
