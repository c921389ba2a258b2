import ReactiveState.Document

/-! # Decoding structures

A structure is decoded from a map, whose entries are found by the names of the fields, or from a
sequence that lists the fields in order.  In a map, unknown fields are ignored unless the structure
is strict, and a field that is given twice is an error; in a sequence, items beyond the last field
are an error.

The three encodings differ in small things, which `Dialect` decides: MessagePack may give a name by
its position, and an empty part is null except in TOML, which has none. -/

namespace ReactiveState

/-- The encodings a document may come from. -/
inductive Dialect where
  | json
  | messagePack
  | toml
deriving DecidableEq, Repr

namespace Dialect

/-- Finds a name among the names that are known.  The outer result is absent if the document is no
name at all, the inner one if the name is unknown. -/
def name? (dialect : Dialect) (names : List String) : Document → Option (Option Nat)
  | .str s => some (names.idxOf? s)
  | .bytes bs => some ((Document.bytes bs).text?.bind names.idxOf?)
  | .int n =>
    if dialect = .messagePack ∧ 0 ≤ n then
      some (if n < names.length then some n.toNat else none)
    else none
  | _ => none

/-- Whether the document stands for "no content". -/
def isUnit (dialect : Dialect) (d : Document) : Bool :=
  match dialect, d with
  | .toml, .map [] => true
  | .toml, .seq [] => true
  | .toml, _ => false
  | _, .null => true
  | _, _ => false

/-- A choice among names, given as a name or as a map from the name to no content. -/
def choice? (dialect : Dialect) (names : List String) : Document → Option Nat
  | .map [(k, content)] =>
    if dialect.isUnit content then (dialect.name? names k).bind id else none
  | d => (dialect.name? names d).bind id

end Dialect

/-- The parts of a structure, one for each field; a field that is not given has none. -/
structure Parts where
  /-- Whether the fields were given as a sequence. -/
  positional : Bool
  parts : List (Option Document)

namespace Parts

/-- Sorts the entries of a map to the fields. -/
def ofEntries? (dialect : Dialect) (names : List String) (strict : Bool) :
    List (Option Document) → List (Document × Document) → Option (List (Option Document))
  | parts, [] => some parts
  | parts, (k, d) :: es =>
    match dialect.name? names k with
    | none => none
    | some none => if strict then none else ofEntries? dialect names strict parts es
    | some (some i) =>
      if (parts[i]?.bind id).isSome then none
      else ofEntries? dialect names strict (parts.set i (some d)) es

/-- The parts of a structure with these fields. -/
def ofDocument? (dialect : Dialect) (names : List String) (strict : Bool) : Document → Option Parts
  | .map es => (ofEntries? dialect names strict (names.map fun _ => none) es).map (⟨false, ·⟩)
  | .seq ds =>
    if ds.length ≤ names.length then
      some ⟨true, ds.map some ++ List.replicate (names.length - ds.length) none⟩
    else none
  | _ => none

/-- The part of a field. -/
def part? (p : Parts) (i : Nat) : Option Document :=
  p.parts[i]?.bind id

/-- A field that has to be given. -/
def required? {α : Type} (p : Parts) (i : Nat) (decode : Document → Option α) : Option α :=
  (p.part? i).bind decode

/-- A field with a default. -/
def defaulted? {α : Type} (p : Parts) (i : Nat) (default : α) (decode : Document → Option α) :
    Option α :=
  match p.part? i with
  | none => some default
  | some d => decode d

/-- Decodes null to "none" and all else to "some". -/
def nullable? {α : Type} (decode : Document → Option α) : Document → Option (Option α)
  | .null => some none
  | d => (decode d).map some

/-- A field that may be null, and may be left out of a map. -/
def optional? {α : Type} (p : Parts) (i : Nat) (decode : Document → Option α) : Option (Option α) :=
  match p.part? i with
  | none => if p.positional then none else some none
  | some d => nullable? decode d

end Parts

namespace Document

/-- The boolean of a document. -/
def bool? : Document → Option Bool
  | bool b => some b
  | _ => none

/-- An unsigned integer of 64 bits. -/
def unsigned? : Document → Option Nat
  | int n => if 0 ≤ n ∧ n < UInt64.size then some n.toNat else none
  | _ => none

/-- The items of a sequence, each decoded. -/
def list? {α : Type} (decode : Document → Option α) : Document → Option (List α)
  | seq ds => ds.mapM decode
  | _ => none

/-- The entries of a map with text keys, each value decoded, in the order in which they are
written. -/
def entries? {α : Type} (decode : Document → Option α) : Document → Option (List (String × α))
  | map es => es.mapM fun (k, d) => do
    let k ← k.text?
    let a ← decode d
    return (k, a)
  | _ => none

/-- A map with the entries in key order and one entry a key. -/
def dict {α : Type} (encode : α → Document) (entries : List (String × α)) : Document :=
  struct (entries.map fun e => (e.1, encode e.2))

end Document

end ReactiveState
