import ReactiveState.Document
import ReactiveState.Number.Format
import ReactiveState.Number.Int64
import ReactiveState.Number.Reading
import ReactiveState.Text.Quoted

/-! # JSON text

The compact written form of a document, and a strict reader of JSON.

The reader takes a bound on nesting.  What is grammatical but has no value (a number beyond the
range of a double, a string with half a surrogate pair, a container nested too deep) is read as
`unreadable`. -/

namespace ReactiveState

namespace Document

/-! ### Writing -/

mutual

/-- The compact JSON text.  Numbers have the format `jsonNumber`; what has no JSON form is
`null`. -/
def json : Document → List Char
  | null => "null".toList
  | bool true => "true".toList
  | bool false => "false".toList
  | int n => (toString n).toList
  | float x => (jsonNumber.text x).toList
  | str s => Quoted.encode s
  | bytes bs => '[' :: jsonBytes bs
  | seq items => '[' :: jsonItems items
  | map entries => '{' :: jsonEntries entries
  | unreadable => "null".toList

/-- The items and the closing bracket. -/
def jsonItems : List Document → List Char
  | [] => [']']
  | [d] => json d ++ [']']
  | d :: d' :: ds => json d ++ ',' :: jsonItems (d' :: ds)

/-- The entries and the closing brace. -/
def jsonEntries : List (Document × Document) → List Char
  | [] => ['}']
  | [(k, d)] => json k ++ ':' :: (json d ++ ['}'])
  | (k, d) :: e :: es => json k ++ ':' :: (json d ++ ',' :: jsonEntries (e :: es))

/-- The bytes as numbers, and the closing bracket. -/
def jsonBytes : List UInt8 → List Char
  | [] => [']']
  | [b] => (toString b.toNat).toList ++ [']']
  | b :: b' :: bs => (toString b.toNat).toList ++ ',' :: jsonBytes (b' :: bs)

end

/-- The compact JSON text as a string. -/
def jsonText (d : Document) : String :=
  String.ofList d.json

end Document

/-! ### Reading -/

namespace JsonReader

/-- The blanks of JSON: space, tab, line feed and carriage return. -/
def isBlank (c : Char) : Bool :=
  c = ' ' || c = '\t' || c = '\n' || c = '\r'

/-- Drops leading blanks. -/
def skipBlanks (cs : List Char) : List Char :=
  cs.dropWhile isBlank

/-- A sign and digits after the letter of an exponent: the exponent and the rest. -/
def exponent? (cs : List Char) : Option (Int × List Char) :=
  let (negative, cs) := match cs with
    | '-' :: cs => (true, cs)
    | '+' :: cs => (false, cs)
    | cs => (false, cs)
  let digits := cs.takeWhile Char.isDigit
  if digits.isEmpty then none
  else
    -- Beyond this width only the sign of the exponent matters
    let n := if (digits.dropWhile (· = '0')).length ≤ 9 then digitsValue digits else 1000000000
    some (if negative then -n else n, cs.dropWhile Char.isDigit)

/-- A number, its sign taken off: an integer of at most 64 bits, or else the nearest double. -/
def number? (negative : Bool) (cs : List Char) : Option (Document × List Char) := do
  let whole := cs.takeWhile Char.isDigit
  let cs := cs.dropWhile Char.isDigit
  if whole.isEmpty ∨ (whole.head? = some '0' ∧ 1 < whole.length) then none
  else
    let (fraction?, cs) ← match cs with
      | '.' :: cs =>
        let fraction := cs.takeWhile Char.isDigit
        if fraction.isEmpty then none else some (some fraction, cs.dropWhile Char.isDigit)
      | cs => some (none, cs)
    let (exponent?, cs) ← match cs with
      | 'e' :: cs => (exponent? cs).map fun (e, cs) => (some e, cs)
      | 'E' :: cs => (exponent? cs).map fun (e, cs) => (some e, cs)
      | cs => some (none, cs)
    let fraction := fraction?.getD []
    let coefficient := digitsValue (whole ++ fraction)
    let float (e : Int) : Document :=
      let x := signedFloat negative coefficient (e - fraction.length)
      if x.isInf then .unreadable else .float x
    if fraction?.isNone ∧ exponent?.isNone then
      if negative then
        if 0 < coefficient ∧ (int64? (-coefficient)).isSome then some (.int (-coefficient), cs)
        else some (float 0, cs)
      else if coefficient < UInt64.size then some (.int coefficient, cs)
      else some (float 0, cs)
    else some (float (exponent?.getD 0), cs)

mutual

/-- One value, with leading blanks.  `depth` is how many containers may still be opened. -/
def value? : Nat → Nat → List Char → Option (Document × List Char)
  | 0, _, _ => none
  | fuel + 1, depth, cs =>
    match skipBlanks cs with
    | 'n' :: 'u' :: 'l' :: 'l' :: cs => some (.null, cs)
    | 't' :: 'r' :: 'u' :: 'e' :: cs => some (.bool true, cs)
    | 'f' :: 'a' :: 'l' :: 's' :: 'e' :: cs => some (.bool false, cs)
    | '"' :: cs => (Quoted.read cs).map fun (s, cs) => ((s.map .str).getD .unreadable, cs)
    | '[' :: cs =>
      match skipBlanks cs with
      | ']' :: cs => some (if depth = 0 then .unreadable else .seq [], cs)
      | cs => (items? fuel (depth - 1) cs).map fun (ds, cs) =>
        (if depth = 0 then .unreadable else .seq ds, cs)
    | '{' :: cs =>
      match skipBlanks cs with
      | '}' :: cs => some (if depth = 0 then .unreadable else .map [], cs)
      | cs => (entries? fuel (depth - 1) cs).map fun (es, cs) =>
        (if depth = 0 then .unreadable else .map es, cs)
    | '-' :: cs => number? true cs
    | cs => number? false cs

/-- Values up to the closing bracket, at least one. -/
def items? : Nat → Nat → List Char → Option (List Document × List Char)
  | 0, _, _ => none
  | fuel + 1, depth, cs => do
    let (d, cs) ← value? fuel depth cs
    match skipBlanks cs with
    | ',' :: cs =>
      let (ds, cs) ← items? fuel depth cs
      return (d :: ds, cs)
    | ']' :: cs => return ([d], cs)
    | _ => none

/-- Entries up to the closing brace, at least one. -/
def entries? : Nat → Nat → List Char → Option (List (Document × Document) × List Char)
  | 0, _, _ => none
  | fuel + 1, depth, cs => do
    match skipBlanks cs with
    | '"' :: cs =>
      let (k, cs) ← Quoted.read cs
      match skipBlanks cs with
      | ':' :: cs =>
        let (d, cs) ← value? fuel depth cs
        let entry := ((k.map .str).getD .unreadable, d)
        match skipBlanks cs with
        | ',' :: cs =>
          let (es, cs) ← entries? fuel depth cs
          return (entry :: es, cs)
        | '}' :: cs => return ([entry], cs)
        | _ => none
      | _ => none
    | _ => none

end

end JsonReader

/-- Reads a whole text that nests at most `depth` containers; blanks may surround the value.  Each
call of the reader takes a character or ends, so twice the length is fuel enough. -/
def Document.ofJson? (depth : Nat) (text : String) : Option Document :=
  match JsonReader.value? (2 * text.toList.length + 2) depth text.toList with
  | some (d, cs) => if (JsonReader.skipBlanks cs).isEmpty then some d else none
  | none => none

end ReactiveState
