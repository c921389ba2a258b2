import ReactiveState.Document
import ReactiveState.KeyMap
import ReactiveState.Number.Int64
import ReactiveState.Number.Reading
import ReactiveState.Text.Quoted

/-! # TOML text

A strict reader of TOML 1.0.  A text is read in two steps: `TomlReader.statements?` takes it apart
into pairs and headers, and `TomlTable.ofStatements?` builds the table, which is where a key that is
given twice, or a table that is defined twice, is refused.

TOML has dates and times, for which a document has no form; their shape is checked and they are read
as `unreadable`. -/

namespace ReactiveState

/-- What the lines of a text say. -/
inductive TomlStatement where
  /-- A value at a dotted key of the current table. -/
  | pair (keys : List String) (value : Document)
  /-- Makes the table at a dotted key the current one. -/
  | table (keys : List String)
  /-- Adds a table to the array at a dotted key, and makes it the current one. -/
  | arrayTable (keys : List String)

/-! ### Tables -/

/-- What a table stems from, which decides how it may be extended. -/
inductive TableOrigin where
  /-- A header of its own. -/
  | header
  /-- A header of a table inside it. -/
  | implied
  /-- A dotted key. -/
  | dotted
deriving DecidableEq, Repr

/-- A part of a table that is being built. -/
inductive TomlNode where
  /-- A value, which cannot be extended. -/
  | value (d : Document)
  | table (origin : TableOrigin) (entries : List (String × TomlNode))
  /-- An array of tables, of which only the last can be extended. -/
  | tables (earlier : List Document) (last : List (String × TomlNode))

namespace TomlNode

mutual

/-- The document of a part. -/
def toDocument : TomlNode → Document
  | value d => d
  | table _ entries => .struct (entryDocuments entries)
  | tables earlier last => .seq (earlier ++ [.struct (entryDocuments last)])

/-- The documents of the entries. -/
def entryDocuments : List (String × TomlNode) → List (String × Document)
  | [] => []
  | (k, n) :: ns => (k, toDocument n) :: entryDocuments ns

end

end TomlNode

/-- A table that is being built, in the order in which its keys were first given. -/
abbrev TomlTable := List (String × TomlNode)

namespace TomlTable

/-- The document of a table. -/
def toDocument (t : TomlTable) : Document :=
  .struct (TomlNode.entryDocuments t)

/-- Puts a value at a dotted key that is not there yet.  On the way it makes tables, and extends
those that dotted keys made. -/
def put? (d : Document) : List String → TomlTable → Option TomlTable
  | [], _ => none
  | [k], t => if KeyMap.contains k t then none else some (t ++ [(k, .value d)])
  | k :: k' :: ks, t =>
    match KeyMap.find? k t with
    | none => (put? d (k' :: ks) []).map fun inner => t ++ [(k, .table .dotted inner)]
    | some (.table .dotted inner) =>
      (put? d (k' :: ks) inner).map fun inner => KeyMap.modify k (fun _ => .table .dotted inner) t
    | some _ => none

/-- Changes the table at a dotted key, in an array the last one.  On the way it makes tables. -/
def update? (f : TomlTable → Option TomlTable) : List String → TomlTable → Option TomlTable
  | [], t => f t
  | k :: ks, t =>
    match KeyMap.find? k t with
    | none => (update? f ks []).map fun inner => t ++ [(k, .table .implied inner)]
    | some (.table origin inner) =>
      (update? f ks inner).map fun inner => KeyMap.modify k (fun _ => .table origin inner) t
    | some (.tables earlier last) =>
      (update? f ks last).map fun last => KeyMap.modify k (fun _ => .tables earlier last) t
    | some (.value _) => none

/-- Gives a table its header, which it may have once. -/
def define? (k : String) (t : TomlTable) : Option TomlTable :=
  match KeyMap.find? k t with
  | none => some (t ++ [(k, .table .header [])])
  | some (.table .implied inner) => some (KeyMap.modify k (fun _ => .table .header inner) t)
  | some _ => none

/-- Adds an empty table to an array of tables. -/
def extend? (k : String) (t : TomlTable) : Option TomlTable :=
  match KeyMap.find? k t with
  | none => some (t ++ [(k, .tables [] [])])
  | some (.tables earlier last) =>
    some (KeyMap.modify k (fun _ => .tables (earlier ++ [toDocument last]) []) t)
  | some _ => none

/-- Builds a table; `current` is the dotted key of the current table. -/
def build? : List String → TomlTable → List TomlStatement → Option TomlTable
  | _, t, [] => some t
  | current, t, .pair keys d :: rest => do
    let t ← update? (put? d keys) current t
    build? current t rest
  | _, t, .table keys :: rest => do
    let t ← update? (define? (← keys.getLast?)) keys.dropLast t
    build? keys t rest
  | _, t, .arrayTable keys :: rest => do
    let t ← update? (extend? (← keys.getLast?)) keys.dropLast t
    build? keys t rest

/-- The table that statements describe. -/
def ofStatements? (statements : List TomlStatement) : Option TomlTable :=
  build? [] [] statements

end TomlTable

namespace TomlReader

/-! ### Blanks and comments -/

/-- Drops spaces and tabs. -/
def skipBlanks (cs : List Char) : List Char :=
  cs.dropWhile fun c => c = ' ' || c = '\t'

/-- Whether a character may stand in comments and strings: the tab, and what is no control character
of ASCII. -/
def isPlain (c : Char) : Bool :=
  c = '\t' || (0x20 ≤ c.toNat && c.toNat ≠ 0x7F)

/-- Drops a comment, if one starts here. -/
def skipComment (cs : List Char) : List Char :=
  match cs with
  | '#' :: cs => cs.dropWhile isPlain
  | cs => cs

/-- The rest after a line break, if one is here. -/
def newline? : List Char → Option (List Char)
  | '\n' :: cs => some cs
  | '\r' :: '\n' :: cs => some cs
  | _ => none

/-- The rest after the end of a line, which may hold a comment. -/
def lineEnd? (cs : List Char) : Option (List Char) :=
  match skipComment (skipBlanks cs) with
  | [] => some []
  | cs => newline? cs

/-- Drops blanks, comments and line breaks. -/
def skipLines : Nat → List Char → List Char
  | 0, cs => cs
  | fuel + 1, cs =>
    let cs := skipComment (skipBlanks cs)
    match newline? cs with
    | some cs => skipLines fuel cs
    | none => cs

/-! ### Strings -/

/-- The character of a one-letter escape. -/
def simpleEscape? (c : Char) : Option Char :=
  if c = 'b' then some '\x08'
  else if c = 't' then some '\t'
  else if c = 'n' then some '\n'
  else if c = 'f' then some '\x0c'
  else if c = 'r' then some '\r'
  else if c = '"' then some '"'
  else if c = '\\' then some '\\'
  else none

/-- The character of a number. -/
def scalar? (n : Nat) : Option Char :=
  if n < 0xD800 ∨ (0xE000 ≤ n ∧ n < 0x110000) then some (Char.ofNat n) else none

/-- The character of an escape by eight digits. -/
def longEscape? (high low : Option Nat) : Option Char := do
  let high ← high
  let low ← low
  scalar? (high * 0x10000 + low)

/-- One character before what a reader finds after it. -/
def consTo (c : Char) (rest : Option (List Char × List Char)) : Option (List Char × List Char) :=
  rest.map fun (s, cs) => (c :: s, cs)

/-- The body of a string between quotes, and what follows it. -/
def basic? : List Char → Option (List Char × List Char)
  | [] => none
  | '"' :: cs => some ([], cs)
  | '\\' :: 'u' :: a :: b :: c :: d :: cs => do
    consTo (← (Quoted.hexUnit? a b c d).bind scalar?) (basic? cs)
  | '\\' :: 'U' :: a :: b :: c :: d :: e :: f :: g :: h :: cs => do
    consTo (← longEscape? (Quoted.hexUnit? a b c d) (Quoted.hexUnit? e f g h)) (basic? cs)
  | '\\' :: c :: cs => do consTo (← simpleEscape? c) (basic? cs)
  | c :: cs => if isPlain c then consTo c (basic? cs) else none

/-- What a backslash at the end of a line makes of the characters that follow. -/
inductive Trim where
  /-- Nothing is dropped. -/
  | none
  /-- Up to the end of the line there have to be blanks only. -/
  | line
  /-- Blanks and line breaks are dropped. -/
  | blank
deriving DecidableEq, Repr

/-- The body of a string between triple quotes, and what follows it. -/
def multilineBasic? : Trim → List Char → Option (List Char × List Char)
  | _, [] => none
  | .line, '\n' :: cs => multilineBasic? .blank cs
  | .line, '\r' :: '\n' :: cs => multilineBasic? .blank cs
  | .line, c :: cs => if c = ' ' ∨ c = '\t' then multilineBasic? .line cs else none
  | .blank, '\n' :: cs => multilineBasic? .blank cs
  | .blank, '\r' :: '\n' :: cs => multilineBasic? .blank cs
  | .blank, ' ' :: cs => multilineBasic? .blank cs
  | .blank, '\t' :: cs => multilineBasic? .blank cs
  | _, '"' :: '"' :: '"' :: '"' :: '"' :: cs => some (['"', '"'], cs)
  | _, '"' :: '"' :: '"' :: '"' :: cs => some (['"'], cs)
  | _, '"' :: '"' :: '"' :: cs => some ([], cs)
  | _, '\n' :: cs => consTo '\n' (multilineBasic? .none cs)
  | _, '\r' :: '\n' :: cs => consTo '\n' (multilineBasic? .none cs)
  | _, '\\' :: 'u' :: a :: b :: c :: d :: cs => do
    consTo (← (Quoted.hexUnit? a b c d).bind scalar?) (multilineBasic? .none cs)
  | _, '\\' :: 'U' :: a :: b :: c :: d :: e :: f :: g :: h :: cs => do
    consTo (← longEscape? (Quoted.hexUnit? a b c d) (Quoted.hexUnit? e f g h))
      (multilineBasic? .none cs)
  | _, '\\' :: c :: cs =>
    match simpleEscape? c with
    | some c => consTo c (multilineBasic? .none cs)
    | none => multilineBasic? .line (c :: cs)
  | _, c :: cs => if isPlain c then consTo c (multilineBasic? .none cs) else none

/-- The body of a string between apostrophes, and what follows it. -/
def literal? : List Char → Option (List Char × List Char)
  | [] => none
  | c :: cs =>
    if c = '\'' then some ([], cs)
    else if isPlain c then consTo c (literal? cs)
    else none

/-- The body of a string between triple apostrophes, and what follows it. -/
def multilineLiteral? : List Char → Option (List Char × List Char)
  | [] => none
  | '\'' :: '\'' :: '\'' :: '\'' :: '\'' :: cs => some (['\'', '\''], cs)
  | '\'' :: '\'' :: '\'' :: '\'' :: cs => some (['\''], cs)
  | '\'' :: '\'' :: '\'' :: cs => some ([], cs)
  | '\n' :: cs => consTo '\n' (multilineLiteral? cs)
  | '\r' :: '\n' :: cs => consTo '\n' (multilineLiteral? cs)
  | c :: cs => if isPlain c then consTo c (multilineLiteral? cs) else none

/-- Drops the line break that may follow the opening of a string of several lines. -/
def skipNewline (cs : List Char) : List Char :=
  (newline? cs).getD cs

/-- A string of one line, and what follows it. -/
def lineString? : List Char → Option (List Char × List Char)
  | '"' :: cs => basic? cs
  | '\'' :: cs => literal? cs
  | _ => none

/-- A string, and what follows it. -/
def string? : List Char → Option (List Char × List Char)
  | '"' :: '"' :: '"' :: cs => multilineBasic? .none (skipNewline cs)
  | '\'' :: '\'' :: '\'' :: cs => multilineLiteral? (skipNewline cs)
  | cs => lineString? cs

/-! ### Keys -/

/-- Whether a character may stand in a key without quotes. -/
def isKeyChar (c : Char) : Bool :=
  c.isAlphanum || c = '_' || c = '-'

/-- One part of a dotted key. -/
def key? (cs : List Char) : Option (String × List Char) :=
  match cs.takeWhile isKeyChar with
  | [] => (lineString? cs).map fun (s, cs) => (String.ofList s, cs)
  | key => some (String.ofList key, cs.dropWhile isKeyChar)

/-- A dotted key; blanks may surround each part. -/
def keys? : Nat → List Char → Option (List String × List Char)
  | 0, _ => none
  | fuel + 1, cs => do
    let (key, cs) ← key? (skipBlanks cs)
    match skipBlanks cs with
    | '.' :: cs =>
      let (keys, cs) ← keys? fuel cs
      return (key :: keys, cs)
    | cs => return ([key], cs)

/-! ### Numbers, dates and times -/

/-- Whether a character may stand in a value without quotes. -/
def isWordChar (c : Char) : Bool :=
  c.isAlphanum || c = '_' || c = '-' || c = '+' || c = '.' || c = ':'

/-- Digits; single underscores between them are dropped. -/
def digits? (isDigit : Char → Bool) : List Char → Option (List Char)
  | [] => none
  | [c] => if isDigit c then some [c] else none
  | c :: '_' :: cs => if isDigit c then (digits? isDigit cs).map (c :: ·) else none
  | c :: cs => if isDigit c then (digits? isDigit cs).map (c :: ·) else none

/-- The sign in front of a number, and the rest. -/
def sign : List Char → Bool × List Char
  | '-' :: cs => (true, cs)
  | '+' :: cs => (false, cs)
  | cs => (false, cs)

/-- Decimal digits without a superfluous zero in front. -/
def decimal? (cs : List Char) : Option (List Char) := do
  let digits ← digits? Char.isDigit cs
  if digits.head? = some '0' ∧ 1 < digits.length then none else return digits

/-- The number of digits in a base up to sixteen. -/
def inBase? (base : Nat) (cs : List Char) : Option Nat := do
  let digits ← digits? (fun c => ((Quoted.hexValue? c).any fun n => n < base)) cs
  return digits.foldl (fun n c => base * n + (Quoted.hexValue? c).getD 0) 0

/-- An integer. -/
def integer? : List Char → Option Int
  | '0' :: 'x' :: cs => (inBase? 16 cs).map fun n => n
  | '0' :: 'o' :: cs => (inBase? 8 cs).map fun n => n
  | '0' :: 'b' :: cs => (inBase? 2 cs).map fun n => n
  | cs =>
    let (negative, cs) := sign cs
    (decimal? cs).map fun digits =>
      let n : Int := digitsValue digits
      if negative then -n else n

/-- A float: digits with a fraction, an exponent or both, or one of two names. -/
def float? (cs : List Char) : Option Float := do
  let (negative, cs) := sign cs
  if cs = "inf".toList then return if negative then -1.0 / 0.0 else 1.0 / 0.0
  else if cs = "nan".toList then return 0.0 / 0.0
  else
    let isMark (c : Char) : Bool := c = 'e' || c = 'E'
    let mantissa := cs.takeWhile fun c => !isMark c
    let whole ← decimal? (mantissa.takeWhile (· ≠ '.'))
    let fraction ← match mantissa.dropWhile (· ≠ '.') with
      | [] => some []
      | _ :: cs => digits? Char.isDigit cs
    let exponent ← match cs.dropWhile fun c => !isMark c with
      | [] => if fraction.isEmpty then none else some 0
      | _ :: cs =>
        let (negative, cs) := sign cs
        (digits? Char.isDigit cs).map fun digits =>
          let n : Int := digitsValue digits
          if negative then -n else n
    return signedFloat negative (digitsValue (whole ++ fraction)) (exponent - fraction.length)

/-- The rest after characters of a shape, in which a zero stands for any digit. -/
def shape? : List Char → List Char → Option (List Char)
  | [], cs => some cs
  | '0' :: shape, c :: cs => if c.isDigit then shape? shape cs else none
  | s :: shape, c :: cs => if s = c then shape? shape cs else none
  | _ :: _, [] => none

/-- The rest after a time of day, with a fraction of a second if one follows. -/
def time? (cs : List Char) : Option (List Char) := do
  match ← shape? "00:00:00".toList cs with
  | '.' :: cs => if (cs.head?.any Char.isDigit) then some (cs.dropWhile Char.isDigit) else none
  | cs => some cs

/-- The rest after an offset from universal time, if one is here. -/
def offset? : List Char → Option (List Char)
  | 'Z' :: cs => some cs
  | 'z' :: cs => some cs
  | '+' :: cs => shape? "00:00".toList cs
  | '-' :: cs => shape? "00:00".toList cs
  | cs => some cs

/-- Whether a word has the shape of a date, a time or both. -/
def isDateTime (cs : List Char) : Bool :=
  match shape? "0000-00-00".toList cs with
  | none => time? cs = some []
  | some [] => true
  | some (c :: cs) => (c = 'T' || c = 't') && (time? cs).bind offset? = some []

/-- The value of a word. -/
def word? (cs : List Char) : Option Document :=
  if cs = "true".toList then some (.bool true)
  else if cs = "false".toList then some (.bool false)
  else
    match integer? cs, float? cs with
    | some n, _ => if (int64? n).isSome then some (.int n) else none
    | none, some x => some (.float x)
    | none, none => if isDateTime cs then some .unreadable else none

/-- A value without quotes, and what follows it.  A date and a time may have a space between. -/
def scalarValue? (cs : List Char) : Option (Document × List Char) :=
  let word := cs.takeWhile isWordChar
  let cs := cs.dropWhile isWordChar
  match shape? "0000-00-00".toList word, cs with
  | some [], ' ' :: c :: cs =>
    if c.isDigit then
      let time := (c :: cs).takeWhile isWordChar
      (word? (word ++ 'T' :: time)).map fun d => (d, (c :: cs).dropWhile isWordChar)
    else (word? word).map fun d => (d, ' ' :: c :: cs)
  | _, _ => (word? word).map fun d => (d, cs)

/-! ### Values -/

mutual

/-- A value, and what follows it. -/
def value? : Nat → List Char → Option (Document × List Char)
  | 0, _ => none
  | fuel + 1, cs =>
    match cs with
    | '[' :: cs => (items? fuel cs).map fun (ds, cs) => (.seq ds, cs)
    | '{' :: cs =>
      match skipBlanks cs with
      | '}' :: cs => some (.map [], cs)
      | cs => do
        let (t, cs) ← pairs? fuel [] cs
        return (t.toDocument, cs)
    | '"' :: _ => (string? cs).map fun (s, cs) => (.str (String.ofList s), cs)
    | '\'' :: _ => (string? cs).map fun (s, cs) => (.str (String.ofList s), cs)
    | cs => scalarValue? cs

/-- The items of an array up to its end.  A comma may follow the last. -/
def items? : Nat → List Char → Option (List Document × List Char)
  | 0, _ => none
  | fuel + 1, cs =>
    match skipLines cs.length cs with
    | ']' :: cs => some ([], cs)
    | cs => do
      let (d, cs) ← value? fuel cs
      match skipLines cs.length cs with
      | ',' :: cs =>
        let (ds, cs) ← items? fuel cs
        return (d :: ds, cs)
      | ']' :: cs => return ([d], cs)
      | _ => none

/-- The pairs of a table on one line up to its end, added to those before. -/
def pairs? : Nat → TomlTable → List Char → Option (TomlTable × List Char)
  | 0, _, _ => none
  | fuel + 1, t, cs => do
    let (keys, cs) ← keys? cs.length cs
    match cs with
    | '=' :: cs =>
      let (d, cs) ← value? fuel (skipBlanks cs)
      let t ← t.put? d keys
      match skipBlanks cs with
      | ',' :: cs => pairs? fuel t cs
      | '}' :: cs => return (t, cs)
      | _ => none
    | _ => none

end

/-! ### Statements -/

/-- A statement, and what follows it on its line. -/
def statement? (cs : List Char) : Option (TomlStatement × List Char) :=
  match cs with
  | '[' :: '[' :: cs => do
    match ← keys? cs.length cs with
    | (keys, ']' :: ']' :: cs) => return (.arrayTable keys, cs)
    | _ => none
  | '[' :: cs => do
    match ← keys? cs.length cs with
    | (keys, ']' :: cs) => return (.table keys, cs)
    | _ => none
  | cs => do
    match ← keys? cs.length cs with
    | (keys, '=' :: cs) =>
      let (d, cs) ← value? (2 * cs.length + 2) (skipBlanks cs)
      return (.pair keys d, cs)
    | _ => none

/-- The statements of a text. -/
def statements? : Nat → List Char → Option (List TomlStatement)
  | 0, _ => none
  | fuel + 1, cs =>
    match skipLines cs.length cs with
    | [] => some []
    | cs => do
      let (s, cs) ← statement? cs
      let ss ← statements? fuel (← lineEnd? cs)
      return s :: ss

end TomlReader

/-- Reads a whole text.  A byte order mark in front is skipped. -/
def Document.ofToml? (text : String) : Option Document := do
  let cs := match text.toList with
    | '\uFEFF' :: cs => cs
    | cs => cs
  let statements ← TomlReader.statements? (cs.length + 1) cs
  let t ← TomlTable.ofStatements? statements
  return t.toDocument

end ReactiveState
