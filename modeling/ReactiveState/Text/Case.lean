import ReactiveState.Text.CaseTable

/-! # Upper and lower case

The full case mappings of Unicode, in which one character may become several.  Lowering has one rule
that looks around: a capital sigma becomes a final sigma when a cased letter stands before it and
none behind it, case-ignorable characters passed over on both sides. -/

namespace ReactiveState.Text

/-- The upper case of a character. -/
def upperChar (c : Char) : List Char :=
  match CaseTable.upperSpecial.lookup c.toNat with
  | some ns => ns.map Char.ofNat
  | none => [((CaseTable.find? CaseTable.upper c.toNat).map Char.ofNat).getD c]

/-- The lower case of a character on its own. -/
def lowerChar (c : Char) : List Char :=
  match CaseTable.lowerSpecial.lookup c.toNat with
  | some ns => ns.map Char.ofNat
  | none => [((CaseTable.find? CaseTable.lower c.toNat).map Char.ofNat).getD c]

/-- The text in upper case. -/
def upper (s : String) : String :=
  String.ofList (s.toList.flatMap upperChar)

/-- Whether the first character that is not case-ignorable is cased. -/
def nextIsCased (cs : List Char) : Bool :=
  match cs.dropWhile fun c => CaseTable.holds CaseTable.caseIgnorable c.toNat with
  | [] => false
  | c :: _ => CaseTable.holds CaseTable.cased c.toNat

/-- The lower case of what follows `before`, which is given nearest character first. -/
def lowerAfter (before : List Char) : List Char → List Char
  | [] => []
  | c :: cs =>
    if c = 'Σ' then
      (if nextIsCased before && !nextIsCased cs then 'ς' else 'σ') :: lowerAfter (c :: before) cs
    else lowerChar c ++ lowerAfter (c :: before) cs

/-- The text in lower case. -/
def lower (s : String) : String :=
  String.ofList (lowerAfter [] s.toList)

end ReactiveState.Text
