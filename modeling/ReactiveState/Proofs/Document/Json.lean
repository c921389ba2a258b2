import Mathlib.Data.Nat.Digits.Defs
import ReactiveState.Document.Json
import ReactiveState.Proofs.Document.Every
import ReactiveState.Proofs.Text.Quoted
import ReactiveState.Wire.Types

/-!
# JSON text is read back

A plain document without floats is read back from its JSON text, if it nests no deeper than the
reader allows (`Document.ofJson?_jsonText`).

The text of a value may be followed by anything that does not continue a number (`Ends`): by a
comma, a bracket, or nothing.  The fuel of the reader is measured in characters that are left.
-/

namespace ReactiveState

namespace JsonReader

/-! ### Numbers -/

/-- What follows does not continue a number. -/
def Ends (rest : List Char) : Prop :=
  ∀ c cs, rest = c :: cs → c.isDigit = false ∧ c ≠ '.' ∧ c ≠ 'e' ∧ c ≠ 'E'

/-- A number may stand at the end of a text. -/
theorem ends_nil : Ends [] := nofun

/-- A number ends before a character that cannot be part of one. -/
theorem ends_cons {c : Char} {cs : List Char}
    (h : c.isDigit = false ∧ c ≠ '.' ∧ c ≠ 'e' ∧ c ≠ 'E') : Ends (c :: cs) := by
  intro c' cs' heq
  obtain ⟨rfl, -⟩ := List.cons.inj heq
  exact h

/-- No number but zero starts with a zero. -/
theorem head?_toDigits (n : Nat) (hn : 0 < n) : (Nat.toDigits 10 n).head? ≠ some '0' := by
  have hsmall : ∀ d < 10, 0 < d → Nat.digitChar d ≠ '0' := by decide
  -- Induction along the digits: the first digit is that of the quotient by ten
  induction n using Nat.strongRecOn with
  | ind n ih =>
    rw [Nat.toDigits_eq_if (by decide)]
    split
    · next hlt =>
      rw [List.head?_cons]
      exact fun h => hsmall n hlt hn (Option.some.inj h)
    · next hge =>
      rw [List.head?_append, Option.or_of_isSome (by simp [Nat.toDigits_ne_nil])]
      exact ih (n / 10) (by omega) (by omega)

/-- Every digit is a digit to the reader. -/
theorem isDigit_toDigits (n : Nat) : ∀ c ∈ Nat.toDigits 10 n, c.isDigit = true :=
  fun _ hc => Nat.isDigit_of_mem_toDigits (by decide) (by decide) hc

/-- The reader takes all digits of a number. -/
theorem takeWhile_toDigits (n : Nat) {rest : List Char} (hrest : Ends rest) :
    (Nat.toDigits 10 n ++ rest).takeWhile Char.isDigit = Nat.toDigits 10 n := by
  rw [List.takeWhile_append_of_pos (isDigit_toDigits n)]
  cases rest with
  | nil => simp
  | cons c cs => simp [(hrest c cs rfl).1]

/-- The reader leaves what follows the digits of a number. -/
theorem dropWhile_toDigits (n : Nat) {rest : List Char} (hrest : Ends rest) :
    (Nat.toDigits 10 n ++ rest).dropWhile Char.isDigit = rest := by
  rw [List.dropWhile_append_of_pos (isDigit_toDigits n)]
  cases rest with
  | nil => simp
  | cons c cs => simp [(hrest c cs rfl).1]

/-- Digits are a whole number as JSON has it. -/
theorem not_superfluous (n : Nat) :
    ¬((Nat.toDigits 10 n).isEmpty = true ∨
      ((Nat.toDigits 10 n).head? = some '0' ∧ 1 < (Nat.toDigits 10 n).length)) := by
  rintro (hempty | ⟨hzero, hlength⟩)
  · exact Nat.toDigits_ne_nil (List.isEmpty_iff.1 hempty)
  · rcases Nat.eq_zero_or_pos n with rfl | hpos
    · simp [Nat.toDigits_zero] at hlength
    · exact head?_toDigits n hpos hzero

/-- The digits of a number have its value. -/
theorem digitsValue_toDigits (n : Nat) : digitsValue (Nat.toDigits 10 n) = n :=
  Nat.ofDigitChars_ten_toDigits

/-- A whole number without an exponent is read up to its last digit. -/
theorem number?_nat {n : Nat} (hn : n < UInt64.size) {rest : List Char} (hrest : Ends rest) :
    number? false (Nat.toDigits 10 n ++ rest) = some (.int n, rest) := by
  unfold number?
  simp only [takeWhile_toDigits n hrest, dropWhile_toDigits n hrest, if_neg (not_superfluous n)]
  rcases rest with _ | ⟨c, cs⟩
  · simp [digitsValue_toDigits, hn]
  · obtain ⟨-, hdot, he, hE⟩ := hrest c cs rfl
    simp [hdot, he, hE, digitsValue_toDigits, hn]

/-- A negative number is read back. -/
theorem number?_neg {n : Nat} (hpos : 0 < n) (hn : (int64? (-n)).isSome = true) {rest : List Char}
    (hrest : Ends rest) : number? true (Nat.toDigits 10 n ++ rest) = some (.int (-n), rest) := by
  unfold number?
  simp only [takeWhile_toDigits n hrest, dropWhile_toDigits n hrest, if_neg (not_superfluous n)]
  rcases rest with _ | ⟨c, cs⟩
  · simp [digitsValue_toDigits, hn, hpos]
  · obtain ⟨-, hdot, he, hE⟩ := hrest c cs rfl
    simp [hdot, he, hE, digitsValue_toDigits, hn, hpos]

/-- A number that is not negative is written as its digits. -/
theorem text_nat (n : Nat) : (toString (n : Int)).toList = Nat.toDigits 10 n := by
  rw [Int.toString_eq_repr]
  change (Nat.repr n).toList = _
  rw [Nat.repr_eq_ofList_toDigits, String.toList_ofList]

/-- A negative number is written as a minus sign and digits. -/
theorem text_negSucc (n : Nat) :
    (toString (Int.negSucc n)).toList = '-' :: Nat.toDigits 10 (n + 1) := by
  rw [Int.toString_eq_repr]
  change ("-" ++ Nat.repr (n + 1)).toList = _
  rw [Nat.repr_eq_ofList_toDigits, String.toList_append, String.toList_ofList,
    String.toList_ofList, List.singleton_append]

/-! ### First characters -/

/-- There is nothing to skip before a character that is no blank. -/
theorem skipBlanks_cons {c : Char} (hc : isBlank c = false) (cs : List Char) :
    skipBlanks (c :: cs) = c :: cs := by
  rw [skipBlanks, List.dropWhile_cons_of_neg (by simp [hc])]

/-- A text that starts with what a value starts with. -/
def Starts (text : List Char) : Prop :=
  ∃ c cs, text = c :: cs ∧ isBlank c = false ∧ c ≠ ']' ∧ c ≠ '}'

/-- A digit is no blank. -/
theorem isBlank_of_isDigit {c : Char} (h : c.isDigit = true) : isBlank c = false := by
  cases hblank : isBlank c with
  | false => rfl
  | true =>
    simp only [isBlank, Bool.or_eq_true, decide_eq_true_eq] at hblank
    rcases hblank with ((rfl | rfl) | rfl) | rfl <;> exact absurd h (by decide)

/-- Digits begin like a value. -/
theorem starts_toDigits (n : Nat) : Starts (Nat.toDigits 10 n) := by
  obtain ⟨c, cs, heq⟩ := List.exists_cons_of_ne_nil (Nat.toDigits_ne_nil (n := n) (b := 10))
  have hdigit : c.isDigit = true := isDigit_toDigits n c (by simp [heq])
  refine ⟨c, cs, heq, isBlank_of_isDigit hdigit, ?_, ?_⟩
  · rintro rfl
    exact absurd hdigit (by decide)
  · rintro rfl
    exact absurd hdigit (by decide)

/-- The text of a document begins with a character that is no blank and closes nothing. -/
theorem starts_json : ∀ d : Document, d.HasJson → Starts d.json
  | .null, _ => ⟨'n', _, rfl, by decide⟩
  | .bool true, _ => ⟨'t', _, rfl, by decide⟩
  | .bool false, _ => ⟨'f', _, rfl, by decide⟩
  | .int (.ofNat n), _ => by
    rw [Document.json, Int.ofNat_eq_natCast, text_nat]
    exact starts_toDigits n
  | .int (.negSucc n), _ => by
    -- A negative number begins with its sign
    rw [Document.json, text_negSucc]
    exact ⟨'-', _, rfl, by decide⟩
  | .str s, _ => ⟨'"', _, rfl, by decide⟩
  | .bytes _, _ => ⟨'[', _, rfl, by decide⟩
  | .seq _, _ => ⟨'[', _, rfl, by decide⟩
  | .map _, _ => ⟨'{', _, rfl, by decide⟩
  | .unreadable, _ => ⟨'n', _, rfl, by decide⟩

/-! ### Values -/

/-- A value that begins with a digit is a number. -/
theorem value?_of_isDigit {c : Char} (hc : c.isDigit = true) (fuel depth : Nat) (cs : List Char) :
    value? (fuel + 1) depth (c :: cs) = number? false (c :: cs) := by
  have hne : ∀ c', c'.isDigit = false → c ≠ c' := by
    rintro c' hc' rfl
    rw [hc] at hc'
    cases hc'
  simp [value?, skipBlanks_cons (isBlank_of_isDigit hc), hne 'n' (by decide), hne 't' (by decide),
    hne 'f' (by decide), hne '"' (by decide), hne '[' (by decide), hne '{' (by decide),
    hne '-' (by decide)]

/-- An integer of 64 bits is read back as it is. -/
theorem value?_int (n : Int64) (fuel depth : Nat) {rest : List Char} (hrest : Ends rest) :
    value? (fuel + 1) depth ((Document.int n.toInt).json ++ rest) =
      some (.int n.toInt, rest) := by
  have hlow := Int64.le_toInt n
  have hhigh := Int64.toInt_lt n
  have hsome : int64? n.toInt = some n := int64?_eq_some_iff.2 rfl
  cases hn : n.toInt with
  | ofNat k =>
    rw [hn] at hhigh
    -- Numbers that are not negative are read without a sign
    have hsize : k < UInt64.size := by
      have hmax : UInt64.size = 2 ^ 64 := rfl
      rw [Int.ofNat_eq_natCast] at hhigh
      omega
    obtain ⟨c, cs, heq⟩ := List.exists_cons_of_ne_nil (Nat.toDigits_ne_nil (n := k) (b := 10))
    have hdigit : c.isDigit = true := isDigit_toDigits k c (by simp [heq])
    rw [Document.json, Int.ofNat_eq_natCast, text_nat, ← number?_nat hsize hrest, heq,
      List.cons_append, value?_of_isDigit hdigit]
  | negSucc k =>
    rw [hn] at hsome
    rw [Document.json, text_negSucc]
    -- The sign is taken off first and put back on the digits
    have hneg : (-((k + 1 : Nat) : Int)) = Int.negSucc k := rfl
    have hnumber := number?_neg (n := k + 1) (Nat.succ_pos k) (by rw [hneg, hsome]; rfl) hrest
    rw [hneg] at hnumber
    simp [value?, skipBlanks_cons (show isBlank '-' = false by decide), hnumber]

/-- A quoted text and what follows it. -/
theorem json_str (s : String) (cs : List Char) :
    (Document.str s).json ++ cs = '"' :: (Quoted.escapeAll s.toList ++ '"' :: cs) := by
  simp [Document.json, Quoted.encode]

/-- A text is read back. -/
theorem value?_str (s : String) (fuel depth : Nat) (rest : List Char) :
    value? (fuel + 1) depth ((Document.str s).json ++ rest) = some (.str s, rest) := by
  simp [json_str, value?, skipBlanks, isBlank, Quoted.read_escapeAll]

/-! ### Containers -/

/-- What a value begins with does not depend on what follows it. -/
theorem Starts.append {text : List Char} (h : Starts text) (rest : List Char) :
    Starts (text ++ rest) := by
  obtain ⟨c, cs, rfl, hc⟩ := h
  exact ⟨c, cs ++ rest, rfl, hc⟩

/-- After an opening bracket, what starts a value starts the items. -/
theorem value?_seq {text : List Char} (h : Starts text) (fuel depth : Nat) :
    value? (fuel + 1) (depth + 1) ('[' :: text) =
      (items? fuel depth text).map fun p => (.seq p.1, p.2) := by
  obtain ⟨c, cs, rfl, hblank, hclose, -⟩ := h
  simp [value?, skipBlanks_cons (show isBlank '[' = false by decide), skipBlanks_cons hblank,
    hclose]

/-- After an opening brace, what starts a value starts the entries. -/
theorem value?_map {text : List Char} (h : Starts text) (fuel depth : Nat) :
    value? (fuel + 1) (depth + 1) ('\x7b' :: text) =
      (entries? fuel depth text).map fun p => (.map p.1, p.2) := by
  obtain ⟨c, cs, rfl, hblank, -, hclose⟩ := h
  simp [value?, skipBlanks_cons (show isBlank '\x7b' = false by decide), skipBlanks_cons hblank,
    hclose]

/-- An item before the closing bracket is the last one. -/
theorem items?_last {fuel depth : Nat} {cs rest : List Char} {d : Document}
    (h : value? fuel depth cs = some (d, ']' :: rest)) :
    items? (fuel + 1) depth cs = some ([d], rest) := by
  simp [items?, h, skipBlanks, isBlank]

/-- An item before a comma has others behind it. -/
theorem items?_comma {fuel depth : Nat} {cs rest : List Char} {d : Document}
    (h : value? fuel depth cs = some (d, ',' :: rest)) :
    items? (fuel + 1) depth cs = (items? fuel depth rest).map fun p => (d :: p.1, p.2) := by
  simp only [items?, h, skipBlanks_cons (show isBlank ',' = false by decide),
    Option.bind_eq_bind, Option.bind_some]
  cases items? fuel depth rest <;> rfl

/-- An entry before the closing brace is the last one. -/
theorem entries?_last {fuel depth : Nat} {cs rest : List Char} {d : Document} (s : String)
    (h : value? fuel depth cs = some (d, '\x7d' :: rest)) :
    entries? (fuel + 1) depth ((Document.str s).json ++ ':' :: cs) =
      some ([(.str s, d)], rest) := by
  simp only [json_str, entries?, skipBlanks_cons (show isBlank '"' = false by decide),
    skipBlanks_cons (show isBlank ':' = false by decide), Quoted.read_escapeAll, h,
    skipBlanks_cons (show isBlank '\x7d' = false by decide), Option.bind_eq_bind, Option.bind_some]
  rfl

/-- An entry before a comma has others behind it. -/
theorem entries?_comma {fuel depth : Nat} {cs rest : List Char} {d : Document} (s : String)
    (h : value? fuel depth cs = some (d, ',' :: rest)) :
    entries? (fuel + 1) depth ((Document.str s).json ++ ':' :: cs) =
      (entries? fuel depth rest).map fun p => ((.str s, d) :: p.1, p.2) := by
  simp only [json_str, entries?, skipBlanks_cons (show isBlank '"' = false by decide),
    skipBlanks_cons (show isBlank ':' = false by decide), Quoted.read_escapeAll, h,
    skipBlanks_cons (show isBlank ',' = false by decide), Option.bind_eq_bind, Option.bind_some]
  cases entries? fuel depth rest <;> rfl

/-! ### Documents -/

/-- A list that is not empty begins like its first item. -/
theorem starts_jsonItems {d : Document} (hd : d.HasJson) (ds : List Document) :
    Starts (Document.jsonItems (d :: ds)) := by
  cases ds with
  | nil => exact (starts_json d hd).append _
  | cons d' ds => exact (starts_json d hd).append _

/-- A map that is not empty begins like the text of its first key. -/
theorem starts_jsonEntries (s : String) (d : Document) (es : List (Document × Document)) :
    Starts (Document.jsonEntries ((.str s, d) :: es)) := by
  cases es with
  | nil => exact (starts_json (.str s) trivial).append _
  | cons e es => exact (starts_json (.str s) trivial).append _

-- Induction on the document; `Ends` is needed only by a number, and what comes after a part of a
-- container is always a comma or its closing character.
mutual

/-- A document is read up to its last character. -/
theorem value?_json : ∀ (d : Document) {fuel depth : Nat} {rest : List Char},
    d.Every (fun d => d.IsPlain ∧ d.HasJson) → 2 * d.json.length ≤ fuel + 2 → d.nesting ≤ depth →
    Ends rest → value? (fuel + 1) depth (d.json ++ rest) = some (d, rest)
  | .null, _, _, _, _, _, _, _ => by
    simp [value?, Document.json, skipBlanks, isBlank]
  | .bool true, _, _, _, _, _, _, _ => by
    simp [value?, Document.json, skipBlanks, isBlank]
  | .bool false, _, _, _, _, _, _, _ => by
    simp [value?, Document.json, skipBlanks, isBlank]
  | .int n, fuel, depth, _, h, _, _, hrest => by
    -- Integers of a document have 64 bits
    obtain ⟨k, hk⟩ := Option.isSome_iff_exists.1 h.1
    rw [← int64?_eq_some_iff.1 hk]
    exact value?_int k fuel depth hrest
  | .str s, fuel, depth, rest, _, _, _, _ => value?_str s fuel depth rest
  | .seq [], _, depth, _, _, _, hdepth, _ => by
    -- The brackets nest once
    have hne : depth ≠ 0 := by
      rw [Document.nesting] at hdepth
      omega
    simp [value?, Document.json, Document.jsonItems, hne, skipBlanks, isBlank]
  | .seq (d :: ds), fuel, depth, rest, h, hfuel, hdepth, _ => by
    -- The bracket pays for this call of the reader
    rw [Document.json, List.length_cons] at hfuel
    rw [Document.nesting] at hdepth
    obtain ⟨depth, rfl⟩ : ∃ k, depth = k + 1 := ⟨depth - 1, by omega⟩
    rw [Document.json, List.cons_append,
      value?_seq ((starts_jsonItems h.2.1.head.2 ds).append rest),
      items?_json (d :: ds) (List.cons_ne_nil _ _) h.2 (by omega) (by omega)]
    rfl
  | .map [], _, depth, _, _, _, hdepth, _ => by
    have hne : depth ≠ 0 := by
      rw [Document.nesting] at hdepth
      omega
    simp [value?, Document.json, Document.jsonEntries, hne, skipBlanks, isBlank]
  | .map ((k, d) :: es), fuel, depth, rest, h, hfuel, hdepth, _ => by
    -- The brace pays for this call of the reader
    rw [Document.json, List.length_cons] at hfuel
    rw [Document.nesting] at hdepth
    obtain ⟨depth, rfl⟩ : ∃ k, depth = k + 1 := ⟨depth - 1, by omega⟩
    -- The keys of a map are texts
    obtain ⟨hkeys, -⟩ := h.1
    obtain ⟨s, rfl : k = .str s⟩ := hkeys (k, d) (List.mem_cons_self ..)
    rw [Document.json, List.cons_append, value?_map ((starts_jsonEntries s d es).append rest),
      entries?_json ((.str s, d) :: es) (List.cons_ne_nil _ _) h.2 hkeys (by omega) (by omega)]
    rfl

/-- Items are read up to their closing bracket. -/
theorem items?_json : ∀ (ds : List Document) {fuel depth : Nat} {rest : List Char}, ds ≠ [] →
    Document.EveryItem (fun d => d.IsPlain ∧ d.HasJson) ds →
    2 * (Document.jsonItems ds).length ≤ fuel → Document.itemNesting ds ≤ depth →
    items? fuel depth (Document.jsonItems ds ++ rest) = some (ds, rest)
  | [], _, _, _, hne, _, _, _ => absurd rfl hne
  | [d], fuel, depth, rest, _, h, hfuel, hdepth => by
    -- The bracket or comma behind an item pays for the call that reads it
    rw [Document.itemNesting] at hdepth
    simp only [Document.jsonItems, List.length_append, List.length_singleton] at hfuel
    obtain ⟨fuel, rfl⟩ : ∃ f, fuel = f + 2 := ⟨fuel - 2, by omega⟩
    rw [Document.jsonItems, List.append_assoc]
    exact items?_last (value?_json d h.1 (by omega) (by omega) (ends_cons (by decide)))
  | d :: d' :: ds, fuel, depth, rest, _, h, hfuel, hdepth => by
    rw [Document.itemNesting] at hdepth
    simp only [Document.jsonItems, List.length_append, List.length_cons] at hfuel
    -- One call goes on with the list, and one reads the item
    obtain ⟨fuel, rfl⟩ : ∃ f, fuel = f + 2 := ⟨fuel - 2, by omega⟩
    rw [Document.jsonItems, List.append_assoc, List.cons_append,
      items?_comma (value?_json d h.1 (by omega) (by omega) (ends_cons (by decide))),
      items?_json (d' :: ds) (List.cons_ne_nil _ _) h.2 (by omega) (by omega)]
    rfl

/-- Entries are read up to their closing brace. -/
theorem entries?_json : ∀ (es : List (Document × Document)) {fuel depth : Nat} {rest : List Char},
    es ≠ [] → Document.EveryEntry (fun d => d.IsPlain ∧ d.HasJson) es →
    (∀ e ∈ es, ∃ s, e.1 = .str s) → 2 * (Document.jsonEntries es).length ≤ fuel →
    Document.entryNesting es ≤ depth →
    entries? fuel depth (Document.jsonEntries es ++ rest) = some (es, rest)
  | [], _, _, _, hne, _, _, _, _ => absurd rfl hne
  | [(k, d)], fuel, depth, rest, _, h, hkeys, hfuel, hdepth => by
    -- Keys are texts, so they are read by `value?_str`
    obtain ⟨s, rfl : k = .str s⟩ := hkeys (k, d) (List.mem_cons_self ..)
    rw [Document.entryNesting] at hdepth
    simp only [Document.jsonEntries, List.length_append, List.length_cons] at hfuel
    obtain ⟨fuel, rfl⟩ : ∃ f, fuel = f + 2 := ⟨fuel - 2, by omega⟩
    rw [Document.jsonEntries, List.append_assoc, List.cons_append, List.append_assoc]
    exact entries?_last s (value?_json d h.2.1 (by omega) (by omega) (ends_cons (by decide)))
  | (k, d) :: e :: es, fuel, depth, rest, _, h, hkeys, hfuel, hdepth => by
    obtain ⟨s, rfl : k = .str s⟩ := hkeys (k, d) (List.mem_cons_self ..)
    rw [Document.entryNesting] at hdepth
    simp only [Document.jsonEntries, List.length_append, List.length_cons] at hfuel
    obtain ⟨fuel, rfl⟩ : ∃ f, fuel = f + 2 := ⟨fuel - 2, by omega⟩
    rw [Document.jsonEntries, List.append_assoc, List.cons_append, List.append_assoc,
      List.cons_append,
      entries?_comma s (value?_json d h.2.1 (by omega) (by omega) (ends_cons (by decide))),
      entries?_json (e :: es) (List.cons_ne_nil _ _) h.2.2
        (fun e he => hkeys e (List.mem_cons_of_mem _ he)) (by omega) (by omega)]
    rfl

end

end JsonReader

/-- The JSON text of a plain document without floats is read as the document. -/
theorem Document.ofJson?_jsonText {d : Document} (h : d.Every fun d => d.IsPlain ∧ d.HasJson)
    {depth : Nat} (hdepth : d.nesting ≤ depth) : ofJson? depth d.jsonText = some d := by
  have hread : JsonReader.value? (2 * d.json.length + 2) depth (d.json ++ []) = some (d, []) :=
    JsonReader.value?_json d h (by omega) hdepth JsonReader.ends_nil
  rw [List.append_nil] at hread
  simp only [ofJson?, jsonText, String.toList_ofList, hread]
  rfl

end ReactiveState
