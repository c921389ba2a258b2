import ReactiveState.Proofs.Document.Json
import ReactiveState.Value.Written

/-!
# Scanning source text

`Scan` goes through source text character by character, far enough to tell what is quoted, and stops
where two minus signs stand next to each other outside of quotes: that is a decrement, whatever was
meant.

`Scans text p` says that a text read as code ends as code, or at a decrement if `p` holds; `Neutral`
texts always end as code.  Texts are put together from parts (`Scans.append`, `Scans.minus`).  The
text of a value holds no decrement and begins with a minus sign exactly if the value is a number
with one (`signed_jsonText`).
-/

namespace ReactiveState

namespace Render

/-- Where a scan stands. -/
inductive Scan where
  | code
  /-- Behind a minus sign. -/
  | minus
  | quoted
  /-- Behind a backslash in quoted text. -/
  | escaped
  /-- Behind two minus signs. -/
  | decrement
deriving DecidableEq, Repr

namespace Scan

/-- Reads one character. -/
def step (s : Scan) (c : Char) : Scan :=
  match s with
  | code => if c = '-' then minus else if c = '"' then quoted else code
  | minus => if c = '-' then decrement else if c = '"' then quoted else code
  | quoted => if c = '"' then code else if c = '\\' then escaped else quoted
  | escaped => quoted
  | decrement => decrement

/-- Reads a text. -/
def after (s : Scan) (text : List Char) : Scan := text.foldl step s

/-- Scanning a text and then another one is scanning both. -/
theorem after_append (s : Scan) (text rest : List Char) :
    s.after (text ++ rest) = (s.after text).after rest :=
  List.foldl_append

/-- A scan stops at a decrement. -/
theorem after_decrement (text : List Char) : decrement.after text = decrement := by
  induction text with
  | nil => rfl
  | cons c text ih => exact ih

/-- Behind a minus sign only another one makes a difference. -/
theorem after_minus {text : List Char} (hne : text ≠ []) (hhead : text.head? ≠ some '-') :
    minus.after text = code.after text := by
  obtain ⟨c, rest, rfl⟩ := List.exists_cons_of_ne_nil hne
  have hc : c ≠ '-' := fun h => hhead (by rw [h]; rfl)
  have hstep : minus.step c = code.step c := by simp only [step, if_neg hc]
  exact congrArg (·.after rest) hstep

/-- A minus sign before a minus sign is a decrement. -/
theorem after_minus_of_head {text : List Char} (hhead : text.head? = some '-') :
    minus.after text = decrement := by
  obtain ⟨rest, rfl⟩ := List.head?_eq_some_iff.1 hhead
  exact after_decrement rest

end Scan

/-- A text read as code ends as code, or at a decrement if `p` holds. -/
structure Scans (text : List Char) (p : Prop) : Prop where
  decrement : p → Scan.code.after text = .decrement
  code : ¬ p → Scan.code.after text = .code

variable {text rest : List Char} {p q : Prop}

/-- What a scan finds may be said in another way. -/
theorem Scans.congr (h : Scans text p) (hpq : p ↔ q) : Scans text q :=
  ⟨fun hq => h.decrement (hpq.2 hq), fun hq => h.code fun hp => hq (hpq.1 hp)⟩

/-- A decrement in two texts is one in the first or one in the second. -/
theorem Scans.append (h : Scans text p) (h' : Scans rest q) : Scans (text ++ rest) (p ∨ q) := by
  constructor
  · rintro hpq
    -- A decrement that was met is not forgotten
    rw [Scan.after_append]
    by_cases hp : p
    · rw [h.decrement hp, Scan.after_decrement]
    · rw [h.code hp, h'.decrement (hpq.resolve_left hp)]
  · intro hpq
    -- After the first text the scan is in code again, so the second is scanned from there
    rw [not_or] at hpq
    rw [Scan.after_append, h.code hpq.1, h'.code hpq.2]

/-- A minus sign before a text: it makes a decrement of a minus sign that the text begins with. -/
theorem Scans.minus (h : Scans text p) (hne : text ≠ []) :
    Scans ('-' :: text) (text.head? = some '-' ∨ p) := by
  by_cases hhead : text.head? = some '-'
  · exact ⟨fun _ => Scan.after_minus_of_head hhead, fun hno => absurd (.inl hhead) hno⟩
  · have hminus : Scan.code.after ('-' :: text) = Scan.code.after text :=
      Scan.after_minus hne hhead
    exact ⟨fun hp => hminus.trans (h.decrement (hp.resolve_left hhead)),
      fun hp => hminus.trans (h.code fun hp' => hp (.inr hp'))⟩

/-! ### Texts without decrements -/

/-- A text read as code ends as code. -/
def Neutral (text : List Char) : Prop := Scan.code.after text = .code

/-- Characters that are no minus signs and no quotes. -/
def Plain (text : List Char) : Prop := ∀ c ∈ text, c ≠ '-' ∧ c ≠ '"'

/-- A text without an effect on the scan has no decrement. -/
theorem Neutral.scans (h : Neutral text) : Scans text False := ⟨False.elim, fun _ => h⟩

/-- Texts without an effect have none together. -/
theorem Neutral.append (h : Neutral text) (h' : Neutral rest) : Neutral (text ++ rest) := by
  rw [Neutral, Scan.after_append, h, h']

/-- Plain texts are plain together. -/
theorem Plain.append (h : Plain text) (h' : Plain rest) : Plain (text ++ rest) :=
  fun c hc => (List.mem_append.1 hc).elim (h c) (h' c)

/-- A part of a plain text is plain. -/
theorem Plain.of_subset (h : Plain text) (hsub : rest ⊆ text) : Plain rest :=
  fun c hc => h c (hsub hc)

/-- Plain characters have no effect on the scan, by induction on the text. -/
theorem Plain.neutral (h : Plain text) : Neutral text := by
  induction text with
  | nil => rfl
  | cons c text ih =>
    obtain ⟨⟨hminus, hquote⟩, hrest⟩ := List.forall_mem_cons.1 h
    -- Neither a sign nor a quote, so the scan stays where it is
    have hstep : Scan.code.step c = .code := by
      simp only [Scan.step, if_neg hminus, if_neg hquote]
    change (Scan.code.step c).after text = .code
    rw [hstep]
    exact ih hrest

/-- A plain text does not begin with a minus sign. -/
theorem Plain.head?_ne (h : Plain text) : text.head? ≠ some '-' :=
  fun hhead => (h '-' (List.mem_of_head? hhead)).1 rfl

/-- A text without a decrement that begins with a minus sign exactly if it is `negative`. -/
structure Signed (negative : Bool) (text : List Char) : Prop where
  neutral : Neutral text
  ne_nil : text ≠ []
  head?_iff : text.head? = some '-' ↔ negative = true

/-- A plain text that is not empty counts as one without a sign. -/
theorem Plain.signed (h : Plain text) (hne : text ≠ []) : Signed false text :=
  ⟨h.neutral, hne, by simp [h.head?_ne]⟩

/-- A minus sign before a text that begins with none. -/
theorem Signed.minus (h : Signed false text) : Signed true ('-' :: text) :=
  ⟨(Scan.after_minus h.ne_nil (by simp [h.head?_iff])).trans h.neutral, by simp, by simp⟩

/-! ### Quoted text -/

/-- Inside quotes an escaped character leaves the scan inside them. -/
theorem after_quoted_escape (c : Char) : Scan.quoted.after (Quoted.escape c) = .quoted := by
  have hhex : ∀ n < 16, Scan.quoted.step (Quoted.hexDigit n) = .quoted := by decide
  unfold Quoted.escape
  split_ifs with hquote hbackslash _ _ _ _ _ hcontrol
  -- The escapes of one letter
  iterate 7 rfl
  · change (Scan.quoted.step (Quoted.hexDigit (c.toNat / 16))).step _ = .quoted
    rw [hhex _ (by omega), hhex _ (by omega)]
  · simp only [Scan.after, List.foldl_cons, List.foldl_nil, Scan.step, if_neg hquote,
      if_neg hbackslash]

/-- A text in quotes has no effect on the scan, whatever is in it. -/
theorem neutral_encode (s : String) : Neutral (Quoted.encode s) := by
  have hbody : ∀ cs : List Char, Scan.quoted.after (Quoted.escapeAll cs) = .quoted := by
    intro cs
    induction cs with
    | nil => rfl
    | cons c cs ih => rw [Quoted.escapeAll, Scan.after_append, after_quoted_escape, ih]
  change Scan.quoted.after (Quoted.escapeAll s.toList ++ ['"']) = .code
  rw [Scan.after_append, hbody]
  rfl

/-! ### Numbers -/

/-- Digits are plain. -/
theorem plain_toDigits (n : Nat) : Plain (Nat.toDigits 10 n) := by
  intro c hc
  have hdigit := JsonReader.isDigit_toDigits n c hc
  constructor <;> rintro rfl <;> exact absurd hdigit (by decide)

/-- Digits are a text without a sign. -/
theorem signed_toDigits (n : Nat) : Signed false (Nat.toDigits 10 n) :=
  (plain_toDigits n).signed Nat.toDigits_ne_nil

/-- An integer begins with a minus sign exactly if it is negative. -/
theorem signed_int (n : Int) : Signed (decide (n < 0)) (toString n).toList := by
  cases n with
  | ofNat n =>
    rw [Int.ofNat_eq_natCast, JsonReader.text_nat, decide_eq_false (by omega)]
    exact signed_toDigits n
  | negSucc n =>
    rw [JsonReader.text_negSucc, decide_eq_true (Int.negSucc_lt_zero n)]
    exact (signed_toDigits (n + 1)).minus

/-- A point between digits is plain. -/
theorem plain_mantissaText {digits : List Char} (h : Plain digits) :
    Plain (NumberFormat.mantissaText digits) := by
  unfold NumberFormat.mantissaText
  split
  · exact h
  · exact h
  · -- The point goes behind the first digit
    next d ds _ =>
    have hfirst : Plain [d] := h.of_subset (by simp)
    have hpoint : Plain ['.'] := by simp [Plain]
    have hrest : Plain ds := h.of_subset (by simp)
    exact hfirst.append (hpoint.append hrest)

/-- A mantissa begins with its first digit. -/
theorem head?_mantissaText (d : Char) (ds : List Char) :
    (NumberFormat.mantissaText (d :: ds)).head? = some d := by
  cases ds <;> rfl

/-- A number begins with a digit, and the only sign inside it is that of its exponent. -/
theorem signed_layout {digits : List Char} (h : Plain digits) (hne : digits ≠ []) (n : Int) :
    Signed false (jsonNumber.layout digits n) := by
  have hzeros : ∀ k, Plain (List.replicate k '0') := fun k c hc => by
    rw [List.eq_of_mem_replicate hc]
    decide
  have hpoint : Plain ['.'] := by simp [Plain]
  have hwhole : Plain ['.', '0'] := by simp [Plain]
  rw [NumberFormat.layout]
  -- One case for each form of a number; only a negative exponent has a sign in it
  split_ifs
  · exact ((h.append (hzeros _)).append hwhole).signed (by simp [hne])
  · exact ((h.of_subset (List.take_subset _ _)).append
      (hpoint.append (h.of_subset (List.drop_subset _ _)))).signed (by simp)
  · exact ((show Plain ['0', '.'] by simp [Plain]).append ((hzeros _).append h)).signed (by simp)
  · refine ⟨(plain_mantissaText h).neutral.append
      ((show Neutral ['e'] from rfl).append (signed_toDigits _).minus.neutral), by simp, ?_⟩
    -- The first character is that of the mantissa, a digit
    obtain ⟨d, ds, rfl⟩ := List.exists_cons_of_ne_nil hne
    rw [List.head?_append, head?_mantissaText]
    simpa using (h d List.mem_cons_self).1
  · exact ((plain_mantissaText h).append
      ((show Plain ['e', '+'] by simp [Plain]).append (plain_toDigits _))).signed (by simp)

/-- A double begins with a minus sign exactly if it is a negative number; NaN and the infinities are
written as null. -/
theorem signed_float (x : Float) :
    Signed (!x.isNaN && !x.isInf && (FloatParts.ofFloat x).negative)
      (jsonNumber.text x).toList := by
  have hlayout : Signed false (jsonNumber.layout (jsonNumber.digits (FloatParts.ofFloat x)).1
      (jsonNumber.digits (FloatParts.ofFloat x)).2) :=
    signed_layout (plain_toDigits _) Nat.toDigits_ne_nil _
  have hnull : Signed false "null".toList :=
    (show Plain "null".toList by simp [Plain]).signed (by simp)
  have hzero : Signed false "0.0".toList :=
    (show Plain "0.0".toList by simp [Plain]).signed (by simp)
  -- NaN, the two infinities, and then zeros and numbers, each with and without a sign
  rw [NumberFormat.text]
  split_ifs with hnan hinf
  · rw [hnan]
    exact hnull
  · rw [hinf, Bool.not_true, Bool.and_false, Bool.false_and]
    exact hnull
  · rw [hinf, Bool.not_true, Bool.and_false, Bool.false_and]
    exact hnull
  · rw [Bool.not_eq_true] at hnan hinf
    rw [hnan, hinf, Bool.not_false, Bool.true_and, Bool.true_and]
    dsimp only
    -- A sign is written in front for negative numbers and for the negative zero
    split_ifs with hmantissa hnegative hnegative
    · rw [hnegative]
      exact hzero.minus
    · rw [Bool.not_eq_true] at hnegative
      rw [hnegative]
      exact hzero
    · rw [hnegative, String.toList_ofList]
      exact hlayout.minus
    · rw [Bool.not_eq_true] at hnegative
      rw [hnegative, String.toList_ofList]
      exact hlayout

/-! ### Values -/

/-- Bytes are numbers between commas. -/
theorem neutral_jsonBytes : ∀ bs : List UInt8, Neutral (Document.jsonBytes bs)
  | [] => rfl
  | [b] => (signed_int b.toNat).neutral.append (rfl)
  | b :: b' :: bs => (signed_int b.toNat).neutral.append
    ((show Neutral [','] from rfl).append (neutral_jsonBytes (b' :: bs)))

mutual

/-- The JSON text of a document holds no decrement. -/
theorem neutral_json : ∀ d : Document, Neutral d.json
  | .null => rfl
  | .bool true => rfl
  | .bool false => rfl
  | .int n => (signed_int n).neutral
  | .float x => (signed_float x).neutral
  | .str s => neutral_encode s
  | .bytes bs => by
    rw [Document.json]
    exact (show Neutral ['['] from rfl).append (neutral_jsonBytes bs)
  | .seq items => by
    rw [Document.json]
    exact (show Neutral ['['] from rfl).append (neutral_jsonItems items)
  | .map entries => by
    rw [Document.json]
    exact (show Neutral ['\x7b'] from rfl).append (neutral_jsonEntries entries)
  | .unreadable => rfl

/-- The items of a list and their commas. -/
theorem neutral_jsonItems : ∀ ds : List Document, Neutral (Document.jsonItems ds)
  | [] => rfl
  | [d] => (neutral_json d).append (rfl)
  | d :: d' :: ds => (neutral_json d).append
    ((show Neutral [','] from rfl).append (neutral_jsonItems (d' :: ds)))

/-- The entries of a map with their colons and commas. -/
theorem neutral_jsonEntries : ∀ es : List (Document × Document), Neutral (Document.jsonEntries es)
  | [] => rfl
  | [(k, d)] => (neutral_json k).append ((show Neutral [':'] from rfl).append
    ((neutral_json d).append (rfl)))
  | (k, d) :: e :: es => (neutral_json k).append ((show Neutral [':'] from rfl).append
    ((neutral_json d).append
      ((show Neutral [','] from rfl).append (neutral_jsonEntries (e :: es)))))

end

end Render

namespace Value

open Render

/-- Whether the value is a number that is written with a minus sign.  An infinity is written as
`null`, a negative zero has its sign. -/
def isNegative : Value → Bool
  | int n => n < 0
  | float x => !x.isNaN && !x.isInf && (FloatParts.ofFloat x).negative
  | _ => false

/-- The text of a value holds no decrement, and begins with a minus sign exactly if the value is a
number with one. -/
theorem signed_jsonText (v : Value) : Signed v.isNegative v.jsonText.toList := by
  rw [jsonText, Document.jsonText, String.toList_ofList]
  cases v with
  | null => exact (show Plain "null".toList by simp [Plain]).signed (by simp)
  | bool b =>
    cases b
    · exact (show Plain "false".toList by simp [Plain]).signed (by simp)
    · exact (show Plain "true".toList by simp [Plain]).signed (by simp)
  -- The sign of an integer is that of its decimal text
  | int n =>
    rw [isNegative, decide_eq_decide.2 Int64.lt_iff_toInt_lt]
    exact signed_int n.toInt
  | float x => exact signed_float x
  | str s => exact ⟨neutral_encode s, by simp [toDocument, Document.json, Quoted.encode],
      by simp [toDocument, Document.json, Quoted.encode, isNegative]⟩
  | list items => exact ⟨neutral_json (.seq (itemDocuments items)),
      by simp [toDocument, Document.json], by simp [toDocument, Document.json, isNegative]⟩
  | dict entries => exact ⟨neutral_json (.map (entryDocuments entries)),
      by simp [toDocument, Document.json], by simp [toDocument, Document.json, isNegative]⟩

end Value

end ReactiveState
