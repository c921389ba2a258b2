import Mathlib.Algebra.Field.Rat
import Mathlib.Tactic.FieldSimp
import Mathlib.Tactic.Ring
import ReactiveState.Number.Reading
import ReactiveState.Proofs.Document.Json

/-!
# Decimal numerals

A `Numeral` has a sign, digits before the point, perhaps digits behind it, and perhaps an exponent.
`read?` takes a text apart into these, and `value` is the number that they denote, as a fraction and
not as the double nearest to it.

* `read?_text`  a numeral that is written is read back,
* `value_eq`    its value is that of all its digits, with the point put behind them.
-/

namespace ReactiveState

/-- A decimal numeral. -/
structure Numeral where
  negative : Bool
  /-- The digits before the point. -/
  whole : List Char
  /-- The digits behind the point, if there is one. -/
  fraction : Option (List Char)
  /-- The power of ten, if one is written. -/
  exponent : Option Int
deriving DecidableEq, Repr

namespace Numeral

/-- The number that is denoted. -/
def value (m : Numeral) : ℚ :=
  (if m.negative then -1 else 1) *
    (digitsValue m.whole + digitsValue (m.fraction.getD []) / 10 ^ (m.fraction.getD []).length) *
    10 ^ m.exponent.getD 0

/-! ### Reading -/

/-- A sign, if there is one, and the rest. -/
def readSign : List Char → Bool × List Char
  | '-' :: cs => (true, cs)
  | '+' :: cs => (false, cs)
  | cs => (false, cs)

/-- All digits at the front, at least one, and the rest. -/
def readDigits? (cs : List Char) : Option (List Char × List Char) :=
  let digits := cs.takeWhile Char.isDigit
  if digits.isEmpty then none else some (digits, cs.dropWhile Char.isDigit)

/-- A point with digits, if there is one, and the rest. -/
def readFraction? : List Char → Option (Option (List Char) × List Char)
  | '.' :: cs => (readDigits? cs).map fun (digits, cs) => (some digits, cs)
  | cs => some (none, cs)

/-- The letter of an exponent with a sign and digits, if there is one, and the rest. -/
def readExponent? : List Char → Option (Option Int × List Char)
  | 'e' :: cs =>
    let (negative, cs) := readSign cs
    (readDigits? cs).map fun (digits, cs) =>
      (some (if negative then -(digitsValue digits : Int) else digitsValue digits), cs)
  | cs => some (none, cs)

/-- Reads a whole text. -/
def read? (text : List Char) : Option Numeral := do
  let (negative, cs) := readSign text
  let (whole, cs) ← readDigits? cs
  let (fraction, cs) ← readFraction? cs
  let (exponent, cs) ← readExponent? cs
  if cs.isEmpty then some ⟨negative, whole, fraction, exponent⟩ else none

/-! ### Writing -/

/-- At least one character, and digits only. -/
def IsDigits (cs : List Char) : Prop := cs ≠ [] ∧ ∀ c ∈ cs, c.isDigit = true

/-- The parts are such that they can be written. -/
structure WellFormed (m : Numeral) : Prop where
  whole : IsDigits m.whole
  fraction : ∀ digits ∈ m.fraction, IsDigits digits

/-- A minus sign for a negative number, none for others. -/
def signText (negative : Bool) : List Char := if negative then ['-'] else []

/-- The point and what stands behind it. -/
def fractionText : Option (List Char) → List Char
  | none => []
  | some digits => '.' :: digits

/-- The exponent; its sign is always written. -/
def exponentText : Option Int → List Char
  | none => []
  | some e => 'e' :: (if e < 0 then '-' else '+') :: Nat.toDigits 10 e.natAbs

/-- The text of a numeral. -/
def text (m : Numeral) : List Char :=
  signText m.negative ++ (m.whole ++ (fractionText m.fraction ++ exponentText m.exponent))

variable {ds rest : List Char}

theorem isDigits_toDigits (n : Nat) : IsDigits (Nat.toDigits 10 n) :=
  ⟨Nat.toDigits_ne_nil, JsonReader.isDigit_toDigits n⟩

/-- Digits are read up to what is no digit. -/
theorem readDigits?_append (h : IsDigits ds) (hrest : ∀ c ∈ rest.head?, c.isDigit = false) :
    readDigits? (ds ++ rest) = some (ds, rest) := by
  have htake : rest.takeWhile Char.isDigit = [] := by cases rest <;> simp_all
  have hdrop : rest.dropWhile Char.isDigit = rest := by cases rest <;> simp_all
  have hne : ds.isEmpty = false := by simpa using h.1
  rw [readDigits?, List.takeWhile_append_of_pos h.2, List.dropWhile_append_of_pos h.2, htake, hdrop,
    List.append_nil]
  simp [hne]

/-- A text that begins with a digit has no sign. -/
theorem readSign_append (negative : Bool) (h : IsDigits ds) :
    readSign (signText negative ++ (ds ++ rest)) = (negative, ds ++ rest) := by
  obtain ⟨c, cs, rfl⟩ := List.exists_cons_of_ne_nil h.1
  have hdigit := h.2 c List.mem_cons_self
  cases negative with
  | true => rfl
  | false =>
    simp only [signText, Bool.false_eq_true, if_false, List.nil_append, List.cons_append, readSign]
    -- A digit is no sign
    split
    · next heq => simp_all
    · next heq => simp_all
    · rfl

/-- A point and the digits behind it are read up to the exponent. -/
theorem readFraction?_append {fraction : Option (List Char)} (h : ∀ ds ∈ fraction, IsDigits ds)
    (exponent : Option Int) :
    readFraction? (fractionText fraction ++ exponentText exponent) =
      some (fraction, exponentText exponent) := by
  -- What follows the digits begins with the mark of the exponent, if anything follows
  have hrest : ∀ c ∈ (exponentText exponent).head?, c.isDigit = false := by
    cases exponent <;> simp [exponentText]
  cases fraction with
  | none => cases exponent <;> rfl
  | some ds =>
    simp only [fractionText, List.cons_append, readFraction?,
      readDigits?_append (h ds rfl) hrest, Option.map_some]

/-- An exponent is read back, with either sign. -/
theorem readExponent?_exponentText (exponent : Option Int) :
    readExponent? (exponentText exponent) = some (exponent, []) := by
  cases exponent with
  | none => rfl
  | some e =>
    have hdigits : readDigits? (Nat.toDigits 10 e.natAbs ++ []) =
        some (Nat.toDigits 10 e.natAbs, []) :=
      readDigits?_append (isDigits_toDigits e.natAbs) (by simp)
    rw [List.append_nil] at hdigits
    -- The sign is always written, and the size behind it
    by_cases hneg : e < 0
    · simp only [exponentText, if_pos hneg, readExponent?, readSign, hdigits, Option.map_some,
        JsonReader.digitsValue_toDigits, if_true, Option.some.injEq, Prod.mk.injEq, and_true]
      omega
    · simp only [exponentText, if_neg hneg, readExponent?, readSign, hdigits, Option.map_some,
        JsonReader.digitsValue_toDigits, Bool.false_eq_true, if_false, Option.some.injEq,
        Prod.mk.injEq, and_true]
      omega

/-- What is written is read back. -/
theorem read?_text {m : Numeral} (h : m.WellFormed) : read? m.text = some m := by
  have hrest : ∀ c ∈ (fractionText m.fraction ++ exponentText m.exponent).head?,
      c.isDigit = false := by
    cases m.fraction <;> cases m.exponent <;> simp [fractionText, exponentText]
  simp only [read?, text, readSign_append m.negative h.whole, readDigits?_append h.whole hrest,
    readFraction?_append h.fraction, readExponent?_exponentText, Option.bind_eq_bind,
    Option.bind_some, List.isEmpty_nil, if_true]

/-! ### The value of digits -/

theorem digitsValue_append (ds rest : List Char) :
    digitsValue (ds ++ rest) = digitsValue ds * 10 ^ rest.length + digitsValue rest := by
  change Nat.ofDigitChars 10 (ds ++ rest) 0 = Nat.ofDigitChars 10 ds 0 * 10 ^ rest.length +
    Nat.ofDigitChars 10 rest 0
  rw [Nat.ofDigitChars_append, Nat.ofDigitChars_eq_ofDigitChars_zero, Nat.mul_comm]

theorem digitsValue_zeros (k : Nat) : digitsValue (List.replicate k '0') = 0 :=
  Nat.ofDigitChars_replicate_zero

/-- The value of a numeral is that of all its digits, with the point put behind them. -/
theorem value_eq (m : Numeral) :
    m.value = (if m.negative then -1 else 1) * digitsValue (m.whole ++ m.fraction.getD []) *
      10 ^ (m.exponent.getD 0 - (m.fraction.getD []).length) := by
  rw [value, digitsValue_append, zpow_sub₀ (by norm_num), zpow_natCast]
  push_cast
  field_simp

end Numeral

end ReactiveState
