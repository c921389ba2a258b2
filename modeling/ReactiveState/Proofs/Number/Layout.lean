import ReactiveState.Proofs.Number.Digits
import ReactiveState.Proofs.Number.Numeral
import ReactiveState.Proofs.Number.Shortest

/-!
# Layouts keep the number

A layout writes digits `d₁…dₖ` with the point before digit `n + 1`.  Read as a numeral, the text
denotes `± 0.d₁…dₖ · 10 ^ n`, whichever of the four forms it has (`layout_keeps_number`).  Each form
has a lemma that gives its numeral (`lays_whole`, `lays_split`, `lays_small`, `lays_exponential`).

The digits of a double are those of a shortest decimal.  They are significant, so that the text of
the double is a numeral of a decimal that rounds to it (`text_eq`).
-/

namespace ReactiveState

namespace NumberFormat

open Numeral (IsDigits signText)

/-- Digits of which none is superfluous: there is one at least, and no zero at either end. -/
structure Significant (digits : List Char) : Prop where
  isDigits : IsDigits digits
  head?_ne : digits.head? ≠ some '0'
  getLast?_ne : digits.getLast? ≠ some '0'

/-- The numeral is one of `± 0.d₁…dₖ · 10 ^ n`, which is said of its digits and the place of its
point, and it has the parts that it is to have. -/
structure Lays (m : Numeral) (negative : Bool) (digits : List Char) (n : Int) : Prop where
  wellFormed : m.WellFormed
  negative_eq : m.negative = negative
  /-- The numeral has the given digits, and perhaps zeros behind them. -/
  exists_zeros : ∃ zeros : Nat,
    digitsValue (m.whole ++ m.fraction.getD []) = digitsValue digits * 10 ^ zeros ∧
    m.exponent.getD 0 - (m.fraction.getD []).length + zeros = n - digits.length
  exponent_eq_none_iff : m.exponent = none ↔ -6 < n ∧ n ≤ 21
  whole_eq : m.whole.head? = some '0' → m.whole = ['0']
  fraction_ne : ∀ ds ∈ m.fraction, ds.getLast? ≠ some '0'

variable {m : Numeral} {negative : Bool} {digits : List Char} {n : Int}

theorem Lays.value_eq (h : Lays m negative digits n) :
    m.value =
      (if negative then -1 else 1) * (digitsValue digits / 10 ^ digits.length * 10 ^ n) := by
  obtain ⟨zeros, hdigits, hexponent⟩ := h.exists_zeros
  have hn : n = m.exponent.getD 0 - (m.fraction.getD []).length + zeros + digits.length := by omega
  rw [m.value_eq, hdigits, h.negative_eq, hn, zpow_add₀ (by norm_num), zpow_add₀ (by norm_num),
    zpow_natCast, zpow_natCast]
  push_cast
  field_simp

/-! ### The four forms -/

theorem isDigit_zeros (k : Nat) : ∀ c ∈ List.replicate k '0', c.isDigit = true := fun c hc => by
  rw [List.eq_of_mem_replicate hc]
  rfl

/-- A whole number: zeros fill up the digits. -/
theorem lays_whole (h : Significant digits) (hlow : digits.length ≤ n) (hhigh : n ≤ 21) :
    Lays ⟨negative, digits ++ List.replicate (n - digits.length).toNat '0', none, none⟩
      negative digits n where
  wellFormed := by
    refine ⟨⟨by simp [h.isDigits.1], ?_⟩, by simp⟩
    exact List.forall_mem_append.2 ⟨h.isDigits.2, isDigit_zeros _⟩
  negative_eq := rfl
  exists_zeros := by
    refine ⟨(n - digits.length).toNat, ?_, ?_⟩
    · simp [Numeral.digitsValue_append, Numeral.digitsValue_zeros]
    · simp only [Option.getD_none, List.length_nil]
      omega
  exponent_eq_none_iff := by simpa using ⟨by omega, hhigh⟩
  whole_eq hzero := by
    -- The first digit is a significant one, which is not zero
    rw [List.head?_append_of_ne_nil _ h.isDigits.1] at hzero
    exact absurd hzero h.head?_ne
  fraction_ne := by simp

/-- The point stands between two digits. -/
theorem lays_split (h : Significant digits) (hpos : 0 < n) (hlow : n < digits.length)
    (hhigh : n ≤ 21) :
    Lays ⟨negative, digits.take n.toNat, some (digits.drop n.toNat), none⟩ negative digits n where
  wellFormed := by
    refine ⟨⟨?_, fun c hc => h.isDigits.2 c (List.mem_of_mem_take hc)⟩, ?_⟩
    · simpa using ⟨hpos, h.isDigits.1⟩
    · simp only [Option.mem_def, Option.some.injEq]
      rintro _ rfl
      exact ⟨by simp; omega, fun c hc => h.isDigits.2 c (List.mem_of_mem_drop hc)⟩
  negative_eq := rfl
  exists_zeros := by
    -- No zeros are added: the digits are only cut in two
    refine ⟨0, by simp, ?_⟩
    simp only [Option.getD_none, Option.getD_some, List.length_drop]
    omega
  exponent_eq_none_iff := by simpa using ⟨by omega, hhigh⟩
  whole_eq hzero := by
    rw [List.head?_take, if_neg (by omega)] at hzero
    exact absurd hzero h.head?_ne
  fraction_ne := by
    simp only [Option.mem_def, Option.some.injEq]
    rintro _ rfl
    -- The last digit behind the point is the last significant one
    rw [List.getLast?_drop, if_neg (by omega)]
    exact h.getLast?_ne

/-- A number below one: zeros stand between the point and the digits. -/
theorem lays_small (h : Significant digits) (hlow : -6 < n) (hhigh : n ≤ 0) :
    Lays ⟨negative, ['0'], some (List.replicate (-n).toNat '0' ++ digits), none⟩
      negative digits n where
  wellFormed := by
    refine ⟨⟨by simp, by simp⟩, ?_⟩
    simp only [Option.mem_def, Option.some.injEq]
    rintro _ rfl
    exact ⟨by simp [h.isDigits.1], List.forall_mem_append.2 ⟨isDigit_zeros _, h.isDigits.2⟩⟩
  negative_eq := rfl
  exists_zeros := by
    refine ⟨0, ?_, ?_⟩
    · -- The zeros in front do not change the value of the digits
      have hzeros : digitsValue (['0'] ++ List.replicate (-n).toNat '0') = 0 :=
        Numeral.digitsValue_zeros ((-n).toNat + 1)
      rw [Option.getD_some, ← List.append_assoc, Numeral.digitsValue_append, hzeros, Nat.zero_mul,
        Nat.zero_add, pow_zero, Nat.mul_one]
    · simp only [Option.getD_none, Option.getD_some, List.length_append, List.length_replicate]
      omega
  exponent_eq_none_iff := by simpa using ⟨hlow, by omega⟩
  whole_eq _ := rfl
  fraction_ne := by
    simp only [Option.mem_def, Option.some.injEq]
    rintro _ rfl
    rw [List.getLast?_append_of_ne_nil _ h.isDigits.1]
    exact h.getLast?_ne

/-- One digit before the point, and the place of the point as an exponent. -/
theorem lays_exponential {d : Char} {ds : List Char} (h : Significant (d :: ds))
    (hn : ¬ (-6 < n ∧ n ≤ 21)) :
    Lays ⟨negative, [d], if ds = [] then none else some ds, some (n - 1)⟩
      negative (d :: ds) n where
  wellFormed := by
    obtain ⟨hd, hds⟩ := List.forall_mem_cons.1 h.isDigits.2
    refine ⟨⟨by simp, by simpa using hd⟩, ?_⟩
    -- Without further digits there is no point
    by_cases hnil : ds = []
    · simp [hnil]
    · simpa [hnil] using ⟨hnil, hds⟩
  negative_eq := rfl
  exists_zeros := by
    refine ⟨0, ?_, ?_⟩
    · by_cases hnil : ds = [] <;> simp [hnil]
    · by_cases hnil : ds = []
      · simp [hnil]
      · simp only [hnil, if_false, Option.getD_some, List.length_cons]
        omega
  exponent_eq_none_iff := by simpa using hn
  whole_eq hzero := by
    obtain rfl : d = '0' := Option.some.inj hzero
    rfl
  fraction_ne := by
    by_cases hnil : ds = []
    · simp [hnil]
    · have hlast := h.getLast?_ne
      rw [List.getLast?_cons_of_ne_nil hnil] at hlast
      simpa [hnil] using hlast

/-! ### Layouts as numerals -/

theorem text_exponential (d : Char) (ds : List Char) (e : Int) :
    (⟨negative, [d], if ds = [] then none else some ds, some e⟩ : Numeral).text =
      signText negative ++ (mantissaText (d :: ds) ++
        'e' :: (if e < 0 then '-' else '+') :: Nat.toDigits 10 e.natAbs) := by
  cases ds <;> simp [Numeral.text, Numeral.fractionText, Numeral.exponentText,
    mantissaText]

/-- The layout of significant digits is a numeral. -/
theorem exists_lays (negative : Bool) (h : Significant digits) (n : Int) :
    ∃ m : Numeral, m.text = signText negative ++ scriptNumber.layout digits n ∧
      Lays m negative digits n := by
  have hbounds : scriptNumber.low = -6 ∧ scriptNumber.high = 21 := ⟨rfl, rfl⟩
  have hmark : scriptNumber.whole = [] := rfl
  simp only [layout, hbounds.1, hbounds.2, hmark, List.append_nil]
  by_cases hn : -6 < n ∧ n ≤ 21
  · rw [if_pos hn]
    -- Positional: the point stands behind the digits, between them or before them
    by_cases hwhole : (digits.length : Int) ≤ n
    · rw [if_pos hwhole]
      exact ⟨_, by simp [Numeral.text, Numeral.fractionText, Numeral.exponentText],
        lays_whole h hwhole hn.2⟩
    · rw [if_neg hwhole]
      by_cases hpos : 0 < n
      · rw [if_pos hpos]
        exact ⟨_, by simp [Numeral.text, Numeral.fractionText, Numeral.exponentText],
          lays_split h hpos (by omega) hn.2⟩
      · rw [if_neg hpos]
        exact ⟨_, by simp [Numeral.text, Numeral.fractionText, Numeral.exponentText],
          lays_small h hn.1 (by omega)⟩
  · rw [if_neg hn]
    -- Outside the bounds the number is written with an exponent
    obtain ⟨d, ds, rfl⟩ := List.exists_cons_of_ne_nil h.isDigits.1
    exact ⟨_, text_exponential d ds (n - 1), lays_exponential h hn⟩

/-- The text is a numeral of `± 0.d₁…dₖ · 10 ^ n`: positional for `-6 < n ≤ 21` and exponential for
all other `n`, with no zero that leads the whole part, unless this is `0`, or ends the fraction. -/
def Denotes (text : List Char) (negative : Bool) (digits : List Char) (n : Int) : Prop :=
  ∃ m, Numeral.read? text = some m ∧ m.negative = negative ∧
    m.value = (if negative then -1 else 1) * (digitsValue digits / 10 ^ digits.length * 10 ^ n) ∧
    (m.exponent = none ↔ -6 < n ∧ n ≤ 21) ∧
    (m.whole.head? = some '0' → m.whole = ['0']) ∧
    ∀ ds ∈ m.fraction, ds.getLast? ≠ some '0'

theorem denotes_layout (negative : Bool) (h : Significant digits) (n : Int) :
    Denotes (signText negative ++ scriptNumber.layout digits n) negative digits n := by
  obtain ⟨m, htext, hlays⟩ := exists_lays negative h n
  refine ⟨m, ?_, hlays.negative_eq, hlays.value_eq, hlays.exponent_eq_none_iff, hlays.whole_eq,
    hlays.fraction_ne⟩
  rw [← htext]
  exact Numeral.read?_text hlays.wellFormed

/-! ### Doubles -/

theorem getLast?_toDigits (n : Nat) :
    (Nat.toDigits 10 n).getLast? = some (Nat.digitChar (n % 10)) := by
  rw [Nat.toDigits_eq_if (by decide)]
  split
  · next hlt => rw [Nat.mod_eq_of_lt hlt, List.getLast?_singleton]
  · rw [List.getLast?_append_of_ne_nil _ (List.cons_ne_nil _ _), List.getLast?_singleton]

theorem significant_toDigits {k : Nat} (hpos : 0 < k) (hmod : k % 10 ≠ 0) :
    Significant (Nat.toDigits 10 k) where
  isDigits := Numeral.isDigits_toDigits k
  head?_ne := JsonReader.head?_toDigits k hpos
  getLast?_ne := by
    have hzero : ∀ d < 10, d ≠ 0 → Nat.digitChar d ≠ '0' := by decide
    rw [getLast?_toDigits]
    exact fun h => hzero _ (Nat.mod_lt _ (by decide)) hmod (Option.some.inj h)

/-- The decimal that a double is written with is a shortest one. -/
theorem isShortest_ofFloat (tie : Tie) {x : Float} (h : (FloatParts.ofFloat x).mantissa ≠ 0) :
    Decimal.IsShortest
      (Decimal.shortest tie (FloatParts.ofFloat x).mantissa (FloatParts.ofFloat x).exponent)
      (FloatParts.ofFloat x).mantissa (FloatParts.ofFloat x).exponent := by
  obtain ⟨hlow, hhigh⟩ := FloatParts.exponent_ofFloat_bounds x
  exact Decimal.isShortest_shortest tie (Nat.pos_of_ne_zero h) (FloatParts.mantissa_ofFloat_lt x)
    hlow hhigh

/-- The text of a double that is finite and not zero is the layout of significant digits, and the
number of these rounds to the double. -/
theorem text_eq {x : Float} (hnan : x.isNaN = false) (hinf : x.isInf = false)
    (hzero : (FloatParts.ofFloat x).mantissa ≠ 0) :
    ∃ digits n, Significant digits ∧
      (scriptNumber.text x).toList =
        signText (FloatParts.ofFloat x).negative ++ scriptNumber.layout digits n ∧
      Decimal.RoundsTo (digitsValue digits / 10 ^ digits.length * 10 ^ n)
        (FloatParts.ofFloat x).mantissa (FloatParts.ofFloat x).exponent := by
  have hshortest := isShortest_ofFloat scriptNumber.tie hzero
  refine ⟨(scriptNumber.digits (FloatParts.ofFloat x)).1,
    (scriptNumber.digits (FloatParts.ofFloat x)).2, ?_, ?_, ?_⟩
  · exact significant_toDigits (hshortest.coefficient_pos (Nat.pos_of_ne_zero hzero))
      hshortest.coefficient_mod_ten
  · simp only [text, hnan, hinf, Bool.false_eq_true, if_false, if_neg hzero, String.toList_ofList,
      signText]
  · -- The value of the digits scaled by the point is the shortest decimal of the double
    have hround := hshortest.roundsTo
    simp only [NumberFormat.digits, JsonReader.digitsValue_toDigits]
    rwa [zpow_add₀ (by norm_num), zpow_natCast, ← mul_assoc,
      div_mul_cancel₀ _ (by positivity)]

/-- A number that is turned into a string is laid out as a numeral of itself, whatever its digits
and wherever its point is; and the string of a double that is finite and not zero is such a layout,
of a decimal that rounds to the double. -/
theorem layout_keeps_number :
    (∀ (negative : Bool) (digits : List Char) (n : Int), Significant digits →
      Denotes (signText negative ++ scriptNumber.layout digits n) negative digits n) ∧
    ∀ x : Float, x.isNaN = false → x.isInf = false → (FloatParts.ofFloat x).mantissa ≠ 0 →
      ∃ digits n, Significant digits ∧
        Denotes (scriptNumber.text x).toList (FloatParts.ofFloat x).negative digits n ∧
        Decimal.RoundsTo (digitsValue digits / 10 ^ digits.length * 10 ^ n)
          (FloatParts.ofFloat x).mantissa (FloatParts.ofFloat x).exponent := by
  refine ⟨fun negative digits n h => denotes_layout negative h n, fun x hnan hinf hzero => ?_⟩
  -- The text of the double is the layout of its shortest decimal
  obtain ⟨digits, n, hdigits, htext, hround⟩ := text_eq hnan hinf hzero
  refine ⟨digits, n, hdigits, ?_, hround⟩
  rw [htext]
  exact denotes_layout _ hdigits n

/-- Both sides of the bounds: five or six zeros behind the point, and a whole number of twenty-one
or twenty-two digits; and a double whose text is one of them. -/
theorem layout_keeps_number_bounds :
    (Significant ['1', '2'] ∧ Denotes "-0.0000012".toList true ['1', '2'] (-5) ∧
      Denotes "1.2e-7".toList false ['1', '2'] (-6) ∧
      Denotes "120000000000000000000".toList false ['1', '2'] 21 ∧
      Denotes "-1.2e+21".toList true ['1', '2'] 22) ∧
    scriptNumber.text (-1.2e21) = "-1.2e+21" ∧
      ∃ digits n, Significant digits ∧ Denotes "-1.2e+21".toList true digits n := by
  have h : Significant ['1', '2'] := ⟨⟨by simp, by simp⟩, by decide, by decide⟩
  have htext : scriptNumber.text (-1.2e21) = "-1.2e+21" := rfl
  obtain ⟨hdenotes, hdouble⟩ := layout_keeps_number
  -- The texts are evaluated, and what they denote is read off the theorem
  have hlayout : ∀ {negative : Bool} {n : Int} {text : String},
      signText negative ++ scriptNumber.layout ['1', '2'] n = text.toList →
        Denotes text.toList negative ['1', '2'] n := fun heq => heq ▸ hdenotes _ _ _ h
  obtain ⟨digits, n, hdigits, hread, -⟩ := hdouble (-1.2e21) rfl rfl (by decide)
  rw [htext] at hread
  exact ⟨⟨h, hlayout rfl, hlayout rfl, hlayout rfl, hlayout rfl⟩, htext, digits, n, hdigits, hread⟩

end NumberFormat

end ReactiveState
