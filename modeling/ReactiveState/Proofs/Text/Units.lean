import Mathlib.Data.String.Basic
import ReactiveState.Proofs.Expr.Integers

/-!
# Texts in units of 16 bits

A client counts and compares texts in UTF-16: a character is one unit of 16 bits, or from `0x10000`
on a pair of surrogates.  Evaluation counts and compares characters.

* `length_units`: the two counts differ by the number of pairs,
* `lt_iff_units_lt` and `lt_iff_units_gt`: the two orders are the same, unless at the first
  difference a pair meets a character from `0xE000` to `0xFFFF` (`Crossed`); there a pair comes
  first in units and last by character,
* `Expr.length_order_units` says both of evaluation.
-/

namespace ReactiveState

namespace Text

/-- The UTF-16 units of a character: itself, or a pair of surrogates. -/
def unitsOf (c : Char) : List Nat :=
  if c.toNat < 0x10000 then [c.toNat]
  else [0xD800 + (c.toNat - 0x10000) / 0x400, 0xDC00 + (c.toNat - 0x10000) % 0x400]

/-- The UTF-16 units of a text. -/
def units (s : String) : List Nat :=
  s.toList.flatMap unitsOf

/-- The one character is a pair of surrogates, and the other has a place behind all surrogates. -/
def Crosses (c d : Char) : Prop :=
  (0x10000 ≤ c.toNat ∧ 0xE000 ≤ d.toNat ∧ d.toNat < 0x10000) ∨
    (0x10000 ≤ d.toNat ∧ 0xE000 ≤ c.toNat ∧ c.toNat < 0x10000)

/-- The texts first differ in characters that cross. -/
def Crossed (s t : String) : Prop :=
  ∃ (same cs ds : List Char) (c d : Char),
    s.toList = same ++ c :: cs ∧ t.toList = same ++ d :: ds ∧ Crosses c d

theorem Crosses.symm {c d : Char} (h : Crosses c d) : Crosses d c :=
  Or.symm h

theorem Crosses.ne {c d : Char} (h : Crosses c d) : c ≠ d := by
  rintro rfl
  unfold Crosses at h
  omega

theorem Crossed.symm {s t : String} (h : Crossed s t) : Crossed t s := by
  obtain ⟨same, cs, ds, c, d, hs, ht, hcd⟩ := h
  exact ⟨same, ds, cs, d, c, ht, hs, hcd.symm⟩

/-- Only texts with pairs cross. -/
theorem not_crossed {s t : String} (hs : ∀ c ∈ s.toList, c.toNat < 0x10000)
    (ht : ∀ c ∈ t.toList, c.toNat < 0x10000) : ¬ Crossed s t := by
  rintro ⟨same, cs, ds, c, d, hsc, htd, hcd⟩
  have hc : c.toNat < 0x10000 := hs c (by simp [hsc])
  have hd : d.toNat < 0x10000 := ht d (by simp [htd])
  unfold Crosses at hcd
  omega

/-! ### Counting -/

/-- A text has a unit for each character, and another one for each character beyond U+FFFF. -/
theorem length_units (s : String) :
    (units s).length = s.length + s.toList.countP (0x10000 ≤ ·.toNat) := by
  rw [units, ← String.length_toList]
  induction s.toList with
  | nil => rfl
  | cons c cs ih =>
    rw [List.flatMap_cons, List.length_append, ih, List.countP_cons, List.length_cons]
    -- A character is one unit or two
    by_cases hc : c.toNat < 0x10000
    · have hone : ¬ 0x10000 ≤ c.toNat := not_le.2 hc
      simp only [unitsOf, hc, hone, ↓reduceIte, decide_false, Bool.false_eq_true, List.length_cons,
        List.length_nil]
      omega
    · have htwo : 0x10000 ≤ c.toNat := not_lt.1 hc
      simp only [unitsOf, hc, htwo, ↓reduceIte, decide_true, List.length_cons, List.length_nil]
      omega

theorem length_units_eq_iff (s : String) :
    (units s).length = s.length ↔ ∀ c ∈ s.toList, c.toNat < 0x10000 := by
  rw [length_units, Nat.add_eq_left, List.countP_eq_zero]
  simp

/-! ### Comparing -/

/-- Which numbers characters have: none of them is a surrogate. -/
theorem toNat_range (c : Char) :
    c.toNat < 0xD800 ∨ (0xE000 ≤ c.toNat ∧ c.toNat < 0x110000) := by
  have hvalid := c.valid
  have hval : c.val.toNat = c.toNat := rfl
  unfold UInt32.isValidChar Nat.isValidChar at hvalid
  omega

theorem char_lt_iff {c d : Char} : c < d ↔ c.toNat < d.toNat := Iff.rfl

theorem append_lt_append_iff {α : Type} [LinearOrder α] (same xs ys : List α) :
    same ++ xs < same ++ ys ↔ xs < ys := by
  induction same with
  | nil => rfl
  | cons a same ih => simp [ih]

/-- Characters that are different and do not cross are in the order of their units. -/
theorem append_unitsOf_lt_iff {c d : Char} (hne : c ≠ d) (hno : ¬ Crosses c d) (xs ys : List Nat) :
    unitsOf c ++ xs < unitsOf d ++ ys ↔ c < d := by
  have hneNat : c.toNat ≠ d.toNat := fun h => hne (Char.toNat_inj.1 h)
  have hc := toNat_range c
  have hd := toNat_range d
  rw [char_lt_iff]
  unfold Crosses at hno
  unfold unitsOf
  split <;> split <;> simp only [List.cons_append, List.nil_append, List.cons_lt_cons_iff] <;> omega

/-- Characters that cross are in the opposite order of their units. -/
theorem append_unitsOf_lt_iff_of_crosses {c d : Char} (h : Crosses c d) (xs ys : List Nat) :
    unitsOf c ++ xs < unitsOf d ++ ys ↔ d < c := by
  have hc := toNat_range c
  have hd := toNat_range d
  rw [char_lt_iff]
  unfold Crosses at h
  unfold unitsOf
  split <;> split <;> simp only [List.cons_append, List.nil_append, List.cons_lt_cons_iff] <;> omega

/-- The order of units is that of characters, if the texts do not cross. -/
theorem lt_iff_units_lt {s t : String} (hno : ¬ Crossed s t) : s < t ↔ units s < units t := by
  unfold Crossed at hno
  rw [String.lt_iff]
  unfold units
  generalize s.toList = cs at hno ⊢
  generalize t.toList = ds at hno ⊢
  induction cs generalizing ds with
  | nil =>
    cases ds with
    | nil => simp
    | cons d ds =>
      -- A character has at least one unit, so no text but the empty one is without units
      have hunits : [] < unitsOf d ++ ds.flatMap unitsOf := by
        unfold unitsOf
        split <;> exact List.nil_lt_cons _ _
      simpa using hunits
  | cons c cs ih =>
    cases ds with
    | nil => simp
    | cons d ds =>
      rw [List.flatMap_cons, List.flatMap_cons]
      by_cases hcd : c = d
      · -- Texts with the same first character are compared further on
        subst hcd
        rw [append_lt_append_iff, List.cons_lt_cons_iff, ← ih]
        · simp
        · rintro ⟨same, cs', ds', c', d', rfl, rfl, h⟩
          exact hno ⟨c :: same, cs', ds', c', d', rfl, rfl, h⟩
      · -- The first characters decide, as their units do
        have hno : ¬ Crosses c d := fun h => hno ⟨[], cs, ds, c, d, rfl, rfl, h⟩
        rw [append_unitsOf_lt_iff hcd hno, List.cons_lt_cons_iff]
        simp [hcd]

/-- Of texts that cross, the one that comes first by characters comes last by units. -/
theorem lt_iff_units_gt {s t : String} (h : Crossed s t) : s < t ↔ units t < units s := by
  obtain ⟨same, cs, ds, c, d, hs, ht, hcd⟩ := h
  rw [String.lt_iff, units, units, hs, ht, List.flatMap_append, List.flatMap_append,
    append_lt_append_iff, append_lt_append_iff, List.flatMap_cons, List.flatMap_cons,
    append_unitsOf_lt_iff_of_crosses hcd.symm, List.cons_lt_cons_iff]
  simp [hcd.ne]

end Text

/-! ### Expressions -/

namespace Expr

open Text (units Crossed)

variable {source : FieldKey → Evaluated} {l r : Expr} {a b : String}

/-- The comparisons of two expressions come out as those of two sequences. -/
structure ComparesAs (source : FieldKey → Evaluated) (l r : Expr) (xs ys : List Nat) : Prop where
  lt (t : ValueType) : (binary .lt l r t).evalWith source = .ok (.bool (decide (xs < ys)))
  le (t : ValueType) : (binary .le l r t).evalWith source = .ok (.bool (decide (xs ≤ ys)))
  gt (t : ValueType) : (binary .gt l r t).evalWith source = .ok (.bool (decide (ys < xs)))
  ge (t : ValueType) : (binary .ge l r t).evalWith source = .ok (.bool (decide (ys ≤ xs)))

/-- Texts compare as sequences that are in the same order. -/
theorem comparesAs_of_lt_iff {xs ys : List Nat} (hl : l.evalWith source = .ok (.str a))
    (hr : r.evalWith source = .ok (.str b)) (hlt : a < b ↔ xs < ys) (hgt : b < a ↔ ys < xs) :
    ComparesAs source l r xs ys := by
  have hle : a ≤ b ↔ xs ≤ ys := by rw [← not_lt, ← not_lt, hgt]
  have hge : b ≤ a ↔ ys ≤ xs := by rw [← not_lt, ← not_lt, hlt]
  -- The four comparisons ask for one result of `compare` or against one
  constructor <;> intro t <;> rw [evalWith_binary_of_ok hl hr]
  · have hcompare : (compare a b == .lt) = decide (xs < ys) := by
      rw [Bool.eq_iff_iff, decide_eq_true_eq, ← hlt, beq_iff_eq, compare_lt_iff_lt]
    rw [← hcompare]
    rfl
  · have hcompare : (compare a b != .gt) = decide (xs ≤ ys) := by
      rw [Bool.eq_iff_iff, decide_eq_true_eq, ← hle, bne_iff_ne, compare_le_iff_le]
    rw [← hcompare]
    rfl
  · have hcompare : (compare a b == .gt) = decide (ys < xs) := by
      rw [Bool.eq_iff_iff, decide_eq_true_eq, ← hgt, beq_iff_eq, compare_gt_iff_gt]
    rw [← hcompare]
    rfl
  · have hcompare : (compare a b != .lt) = decide (ys ≤ xs) := by
      rw [Bool.eq_iff_iff, decide_eq_true_eq, ← hge, bne_iff_ne, compare_ge_iff_ge]
    rw [← hcompare]
    rfl

/-- A text is evaluated to be as long as it has characters, which is the number of its units exactly
if each of them is one unit.  Texts compare as their units do, except for texts that cross, which
compare the other way round. -/
theorem length_order_units (hl : l.evalWith source = .ok (.str a))
    (hr : r.evalWith source = .ok (.str b)) (t : ValueType) :
    (unary .length l t).evalWith source = .ok (.int (Int64.ofNat a.length)) ∧
      (units a).length = a.length + a.toList.countP (0x10000 ≤ ·.toNat) ∧
      ((units a).length = a.length ↔ ∀ c ∈ a.toList, c.toNat < 0x10000) ∧
      (¬ Crossed a b → ComparesAs source l r (units a) (units b)) ∧
      (Crossed a b → ComparesAs source l r (units b) (units a)) := by
  refine ⟨?_, Text.length_units a, Text.length_units_eq_iff a, fun hno => ?_, fun h => ?_⟩
  · rw [evalWith_unary_of_ok hl, ← String.length_toList]
    rfl
  · -- Both directions of the order follow, as texts that do not cross do not cross the other way
    -- round either
    exact comparesAs_of_lt_iff hl hr (Text.lt_iff_units_lt hno)
      (Text.lt_iff_units_lt fun h => hno h.symm)
  · exact comparesAs_of_lt_iff hl hr (Text.lt_iff_units_gt h) (Text.lt_iff_units_gt h.symm)

/-- A word with an accent is three characters and three units long, and the accent puts it behind
every letter without one. -/
theorem length_order_units_accent :
    let x : Expr := .literal (.str "zoë")
    let y : Expr := .literal (.str "zoo")
    (unary .length x .int).evalConstant = .ok (.int 3) ∧ (units "zoë").length = 3 ∧
      (binary .lt x y .bool).evalConstant = .ok (.bool false) := by
  intro x y
  let noFields : FieldKey → Evaluated := fun k => throw (.unknownField k)
  obtain ⟨hlength, -, hcount, hordered, -⟩ := @length_order_units noFields x y _ _ rfl rfl .int
  -- No character of either is beyond U+FFFF
  have hno : ¬ Crossed "zoë" "zoo" := Text.not_crossed (by simp) (by simp)
  refine ⟨hlength, hcount.2 (by simp), ((hordered hno).lt .bool).trans ?_⟩
  have hunits : ¬ units "zoë" < units "zoo" := by decide
  rw [decide_eq_false hunits]

/-- A pair counts as one character, and it comes behind the last of the single units though its own
units come first. -/
theorem pair_counted_once_placed_last :
    let pair : Expr := .literal (.str "😀")
    let last : Expr := .literal (.str "\uffff")
    (unary .length pair .int).evalConstant = .ok (.int 1) ∧ (units "😀").length = 2 ∧
      (binary .lt last pair .bool).evalConstant = .ok (.bool true) ∧
      ¬ units "\uffff" < units "😀" :=
  ⟨rfl, rfl, rfl, by decide⟩

end Expr

end ReactiveState
