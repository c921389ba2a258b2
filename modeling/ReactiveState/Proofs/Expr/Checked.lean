import ReactiveState.Proofs.Expr.Faults
import ReactiveState.Proofs.Number.Digits

/-!
# Operations never break down

Every operation that is applied to values of whatever kind ends without a fault, and with the
outcome that it has in the evaluation of expressions (`Checked.operation_unary`,
`Checked.operation_binary`).  What has to be shown are the bounds of all numbers on the way:
quotients and remainders, sizes of repetitions, positions, digits and exponents.
-/

namespace ReactiveState

namespace Checked

@[simp] theorem ok_bind {α β : Type} (a : α) (f : α → Except Fault β) : (.ok a >>= f) = f a := rfl

/-! ### Integers -/

/-- A result that fits is narrowed without a fault. -/
theorem narrow_of_int64? {n : Int} {k : Int64} (h : int64? n = some k) : narrow n = .ok k := by
  rw [narrow, h]

/-- An integer in range has a place among those of 64 bits. -/
theorem exists_int64? {n : Int} (hlow : -2 ^ 63 ≤ n) (hhigh : n < 2 ^ 63) :
    ∃ k : Int64, int64? n = some k ∧ k.toInt = n := by
  have hmin : Int64.minValue.toInt = -2 ^ 63 := rfl
  have hmax : Int64.maxValue.toInt = 2 ^ 63 - 1 := rfl
  have hk : int64? n = some (Int64.ofInt n) := by
    rw [int64?, if_pos ⟨by omega, by omega⟩]
  exact ⟨Int64.ofInt n, hk, int64?_eq_some_iff.1 hk⟩

/-- What does not fit lies outside of the range. -/
theorem int64?_eq_none {n : Int} (h : int64? n = none) : n < -2 ^ 63 ∨ 2 ^ 63 ≤ n := by
  by_contra hn
  obtain ⟨k, hk, -⟩ := exists_int64? (n := n) (by omega) (by omega)
  rw [h] at hk
  cases hk

/-- An operand lies in the range of 64 bits. -/
theorem toInt_bounds (a : Int64) : -2 ^ 63 ≤ a.toInt ∧ a.toInt < 2 ^ 63 :=
  ⟨Int64.le_toInt a, Int64.toInt_lt a⟩

/-- A divisor that is not zero is none as an integer either. -/
theorem toInt_ne_zero {b : Int64} (hb : b ≠ 0) : b.toInt ≠ 0 := by
  intro h
  exact hb (Int64.toInt_inj.1 h)

/-- Negative numbers are negative integers. -/
theorem lt_zero_iff (a : Int64) : a < 0 ↔ a.toInt < 0 := Int64.lt_iff_toInt_lt

/-- Truncating division rounds toward zero, so the floor is one below it where the quotient is
negative and not whole. -/
theorem fdiv_eq (a : Int) {b : Int} (hb : b ≠ 0) :
    a.fdiv b = if a.tmod b ≠ 0 ∧ decide (a < 0) ≠ decide (b < 0) then a.tdiv b - 1
      else a.tdiv b := by
  rw [Int.fdiv_eq_tdiv]
  have hdvd : b ∣ a ↔ a.tmod b = 0 := Int.dvd_iff_tmod_eq_zero
  -- The library's law asks for divisibility, and for the signs of dividend and divisor
  rcases lt_or_gt_of_ne hb with hb | hb
  · rw [Int.sign_eq_neg_one_of_neg hb]
    grind
  · rw [Int.sign_eq_one_of_pos hb]
    grind

/-- The quotient and the remainder are no larger than the dividend, and the quotient is smaller
where it is not whole. -/
theorem natAbs_tdiv_add (a : Int) {b : Int} (hb : b ≠ 0) :
    (a.tdiv b).natAbs + (a.tmod b).natAbs ≤ a.natAbs := by
  rw [Int.natAbs_tdiv, Int.natAbs_tmod]
  change a.natAbs / b.natAbs + a.natAbs % b.natAbs ≤ a.natAbs
  have hdivision := Nat.div_add_mod a.natAbs b.natAbs
  have hle : a.natAbs / b.natAbs ≤ b.natAbs * (a.natAbs / b.natAbs) :=
    Nat.le_mul_of_pos_left _ (Int.natAbs_pos.2 hb)
  omega

/-- Where the quotient fits, the remainder is computed without a fault. -/
theorem remainder_eq {a b quotient : Int64} (hb : b ≠ 0)
    (hquotient : int64? (a.toInt.tdiv b.toInt) = some quotient) :
    ∃ r : Int64, remainder a b = .ok r ∧ r.toInt = a.toInt.tmod b.toInt := by
  have hsize := natAbs_tdiv_add a.toInt (toInt_ne_zero hb)
  have hmod := Int.natAbs_tmod a.toInt b.toInt
  obtain ⟨hlow, hhigh⟩ := toInt_bounds a
  obtain ⟨hlow', hhigh'⟩ := toInt_bounds b
  -- The remainder is smaller than the divisor, whose size is at most `2 ^ 63`
  have hlt : a.toInt.natAbs % b.toInt.natAbs < b.toInt.natAbs :=
    Nat.mod_lt _ (Int.natAbs_pos.2 (toInt_ne_zero hb))
  obtain ⟨r, hr, hrInt⟩ := exists_int64? (n := a.toInt.tmod b.toInt) (by omega) (by omega)
  refine ⟨r, ?_, hrInt⟩
  rw [remainder, if_neg hb, narrow_of_int64? hquotient, narrow_of_int64? hr]
  rfl

/-- The quotient is corrected by one where the signs differ, and this never leaves the range. -/
theorem floorQuotient_eq (op : String) (a b : Int64) :
    floorQuotient op a b = .ok (Arithmetic.floorQuotient op a b) := by
  unfold floorQuotient Arithmetic.floorQuotient
  by_cases hb : b = 0
  · rw [if_pos hb, if_pos hb]
    rfl
  rw [if_neg hb, if_neg hb, Arithmetic.exact, fdiv_eq _ (toInt_ne_zero hb)]
  have hsize := natAbs_tdiv_add a.toInt (toInt_ne_zero hb)
  obtain ⟨hlow, hhigh⟩ := toInt_bounds a
  cases hquotient : int64? (a.toInt.tdiv b.toInt) with
  | none =>
    -- The quotient is all of the least integer, so there is no remainder
    have hlarge := int64?_eq_none hquotient
    have hmod : a.toInt.tmod b.toInt = 0 := by omega
    rw [if_neg (fun h => h.1 hmod), hquotient]
    rfl
  | some quotient =>
    obtain ⟨r, hr, hrInt⟩ := remainder_eq hb hquotient
    have hquotientInt := int64?_eq_some_iff.1 hquotient
    have hzero : r ≠ 0 ↔ a.toInt.tmod b.toInt ≠ 0 := by
      rw [← hrInt, not_iff_not]
      exact ⟨fun h => by rw [h]; rfl, fun h => Int64.toInt_inj.1 h⟩
    simp only [hr, lt_zero_iff, ok_bind]
    by_cases hadjust : a.toInt.tmod b.toInt ≠ 0 ∧ decide (a.toInt < 0) ≠ decide (b.toInt < 0)
    · obtain ⟨k, hk, -⟩ := exists_int64? (n := quotient.toInt - 1) (by omega)
        (by have := toInt_bounds quotient; omega)
      rw [if_pos hadjust, if_pos ⟨hzero.2 hadjust.1, hadjust.2⟩, ← hquotientInt, hk,
        narrow_of_int64? hk]
      rfl
    · rw [if_neg hadjust, if_neg fun h => hadjust ⟨hzero.1 h.1, h.2⟩, hquotient]
      rfl

/-! ### Repetitions and positions -/

/-- A repetition that is carried out is no longer than the limit. -/
theorem copies_le {op : String} {size k : Nat} {n : Int64} (h : Value.copies op size n = .ok k) :
    size * k ≤ Value.maxRepetition := by
  unfold Value.copies at h
  split at h
  · obtain rfl := Except.ok.inj h
    exact Nat.zero_le _
  · split at h
    · -- The check that was made is the bound
      next hle =>
      obtain rfl := Except.ok.inj h
      exact hle
    · cases h

/-- The size of a repetition is multiplied out only after it was compared with the limit. -/
theorem repeated_eq (op : String) (size : Nat) (n : Int64) (build : Nat → Value) :
    repeated op size n build = .ok ((Value.copies op size n).map build) := by
  unfold repeated
  cases h : Value.copies op size n with
  | error e => rfl
  | ok k =>
    -- The limit is far below the width of a size
    have hle := copies_le h
    have hmax : Value.maxRepetition = 2 ^ 20 := rfl
    have hsize : narrowSize (size * k) = .ok (size * k) := by
      rw [narrowSize, if_pos ⟨by omega, by omega⟩]
      rfl
    simp only [hsize, ok_bind, if_pos hle]
    rfl

/-- A negative index is counted from the end, and adding a length to it does not overflow. -/
theorem offset_eq (index : Int64) (length : Nat) :
    offset index length = .ok (if index < 0 then length + index.toInt else index.toInt) := by
  have hbounds := toInt_bounds index
  unfold offset
  by_cases hneg : index < 0
  · have hnegInt := (lt_zero_iff index).1 hneg
    rw [if_neg (Int64.not_le.2 hneg), if_pos hneg]
    split
    · -- A negative index and a length are on different sides of zero, so their sum is in range
      obtain ⟨k, hk, hkInt⟩ := exists_int64? (n := length + index.toInt) (by omega) (by omega)
      rw [narrow_of_int64? hk, ok_bind, hkInt]
      rfl
    · rfl
  · rw [if_pos (Int64.not_lt.1 hneg), if_neg hneg]

/-- Positions are computed without a fault; those outside are errors and not faults. -/
theorem position_eq (index : Int64) (length : Nat) :
    position index length = .ok (Value.position index length) := by
  unfold position Value.position
  rw [offset_eq, ok_bind]
  -- Only the position counted from the front matters from here on
  generalize (if index < 0 then (length : Int) + index.toInt else index.toInt) = i
  by_cases hin : 0 ≤ i ∧ i < length
  · rw [if_neg (by omega)]
    simp only [if_pos hin]
    rfl
  · rw [if_pos (by omega)]
    simp only [if_neg hin]
    rfl

/-- A position that was found is inside the container. -/
theorem position_lt {index : Int64} {length k : Nat} (h : Value.position index length = .ok k) :
    k < length := by
  unfold Value.position at h
  generalize (if index < 0 then (length : Int) + index.toInt else index.toInt) = i at h
  simp only at h
  split at h
  · obtain rfl := Except.ok.inj h
    omega
  · cases h

/-- Taking an element inside the list does not fault. -/
theorem elementAt_of_lt {α : Type} {xs : List α} {i : Nat} (h : i < xs.length) :
    elementAt xs i = .ok xs[i] := by
  rw [elementAt, List.getElem?_eq_getElem h]

/-- Indexing a list or a text does not fault.  Both go through `position`, which bounds the
index. -/
theorem indexed_eq (op : String) (container index : Value) :
    indexed op container index = .ok (Value.indexed op container index) := by
  unfold indexed
  split
  · next items i =>
    rw [position_eq, ok_bind, Value.indexed]
    cases hk : Value.position i items.length with
    | error e => rfl
    | ok k =>
      -- A position that is given is one inside the container
      have hlt := position_lt hk
      simp only [elementAt_of_lt hlt, List.getElem?_eq_getElem hlt, bind, Except.bind]
      rfl
  · next s i =>
    rw [position_eq, ok_bind, Value.indexed]
    cases hk : Value.position i s.toList.length with
    | error e => rfl
    | ok k =>
      have hlt := position_lt hk
      simp only [elementAt_of_lt hlt, List.getElem?_eq_getElem hlt, bind, Except.bind]
      rfl
  · rfl

/-! ### Numbers as text -/

/-- The exponent of a double is far inside the range that it is narrowed to. -/
theorem narrowHalf_of_bounds {n : Int} (hlow : -10000 ≤ n) (hhigh : n ≤ 10000) :
    narrowHalf n = .ok n := by
  rw [narrowHalf, if_pos ⟨by omega, by omega⟩]

/-- A number of digits or zeros is far inside the range that it is narrowed to. -/
theorem narrowSize_of_bounds {n : Int} (hlow : 0 ≤ n) (hhigh : n ≤ 10000) :
    narrowSize n = .ok n.toNat := by
  rw [narrowSize, if_pos ⟨hlow, by omega⟩]

/-- Cutting inside a text does not fault. -/
theorem cut_of_le {cs : List Char} {n : Nat} (h : n ≤ cs.length) :
    cut cs n = .ok (cs.take n, cs.drop n) := by
  rw [cut, if_pos h]

/-- A point stands behind the first digit if there are others. -/
theorem mantissaText_eq (c : Char) (cs : List Char) :
    NumberFormat.mantissaText (c :: cs) = if cs = [] then [c] else c :: '.' :: cs := by
  cases cs <;> rfl

/-- The text of a number is laid out without a fault, for as many digits and as large an exponent as
a double can have.  The four cases are the four forms of a number. -/
theorem layout_eq {digits : List Char} {n : Int} (hpos : 0 < digits.length)
    (hlength : digits.length ≤ 1500) (hlow : -1000 ≤ n) (hhigh : n ≤ 2500) :
    layout digits (n - 1) = .ok (scriptNumber.layout digits n) := by
  have hn : n - 1 + 1 = n := by omega
  have hscript : scriptNumber.low = -6 ∧ scriptNumber.high = 21 ∧ scriptNumber.whole = [] :=
    ⟨rfl, rfl, rfl⟩
  obtain ⟨c, cs, rfl⟩ := List.exists_cons_of_length_pos hpos
  unfold layout NumberFormat.layout
  rw [hscript.1, hscript.2.1, hscript.2.2, hn, narrowHalf_of_bounds (by omega) (by omega), ok_bind,
    narrowHalf_of_bounds (by omega) (by omega), ok_bind]
  -- A whole number, filled up with zeros
  by_cases hwhole : ((c :: cs).length : Int) ≤ n ∧ n ≤ 21
  · rw [if_pos hwhole, if_pos ⟨by omega, hwhole.2⟩, if_pos hwhole.1,
      narrowHalf_of_bounds (by omega) (by omega), ok_bind,
      narrowSize_of_bounds (by omega) (by omega), ok_bind, List.append_nil]
    rfl
  rw [if_neg hwhole]
  -- A point between two digits
  by_cases hpoint : 0 < n ∧ n ≤ 21
  · rw [if_pos hpoint, if_pos ⟨by omega, hpoint.2⟩, if_neg (by omega), if_pos hpoint.1,
      narrowSize_of_bounds (by omega) (by omega), ok_bind, cut_of_le (by omega), ok_bind]
    rfl
  rw [if_neg hpoint]
  -- Zeros between the point and the digits; all others have an exponent
  by_cases hsmall : -6 < n ∧ n ≤ 0
  · rw [if_pos hsmall, if_pos ⟨hsmall.1, by omega⟩, if_neg (by simp only [List.length_cons]; omega),
      if_neg (by omega), narrowHalf_of_bounds (by omega) (by omega), ok_bind,
      narrowSize_of_bounds (by omega) (by omega), ok_bind]
    rfl
  · rw [if_neg hsmall, if_neg (by omega), cut_of_le (by simp), ok_bind]
    simp only [List.take_succ_cons, List.take_zero, List.drop_succ_cons, List.drop_zero]
    rw [narrowHalf_of_bounds (by omega) (by omega), ok_bind,
      narrowHalf_of_bounds (by omega) (by omega), ok_bind, mantissaText_eq]
    split <;> rfl

/-- Doubles have few enough digits and small enough exponents for their texts to be laid out. -/
theorem numberText_eq (x : Float) : numberText x = .ok (scriptNumber.text x) := by
  obtain ⟨hpos, hlength, hlow, hhigh⟩ := scriptNumber.digits_bounds x
  unfold numberText
  -- Laying the digits out does not fault, and the other texts are fixed
  simp only [layout_eq hpos hlength hlow hhigh, ok_bind]
  split
  · rfl
  · next hfinite =>
    simp only [not_or] at hfinite
    rw [NumberFormat.text, if_neg hfinite.1, if_neg hfinite.2.1]
    simp only [if_neg hfinite.2.2]
    rfl

/-! ### Operations -/

/-- Operations on one operand do not fault. -/
theorem unary_eq (op : UnaryOp) (v : Value) : unary (.unary op) v = .ok (op.apply v) := by
  cases op with
  | stringify =>
    cases v with
    | float x =>
      simp only [unary, numberText_eq, ok_bind]
      rfl
    | _ => rfl
  | _ => rfl

/-- A repeated text, as `copies` of it; lists are likewise. -/
theorem repeatText_eq (op s : String) (n : Int64) :
    Value.repeatText op s n =
      (Value.copies op s.utf8ByteSize n).map fun k => .str (String.join (List.replicate k s)) := by
  unfold Value.repeatText
  cases Value.copies op s.utf8ByteSize n <;> rfl

theorem repeatItems_eq (op : String) (xs : List Value) (n : Int64) :
    Value.repeatItems op xs n =
      (Value.copies op xs.length n).map fun k => .list (List.replicate k xs).flatten := by
  unfold Value.repeatItems
  cases Value.copies op xs.length n <;> rfl

/-- Operations on two operands do not fault, operator by operator. -/
theorem binary_eq (op : BinaryOp) (a b : Value) : binary (.binary op) a b = .ok (op.apply a b) := by
  cases op with
  | mul => cases a <;> cases b <;> simp only [binary, BinaryOp.apply, repeated_eq, repeatText_eq,
      repeatItems_eq] <;> rfl
  | floorDiv => cases a <;> cases b <;> simp only [binary, BinaryOp.apply, floorQuotient_eq] <;> rfl
  | index => exact indexed_eq _ a b
  | _ => rfl

/-- With as many operands as the operator takes, none is missing. -/
theorem operation_unary (op : UnaryOp) (v : Value) :
    operation (.unary op) [v] = .ok (op.apply v) :=
  unary_eq op v

theorem operation_binary (op : BinaryOp) (a b : Value) :
    operation (.binary op) [a, b] = .ok (op.apply a b) :=
  binary_eq op a b

end Checked

end ReactiveState
