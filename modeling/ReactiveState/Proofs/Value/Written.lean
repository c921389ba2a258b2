import Mathlib
import ReactiveState.Slot
import ReactiveState.Value.Written

/-!
# The texts of equal values

Values are equal when they are the same but for the signs of zeros (`Value.eq_or_oppositeZeros`).
The text of a zero shows its sign, so equal values have one text exactly if no zero in the one faces
the other zero in the other (`Value.written_iff`).  A slot that takes a value for the one it sent
last therefore may have sent another text.

When two doubles are equal is known to the library (`Float.beq_iff_ne_nan_and_eq`); this part of it
comes with the whole of Mathlib only.
-/

namespace ReactiveState

namespace Value

/-- At one place the one value holds a zero and the other the zero of the other sign. -/
inductive OppositeZeros : Value → Value → Prop where
  | positive : OppositeZeros (float 0.0) (float (-0.0))
  | negative : OppositeZeros (float (-0.0)) (float 0.0)
  | item {as bs : List Value} {i : Nat} {a b : Value} (ha : as[i]? = some a) (hb : bs[i]? = some b)
    (h : OppositeZeros a b) : OppositeZeros (list as) (list bs)
  | entry {as bs : List (String × Value)} {i : Nat} {k : String} {a b : Value}
    (ha : as[i]? = some (k, a)) (hb : bs[i]? = some (k, b)) (h : OppositeZeros a b) :
    OppositeZeros (dict as) (dict bs)

/-- Values with opposite zeros in them are different. -/
theorem OppositeZeros.ne {a b : Value} (h : OppositeZeros a b) : a ≠ b := by
  induction h with
  | positive => exact fun h => absurd (Value.float.inj h) (by decide)
  | negative => exact fun h => absurd (Value.float.inj h) (by decide)
  | item ha hb _ ih =>
    -- At the place where they differ the lists would have the same item
    rintro ⟨⟩
    exact ih (Option.some.inj (ha.symm.trans hb))
  | entry ha hb _ ih =>
    rintro ⟨⟩
    exact ih (Prod.mk.inj (Option.some.inj (ha.symm.trans hb))).2

/-! ### Equal values -/

mutual

/-- Equal values are the same, but for the signs of zeros. -/
theorem eq_or_oppositeZeros : ∀ {a b : Value}, beq a b = true → a = b ∨ OppositeZeros a b
  | .null, b, h | .bool _, b, h | .int _, b, h | .str _, b, h => by
    cases b <;> simp_all [beq]
  | .float x, b, h => by
    cases b with
    | float y =>
      -- Equal floats are the same, or two zeros
      rcases (Float.beq_iff_ne_nan_and_eq.1 h).2.2 with rfl | ⟨rfl, rfl⟩ | ⟨rfl, rfl⟩
      · exact .inl rfl
      · exact .inr .positive
      · exact .inr .negative
    | _ => cases h
  | .list as, b, h => by
    cases b with
    | list bs =>
      -- Lists differ in an item, if at all
      rcases eq_or_oppositeItems h with rfl | ⟨i, a, b, ha, hb, hab⟩
      · exact .inl rfl
      · exact .inr (.item ha hb hab)
    | _ => cases h
  | .dict as, b, h => by
    cases b with
    | dict bs =>
      rcases eq_or_oppositeEntries h with rfl | ⟨i, k, a, b, ha, hb, hab⟩
      · exact .inl rfl
      · exact .inr (.entry ha hb hab)
    | _ => cases h

/-- The same of lists, where an index says in which items. -/
theorem eq_or_oppositeItems : ∀ {as bs : List Value}, beqList as bs = true →
    as = bs ∨ ∃ (i : Nat) (a b : Value), as[i]? = some a ∧ bs[i]? = some b ∧ OppositeZeros a b
  | [], [], _ => .inl rfl
  | [], _ :: _, h => nomatch h
  | _ :: _, [], h => nomatch h
  | a :: as, b :: bs, h => by
    rw [beqList, Bool.and_eq_true] at h
    -- The first pair that differs is named
    rcases eq_or_oppositeZeros h.1 with rfl | hab
    · rcases eq_or_oppositeItems h.2 with rfl | ⟨i, a', b', ha, hb, hab⟩
      · exact .inl rfl
      · exact .inr ⟨i + 1, a', b', ha, hb, hab⟩
    · exact .inr ⟨0, a, b, rfl, rfl, hab⟩

/-- The same of dicts, where the entries have the same key. -/
theorem eq_or_oppositeEntries : ∀ {as bs : List (String × Value)}, beqEntries as bs = true →
    as = bs ∨ ∃ (i : Nat) (k : String) (a b : Value),
      as[i]? = some (k, a) ∧ bs[i]? = some (k, b) ∧ OppositeZeros a b
  | [], [], _ => .inl rfl
  | [], _ :: _, h => nomatch h
  | _ :: _, [], h => nomatch h
  | (k, a) :: as, (k', b) :: bs, h => by
    rw [beqEntries, Bool.and_eq_true, Bool.and_eq_true, beq_iff_eq] at h
    obtain ⟨⟨rfl, hab⟩, hrest⟩ := h
    -- As for items; the keys are the same anyway
    rcases eq_or_oppositeZeros hab with rfl | hab
    · rcases eq_or_oppositeEntries hrest with rfl | ⟨i, k', a', b', ha, hb, hab⟩
      · exact .inl rfl
      · exact .inr ⟨i + 1, k', a', b', ha, hb, hab⟩
    · exact .inr ⟨0, k, a, b, rfl, rfl, hab⟩

end

/-! ### Their texts -/

/-- How zero is written. -/
private theorem json_zero : (Document.float 0.0).json = ['0', '.', '0'] := by decide

/-- How negative zero is written. -/
private theorem json_negativeZero : (Document.float (-0.0)).json = ['-', '0', '.', '0'] := by decide

/-- The same of values that hold no others: among them only zeros are equal and written
differently. -/
private theorem json_cancel_scalar {a b : Value} {cs cs' : List Char} (hlist : ∀ as, a ≠ list as)
    (hdict : ∀ as, a ≠ dict as) (h : beq a b = true)
    (ht : a.toDocument.json ++ cs = b.toDocument.json ++ cs') : a = b ∧ cs = cs' := by
  rcases eq_or_oppositeZeros h with rfl | hopposite
  · exact ⟨rfl, List.append_cancel_left ht⟩
  · -- The texts of the zeros differ in the first character
    cases hopposite with
    | positive => simp [toDocument, json_zero, json_negativeZero] at ht
    | negative => simp [toDocument, json_zero, json_negativeZero] at ht
    | item => exact absurd rfl (hlist _)
    | entry => exact absurd rfl (hdict _)

mutual

/-- Equal values whose texts begin the same text are the same, and what follows is. -/
theorem json_cancel : ∀ {a b : Value} {cs cs' : List Char}, beq a b = true →
    a.toDocument.json ++ cs = b.toDocument.json ++ cs' → a = b ∧ cs = cs'
  | .null, _, _, _, h, ht | .bool _, _, _, _, h, ht | .int _, _, _, _, h, ht
  | .float _, _, _, _, h, ht | .str _, _, _, _, h, ht => json_cancel_scalar nofun nofun h ht
  | .list as, b, cs, cs', h, ht => by
    cases b with
    | list bs =>
      -- Past the bracket the items begin the same text
      obtain ⟨rfl, hcs⟩ := jsonItems_cancel h (List.cons.inj ht).2
      exact ⟨rfl, hcs⟩
    | _ => cases h
  | .dict as, b, cs, cs', h, ht => by
    cases b with
    | dict bs =>
      obtain ⟨rfl, hcs⟩ := jsonEntries_cancel h (List.cons.inj ht).2
      exact ⟨rfl, hcs⟩
    | _ => cases h

-- The last item is followed by the bracket and every other one by a comma
/-- The same of lists, item by item. -/
theorem jsonItems_cancel : ∀ {as bs : List Value} {cs cs' : List Char}, beqList as bs = true →
    Document.jsonItems (itemDocuments as) ++ cs = Document.jsonItems (itemDocuments bs) ++ cs' →
      as = bs ∧ cs = cs'
  | [], [], _, _, _, ht => ⟨rfl, List.append_cancel_left ht⟩
  | [], _ :: _, _, _, h, _ => nomatch h
  | _ :: _, [], _, _, h, _ => nomatch h
  -- Lists of different lengths are not equal
  | [_], _ :: _ :: _, _, _, h, _ => by simp [beqList] at h
  | _ :: _ :: _, [_], _, _, h, _ => by simp [beqList] at h
  | [a], [b], _, _, h, ht => by
    -- After the last item both texts go on with the closing bracket
    simp only [beqList, Bool.and_true] at h
    simp only [itemDocuments, Document.jsonItems, List.append_assoc] at ht
    obtain ⟨rfl, hcs⟩ := json_cancel h ht
    exact ⟨rfl, List.append_cancel_left hcs⟩
  | a :: a' :: as, b :: b' :: bs, _, _, h, ht => by
    rw [beqList, Bool.and_eq_true] at h
    simp only [itemDocuments, Document.jsonItems, List.append_assoc, List.cons_append] at ht
    obtain ⟨rfl, hcs⟩ := json_cancel h.1 ht
    obtain ⟨heq, hcs⟩ :=
      -- After an item both texts go on with a comma and the other items
      @jsonItems_cancel (a' :: as) (b' :: bs) _ _ h.2 (List.cons.inj hcs).2
    exact ⟨congrArg _ heq, hcs⟩

/-- The same of dicts, entry by entry. -/
theorem jsonEntries_cancel : ∀ {as bs : List (String × Value)} {cs cs' : List Char},
    beqEntries as bs = true →
      Document.jsonEntries (entryDocuments as) ++ cs =
        Document.jsonEntries (entryDocuments bs) ++ cs' → as = bs ∧ cs = cs'
  | [], [], _, _, _, ht => ⟨rfl, List.append_cancel_left ht⟩
  | [], _ :: _, _, _, h, _ => nomatch h
  | _ :: _, [], _, _, h, _ => nomatch h
  -- Dicts of different sizes are not equal
  | [_], _ :: _ :: _, _, _, h, _ => by simp [beqEntries] at h
  | _ :: _ :: _, [_], _, _, h, _ => by simp [beqEntries] at h
  | [(k, a)], [(k', b)], _, _, h, ht => by
    -- The keys are the same, so the texts of the values begin the same text
    simp only [beqEntries, Bool.and_true, Bool.and_eq_true, beq_iff_eq] at h
    obtain ⟨rfl, h⟩ := h
    simp only [entryDocuments, Document.jsonEntries, List.append_assoc, List.cons_append] at ht
    obtain ⟨rfl, hcs⟩ := json_cancel h (List.cons.inj (List.append_cancel_left ht)).2
    exact ⟨rfl, (List.cons.inj hcs).2⟩
  | (k, a) :: p :: as, (k', b) :: p' :: bs, _, _, h, ht => by
    rw [beqEntries, Bool.and_eq_true, Bool.and_eq_true, beq_iff_eq] at h
    obtain ⟨⟨rfl, h⟩, hrest⟩ := h
    simp only [entryDocuments, Document.jsonEntries, List.append_assoc, List.cons_append] at ht
    obtain ⟨rfl, hcs⟩ := json_cancel h (List.cons.inj (List.append_cancel_left ht)).2
    obtain ⟨heq, hcs⟩ :=
      @jsonEntries_cancel (p :: as) (p' :: bs) _ _ hrest (List.cons.inj hcs).2
    exact ⟨congrArg _ heq, hcs⟩

end

/-- Equal values have one text unless a zero faces the zero of the other sign. -/
theorem jsonText_eq_iff {a b : Value} (h : (a == b) = true) :
    a.jsonText = b.jsonText ↔ ¬ OppositeZeros a b := by
  constructor
  · intro ht hopposite
    have hjson : a.toDocument.json = b.toDocument.json := String.ofList_injective ht
    exact hopposite.ne (@json_cancel a b [] [] h (congrArg (· ++ []) hjson)).1
  · intro hno
    rw [(eq_or_oppositeZeros h).resolve_right hno]

/-- Equal values are written alike exactly if no zero faces the zero of the other sign.  So if a
slot takes a value for the one that the client holds, what the client holds is written as the value
is exactly under this condition. -/
theorem written_iff (a b : Value) (s : Slot) :
    ((a == b) = true → (a.jsonText = b.jsonText ↔ ¬ OppositeZeros a b)) ∧
      (s.differs a = false →
        s.sync a = s ∧ (s.synced.jsonText = a.jsonText ↔ ¬ OppositeZeros s.synced a)) := by
  refine ⟨jsonText_eq_iff, fun h => ⟨?_, jsonText_eq_iff ?_⟩⟩
  · rw [Slot.sync, h]
    rfl
  · rwa [Slot.differs, Bool.not_eq_false'] at h

/-- Two lists of equal length in text, whose zeros face each other with opposite signs. -/
theorem written_iff_swapped :
    let a : Value := list [float 0.0, float (-0.0)]
    let b : Value := list [float (-0.0), float 0.0]
    (a == b) = true ∧ a.jsonText ≠ b.jsonText ∧
      ((Slot.fresh.sync a).sync a).synced.jsonText = a.jsonText := by
  intro a b
  have hequal : (a == b) = true := by decide
  have hself : (Slot.fresh.sync a).differs a = false := by decide
  -- The slot holds the value that is told again
  obtain ⟨hwritten, hslot⟩ := written_iff a b (Slot.fresh.sync a)
  obtain ⟨hsync, htext⟩ := hslot hself
  refine ⟨hequal, fun ht => ?_, ?_⟩
  · -- The first items are opposite zeros, which are written differently
    exact (hwritten hequal).1 ht (.item (i := 0) rfl rfl .positive)
  · rw [hsync]
    exact htext.2 fun h => h.ne rfl

/-- The two zeros are equal and are written differently.  A slot that sent the one says that the
client holds the other. -/
theorem equal_written_apart :
    (float 0.0 == float (-0.0)) = true ∧
      (float 0.0).jsonText ≠ (float (-0.0)).jsonText ∧
      let s := Slot.fresh.sync (float 0.0)
      s.differs (float (-0.0)) = false ∧ s.synced.jsonText ≠ (float (-0.0)).jsonText := by
  decide

end Value

end ReactiveState
