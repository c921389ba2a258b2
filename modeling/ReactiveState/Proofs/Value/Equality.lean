import ReactiveState.Value

/-!
# What equals itself

Values are compared with `==`, which compares floats as numbers.  So it is reflexive but for a NaN:
a value that holds none, at any depth, is equal to itself, and no other value is
(`Value.beq_self_iff`).
-/

namespace ReactiveState

/-! ### Floats -/

section Floats

open Float.Model (UnpackedFloat)

/-- A float is equal to itself exactly if it is no NaN. -/
private theorem compare_self_iff {x : UnpackedFloat} :
    x.compare x = some .eq ↔ x.isNaN = false := by
  cases x with
  | finite s m e h =>
    -- The same exponent and the same mantissa
    have heq : (compare e e).then (compare m m) = .eq := by
      rw [Std.ReflOrd.compare_self, Std.ReflOrd.compare_self]
      rfl
    cases s with
    | negative => exact ⟨fun _ => rfl, fun _ => congrArg (fun o => some (Ordering.swap o)) heq⟩
    | positive => exact ⟨fun _ => rfl, fun _ => congrArg some heq⟩
  | infinity s => cases s <;> exact ⟨fun _ => rfl, fun _ => rfl⟩
  | zero s => exact ⟨fun _ => rfl, fun _ => rfl⟩
  | notANumber => constructor <;> intro h <;> cases h

/-- Only a NaN differs from itself. -/
theorem float_beq_self_iff {x : Float} : (x == x) = true ↔ x.isNaN = false := by
  change (x.toModel.unpack.compare x.toModel.unpack == some Ordering.eq) = true ↔
    x.toModel.unpack.isNaN = false
  rw [beq_iff_eq, compare_self_iff]

end Floats

/-! ### Values -/

namespace Value

mutual

/-- No float inside the value is a NaN. -/
def NaNFree : Value → Prop
  | float x => x.isNaN = false
  | list items => NaNFreeList items
  | dict entries => NaNFreeEntries entries
  | _ => True

/-- No item holds a NaN. -/
def NaNFreeList : List Value → Prop
  | [] => True
  | a :: as => NaNFree a ∧ NaNFreeList as

/-- No entry holds a NaN. -/
def NaNFreeEntries : List (String × Value) → Prop
  | [] => True
  | (_, a) :: as => NaNFree a ∧ NaNFreeEntries as

end

mutual

/-- A value equals itself exactly if no NaN is in it. -/
theorem beq_self_iff : ∀ v : Value, beq v v = true ↔ v.NaNFree
  | .null => ⟨fun _ => trivial, fun _ => rfl⟩
  | .bool _ => by simp [beq, NaNFree]
  | .int _ => by simp [beq, NaNFree]
  | .float _ => float_beq_self_iff
  | .str _ => by simp [beq, NaNFree]
  | .list items => beqList_self_iff items
  | .dict entries => beqEntries_self_iff entries

/-- The same of lists, item by item. -/
theorem beqList_self_iff : ∀ as : List Value, beqList as as = true ↔ NaNFreeList as
  | [] => ⟨fun _ => trivial, fun _ => rfl⟩
  | a :: as => by
    rw [beqList, NaNFreeList, Bool.and_eq_true, beq_self_iff, beqList_self_iff]

/-- The same of dicts, entry by entry. -/
theorem beqEntries_self_iff : ∀ as : List (String × Value),
    beqEntries as as = true ↔ NaNFreeEntries as
  | [] => ⟨fun _ => trivial, fun _ => rfl⟩
  | (k, a) :: as => by
    rw [beqEntries, NaNFreeEntries, Bool.and_eq_true, Bool.and_eq_true, beq_self_iff,
      beqEntries_self_iff]
    simp only [beq_self_eq_true, true_and]

end

end Value

end ReactiveState
