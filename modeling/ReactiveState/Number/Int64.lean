/-! # Integers of 64 bits

`int64?` narrows an integer to 64 bits where it fits, and `int64?_eq_some_iff` says that it changes
nothing: the result is the number, and there is one exactly for the numbers in range. -/

namespace ReactiveState

/-- The 64-bit integer of a number, if it fits. -/
def int64? (n : Int) : Option Int64 :=
  if Int64.minValue.toInt ≤ n ∧ n ≤ Int64.maxValue.toInt then some (Int64.ofInt n) else none

/-- An integer of 64 bits is given exactly for the integer that it stands for. -/
theorem int64?_eq_some_iff {n : Int} {k : Int64} : int64? n = some k ↔ k.toInt = n := by
  unfold int64?
  constructor
  · intro h
    split at h
    · next hr =>
      obtain rfl := Option.some.inj h
      exact Int64.toInt_ofInt_of_le hr.1 (by
        have := hr.2
        have hmax : Int64.maxValue.toInt = 2 ^ 63 - 1 := rfl
        omega)
    · exact absurd h nofun
  · rintro rfl
    rw [if_pos ⟨k.minValue_le_toInt, k.toInt_le⟩, Int64.ofInt_toInt]

end ReactiveState
