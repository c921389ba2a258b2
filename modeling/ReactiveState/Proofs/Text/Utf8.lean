import Mathlib.Data.List.Basic

/-!
# The bytes of a text

A text is read back from the list of its UTF-8 bytes (`fromUTF8?_bytes`).
-/

namespace ReactiveState

/-- The loop adds the bytes from an index on. -/
theorem toList_loop (bs : ByteArray) (i : Nat) (found : List UInt8) :
    ByteArray.toList.loop bs i found = found.reverse ++ bs.data.toList.drop i := by
  induction i, found using ByteArray.toList.loop.induct bs with
  | case1 i found hlt ih =>
    have hi : i < bs.data.toList.length := by simpa using hlt
    -- The byte at the index is the head of those that are left
    have hget : bs.get! i = bs.data.toList[i] := by
      rw [Array.getElem_toList]
      exact getElem!_pos bs.data i hlt
    rw [ByteArray.toList.loop, if_pos hlt, ih, List.drop_eq_getElem_cons hi, hget]
    simp
  | case2 i found hge =>
    have hi : bs.data.toList.length ≤ i := by simpa using hge
    rw [ByteArray.toList.loop, if_neg hge, List.drop_eq_nil_of_le hi, List.append_nil]

/-- The list of the bytes is the one that the array holds. -/
theorem toList_bytes (bs : ByteArray) : bs.toList = bs.data.toList := by
  rw [ByteArray.toList, toList_loop, List.reverse_nil, List.nil_append, List.drop_zero]

/-- A text has as many bytes as its size in UTF-8 says. -/
theorem length_bytes (s : String) : s.toUTF8.toList.length = s.utf8ByteSize := by
  rw [toList_bytes, Array.length_toList]
  exact String.size_toByteArray

/-- A text is read back from its bytes. -/
theorem fromUTF8?_bytes (s : String) : String.fromUTF8? ⟨s.toUTF8.toList.toArray⟩ = some s := by
  rw [toList_bytes, Array.toArray_toList]
  exact dif_pos s.isValidUTF8

end ReactiveState
