import ReactiveState.Delta
import ReactiveState.FieldKey
import ReactiveState.Proofs.KeyMap

/-!
# Deltas in order

Deltas that are made by insertions are in order at both levels (`sorted_insert`), so that merging
them lets the later one decide, and mention no container without a field (`Canonical.insert`).  Such
deltas are the same if they say the same of every field (`Canonical.ext`).  `get?_insert_key` is
`get?_insert` for field keys, and `mem_keys_insert` says which keys an insertion adds.
-/

namespace ReactiveState

namespace Delta

theorem sorted_empty : empty.Sorted := ⟨List.Pairwise.nil, by simp [empty]⟩

/-- An insertion keeps the containers and their fields in order. -/
theorem sorted_insert {d : Delta} (h : d.Sorted) (path field : String) (v : Value) :
    (d.insert path field v).Sorted := by
  refine ⟨KeyMap.sorted_insert h.1, fun c hc => ?_⟩
  rcases KeyMap.mem_insert hc with rfl | hc
  · refine KeyMap.sorted_insert ?_
    cases hd : d.container? path with
    | none => exact List.Pairwise.nil
    | some patch => exact h.2 _ (KeyMap.mem_of_find? hd)
  · exact h.2 c hc

theorem get?_empty (path field : String) : empty.get? path field = none := rfl

/-- An insertion under the key of a field, looked up by key. -/
theorem get?_insert_key (d : Delta) (k m : FieldKey) (v : Value) :
    (d.insert k.path k.field v).get? m.path m.field =
      if m = k then some v else d.get? m.path m.field := by
  obtain ⟨kpath, kfield⟩ := k
  obtain ⟨mpath, mfield⟩ := m
  rw [get?_insert]
  simp only [FieldKey.mk.injEq]

/-! ### Keys of a delta -/

/-- The keys of all fields that a delta mentions. -/
def keys (d : Delta) : List FieldKey :=
  d.containers.flatMap fun c => c.2.map fun p => ⟨c.1, p.1⟩

/-- An insertion mentions the inserted field, and no other one anew. -/
theorem mem_keys_insert {d : Delta} {k m : FieldKey} {v : Value}
    (h : m ∈ (d.insert k.path k.field v).keys) : m = k ∨ m ∈ d.keys := by
  obtain ⟨c, hc, hm⟩ := List.mem_flatMap.1 h
  obtain ⟨p, hp, rfl⟩ := List.mem_map.1 hm
  rcases KeyMap.mem_insert hc with rfl | hc
  · rcases KeyMap.mem_insert hp with rfl | hp
    · exact .inl rfl
    · -- The rest of the patch was there before
      cases hd : d.container? k.path with
      | none => simp [hd] at hp
      | some patch =>
        rw [hd] at hp
        exact .inr (List.mem_flatMap.2
          ⟨(k.path, patch), KeyMap.mem_of_find? hd, List.mem_map.2 ⟨p, hp, rfl⟩⟩)
  · exact .inr (List.mem_flatMap.2 ⟨c, hc, List.mem_map.2 ⟨p, hp, rfl⟩⟩)

/-! ### Deltas that say the same -/

/-- The delta is in order, and mentions no container without a field of it. -/
structure Canonical (d : Delta) : Prop where
  sorted : d.Sorted
  patches_ne_nil : ∀ c ∈ d.containers, c.2 ≠ []

theorem canonical_empty : empty.Canonical := ⟨sorted_empty, nofun⟩

/-- After an insertion no container of a delta is empty either. -/
theorem Canonical.insert {d : Delta} (h : d.Canonical) (path field : String) (v : Value) :
    (d.insert path field v).Canonical := by
  refine ⟨sorted_insert h.sorted path field v, fun c hc => ?_⟩
  rcases KeyMap.mem_insert hc with rfl | hc
  · exact KeyMap.insert_ne_nil field v _
  · exact h.patches_ne_nil c hc

/-- A container that is mentioned has a field that is. -/
theorem Canonical.exists_get? {d : Delta} (h : d.Canonical) {path : String} {patch : FieldPatch}
    (hp : d.container? path = some patch) : ∃ field v, d.get? path field = some v := by
  obtain ⟨⟨field, v⟩, rest, rfl⟩ :=
    List.exists_cons_of_ne_nil (h.patches_ne_nil _ (KeyMap.mem_of_find? hp))
  exact ⟨field, v, by rw [get?, hp]; simp [KeyMap.find?]⟩

/-- Deltas with the same entries have the same containers. -/
theorem Canonical.container?_congr {d e : Delta} (hd : d.Canonical) (he : e.Canonical)
    (h : ∀ path field, d.get? path field = e.get? path field) (path : String) :
    d.container? path = e.container? path := by
  cases hdp : d.container? path with
  | none =>
    cases hep : e.container? path with
    | none => rfl
    | some patch =>
      obtain ⟨field, v, hv⟩ := he.exists_get? hep
      rw [← h, get?, hdp] at hv
      cases hv
  | some patch =>
    obtain ⟨field, v, hv⟩ := hd.exists_get? hdp
    rw [h, get?] at hv
    obtain ⟨patch', hep, -⟩ := Option.bind_eq_some_iff.1 hv
    -- Both patches are in order, and the same is found in them
    have hpatch : patch = patch' := by
      refine KeyMap.ext_of_sorted (hd.sorted.2 _ (KeyMap.mem_of_find? hdp))
        (he.sorted.2 _ (KeyMap.mem_of_find? hep)) fun field => ?_
      have hfield := h path field
      rwa [get?, get?, hdp, hep] at hfield
    rw [hep, hpatch]

/-- Deltas that say the same of every field are the same. -/
theorem Canonical.ext {d e : Delta} (hd : d.Canonical) (he : e.Canonical)
    (h : ∀ path field, d.get? path field = e.get? path field) : d = e := by
  have hcontainers := KeyMap.ext_of_sorted hd.sorted.1 he.sorted.1 (hd.container?_congr he h)
  cases d
  cases e
  exact congrArg Delta.mk hcontainers

end Delta

end ReactiveState
