import Mathlib.Data.List.Nodup
import ReactiveState.KeyMap

/-!
# Maps with distinct keys

`KeyMap.find?` gives the first value at a key.  In a list whose keys are distinct it gives every
entry, so look-up and membership say the same (`find?_eq_some_iff`).  Sorted maps have distinct
keys, and so do the flat lists of fields that a tree starts with.  A sorted map is known by what is
found in it (`KeyMap.ext_of_sorted`), a sorted set by its members (`KeySet.ext_of_sorted`).
-/

namespace ReactiveState

universe u v

variable {κ : Type u} {α : Type v} {β : Type v}

namespace KeyMap

/-- The key of an entry is one of the keys. -/
theorem mem_keys {p : κ × α} {m : List (κ × α)} (h : p ∈ m) : p.1 ∈ keys m :=
  List.mem_map_of_mem h

/-- In a map in order no key stands twice. -/
theorem nodup_of_sorted [Ord κ] [Std.ReflOrd κ] {m : List (κ × α)} (h : Sorted m) :
    (keys m).Nodup := by
  refine List.pairwise_map.2 (h.imp fun {p q} hpq heq => ?_)
  rw [heq, Std.ReflOrd.compare_self] at hpq
  exact absurd hpq (by decide)

variable [DecidableEq κ]

/-- What is found is an entry. -/
theorem mem_of_find? {k : κ} {a : α} {m : List (κ × α)} (h : find? k m = some a) :
    (k, a) ∈ m := by
  induction m with
  | nil => simp [find?] at h
  | cons p m ih =>
    obtain ⟨k', a'⟩ := p
    simp only [find?] at h
    split at h
    · next hk =>
      obtain rfl := Option.some.inj h
      exact hk ▸ List.mem_cons_self
    · exact List.mem_cons_of_mem _ (ih h)

/-- A key is found exactly if it is one of the keys. -/
theorem find?_isSome_iff {k : κ} {m : List (κ × α)} : (find? k m).isSome ↔ k ∈ keys m := by
  induction m with
  | nil => simp [find?, keys]
  | cons p m ih =>
    obtain ⟨k', a'⟩ := p
    by_cases hk : k = k'
    · simp [find?, keys, hk]
    · simpa [find?, keys, hk] using ih

/-- It is not found exactly if it is none of them. -/
theorem find?_eq_none_iff {k : κ} {m : List (κ × α)} : find? k m = none ↔ k ∉ keys m := by
  rw [← find?_isSome_iff, Option.not_isSome_iff_eq_none]

/-- With distinct keys every entry is found. -/
theorem find?_of_mem {k : κ} {a : α} {m : List (κ × α)} (h : (keys m).Nodup)
    (hm : (k, a) ∈ m) : find? k m = some a := by
  induction m with
  | nil => simp at hm
  | cons p m ih =>
    obtain ⟨k', a'⟩ := p
    obtain ⟨hk', hnodup⟩ := List.nodup_cons.1 h
    rcases List.mem_cons.1 hm with heq | hm
    · obtain ⟨rfl, rfl⟩ := Prod.mk.inj heq
      simp [find?]
    · -- The key of the first entry is another one, since it does not occur behind it again
      have hne : k ≠ k' := by
        have hmem : k ∈ keys m := mem_keys hm
        rintro rfl
        exact hk' hmem
      rw [find?, if_neg hne]
      exact ih hnodup hm

/-- With distinct keys, what is found is what is in the map. -/
theorem find?_eq_some_iff {k : κ} {a : α} {m : List (κ × α)} (h : (keys m).Nodup) :
    find? k m = some a ↔ (k, a) ∈ m :=
  ⟨mem_of_find?, find?_of_mem h⟩

/-- Changing an entry leaves the keys as they are. -/
@[simp] theorem keys_modify (k : κ) (f : α → α) (m : List (κ × α)) :
    keys (modify k f m) = keys m := by
  induction m with
  | nil => rfl
  | cons p m ih =>
    obtain ⟨k', a'⟩ := p
    by_cases hk : k = k'
    · simp [modify, keys, hk]
    · simpa [modify, keys, hk] using ih

/-- The values of a map changed one by one, keys kept. -/
theorem find?_map (k : κ) (f : κ → α → β) (m : List (κ × α)) :
    find? k (m.map fun p => (p.1, f p.1 p.2)) = (find? k m).map (f k) := by
  induction m with
  | nil => rfl
  | cons p m ih =>
    obtain ⟨k', a'⟩ := p
    by_cases hk : k = k'
    · simp [find?, hk]
    · simpa [find?, hk] using ih

/-- A lookup is a search through the list of entries. -/
theorem find?_eq_map_find? (k : κ) (m : List (κ × α)) :
    find? k m = (m.find? (·.1 = k)).map (·.2) := by
  induction m with
  | nil => rfl
  | cons p m ih =>
    obtain ⟨k', a⟩ := p
    by_cases h : k = k'
    · simp [find?, h]
    · simp [find?, h, Ne.symm h, ih]

/-- What the first map does not have is looked up in the second. -/
theorem find?_append (k : κ) (m n : List (κ × α)) :
    find? k (m ++ n) = (find? k m).or (find? k n) := by
  induction m with
  | nil => rfl
  | cons p m ih =>
    obtain ⟨k', a⟩ := p
    by_cases h : k = k' <;> simp [find?, h, ih]

/-- A lookup in many maps is the first one that succeeds. -/
theorem find?_flatMap {γ : Type*} (k : κ) (f : γ → List (κ × α)) (cs : List γ) :
    find? k (cs.flatMap f) = cs.findSome? fun c => find? k (f c) := by
  induction cs with
  | nil => rfl
  | cons c cs ih =>
    rw [List.flatMap_cons, find?_append, ih, List.findSome?_cons]
    cases find? k (f c) <;> rfl

/-- Changing an entry keeps the order. -/
theorem sorted_modify [Ord κ] {k : κ} {f : α → α} {m : List (κ × α)} (h : Sorted m) :
    Sorted (modify k f m) := by
  have hkeys : (keys (modify k f m)).Pairwise (compare · · = .lt) := by
    rw [keys_modify]
    exact List.pairwise_map.2 h
  exact List.pairwise_map.1 hkeys

/-- Of distinct pairs nothing is lost in a map. -/
theorem find?_ofList [Ord κ] {pairs : List (κ × α)} (h : (keys pairs).Nodup) (k : κ) :
    find? k (ofList pairs) = find? k pairs := by
  -- The map so far has none of the keys that are still to come
  suffices ∀ m : List (κ × α), (∀ p ∈ pairs, find? p.1 m = none) →
      find? k (pairs.foldl (fun m p => insert p.1 p.2 m) m) = (find? k pairs).or (find? k m) by
    simpa [ofList, find?] using this [] (by simp [find?])
  intro m hm
  induction pairs generalizing m with
  | nil => simp [find?]
  | cons p pairs ih =>
    obtain ⟨k', a'⟩ := p
    obtain ⟨hk', hnodup⟩ := List.nodup_cons.1 h
    obtain ⟨hp, hm⟩ := List.forall_mem_cons.1 hm
    rw [List.foldl_cons, ih hnodup]
    · rw [find?_insert, find?]
      by_cases hk : k = k'
      · subst hk
        simp [find?_eq_none_iff.2 hk']
      · simp [hk]
    · -- The key that was inserted does not come again
      intro p hpm
      have hmem : p.1 ∈ keys pairs := mem_keys hpm
      have hne : p.1 ≠ k' := fun heq => hk' (heq ▸ hmem)
      rw [find?_insert, if_neg hne, hm p hpm]

/-- A map that something was put into is not empty. -/
theorem insert_ne_nil [Ord κ] (k : κ) (a : α) (m : List (κ × α)) : insert k a m ≠ [] := by
  cases m with
  | nil => exact List.cons_ne_nil _ _
  | cons p m =>
    rw [insert]
    split
    · exact List.cons_ne_nil _ _
    · split <;> exact List.cons_ne_nil _ _

variable [Ord κ] [Std.TransOrd κ] [Std.LawfulEqOrd κ]

/-- Inserting entries one after the other keeps the order. -/
theorem sorted_foldl_insert {pairs m : List (κ × α)} (h : Sorted m) :
    Sorted (pairs.foldl (fun m p => insert p.1 p.2 m) m) := by
  induction pairs generalizing m with
  | nil => exact h
  | cons p pairs ih => exact ih (sorted_insert h)

/-- A union is in order if the map it was made from is. -/
theorem sorted_union {m new : List (κ × α)} (h : Sorted m) : Sorted (union m new) :=
  sorted_foldl_insert h

/-- A map made from a list of entries is in order. -/
theorem sorted_ofList (pairs : List (κ × α)) : Sorted (ofList pairs) :=
  sorted_union List.Pairwise.nil

/-- Sorted maps in which the same is found are the same. -/
theorem ext_of_sorted {m m' : List (κ × α)} (h : Sorted m) (h' : Sorted m')
    (hfind : ∀ k, find? k m = find? k m') : m = m' := by
  have hkeys := nodup_of_sorted h
  have hkeys' := nodup_of_sorted h'
  have hmem : ∀ p, p ∈ m ↔ p ∈ m' := fun p => by
    rw [← find?_eq_some_iff hkeys, hfind, find?_eq_some_iff hkeys']
  have hperm := (List.perm_ext_iff_of_nodup hkeys.of_map hkeys'.of_map).2 hmem
  refine hperm.eq_of_pairwise (fun p q _ _ hlt hgt => ?_) h h'
  exact absurd hgt (Std.OrientedCmp.not_lt_of_lt hlt)

/-- Pairs that are in order are their own map. -/
theorem ofList_of_sorted {m : List (κ × α)} (h : Sorted m) : ofList m = m :=
  ext_of_sorted (sorted_ofList m) h fun k => find?_ofList (nodup_of_sorted h) k

end KeyMap

namespace KeySet

/-- A set in order has no element twice. -/
theorem nodup_of_sorted [Ord κ] [Std.ReflOrd κ] {s : List κ} (h : Sorted s) : s.Nodup := by
  refine h.imp fun {k k'} hlt heq => ?_
  rw [heq, Std.ReflOrd.compare_self] at hlt
  exact absurd hlt (by decide)

variable [DecidableEq κ] [Ord κ] [Std.TransOrd κ] [Std.LawfulEqOrd κ]

/-- A union of sets is in order if the one it was made from is. -/
theorem sorted_union {s new : List κ} (h : Sorted s) : Sorted (union s new) := by
  induction new generalizing s with
  | nil => exact h
  | cons k new ih => exact ih (sorted_insert h)

/-- A set made from a list is in order. -/
theorem sorted_ofList (ks : List κ) : Sorted (ofList ks) :=
  sorted_union List.Pairwise.nil

/-- A set made from a list has no element twice. -/
theorem nodup_ofList (ks : List κ) : (ofList ks).Nodup :=
  nodup_of_sorted (sorted_ofList ks)

omit [DecidableEq κ] in
/-- Sorted sets with the same members are the same. -/
theorem ext_of_sorted {s s' : List κ} (h : Sorted s) (h' : Sorted s')
    (hmem : ∀ k, k ∈ s ↔ k ∈ s') : s = s' := by
  have hperm := (List.perm_ext_iff_of_nodup (nodup_of_sorted h) (nodup_of_sorted h')).2 hmem
  refine hperm.eq_of_pairwise (fun k k' _ _ hlt hgt => ?_) h h'
  exact absurd hgt (Std.OrientedCmp.not_lt_of_lt hlt)

end KeySet

end ReactiveState
