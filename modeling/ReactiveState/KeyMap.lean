/-! # Maps and sets as sorted lists

A `KeyMap` is a list of key-value pairs in strictly ascending key order, a `KeySet` a list of keys
in the same order.  Both are plain lists, so that they may stand inside nested inductive types and
so that the order shown to a reader is the order of the data.

The view of a map is `find?`; each operation has one equation through it:

* `find?_insert`   `find? k' (insert k a m) = if k' = k then some a else find? k' m`
* `find?_erase`    `find? k' (erase k m) = if k' = k then none else find? k' m`
* `find?_modify`   `find? k' (modify k f m) = if k' = k then (find? k' m).map f else find? k' m`
* `find?_union`    `find? k (union m new) = (find? k new).or (find? k m)`

and the view of a set is membership:

* `mem_insert`     `k' ∈ insert k s ↔ k' = k ∨ k' ∈ s`

Only `find?_union` needs a list to be sorted: in `new` each key stands once.  That the operations
keep the order is `KeyMap.sorted_insert` and `KeySet.sorted_insert`. -/

namespace ReactiveState

universe u v

variable {κ : Type u} {α : Type v} {β : Type v}

namespace KeyMap

/-- The value at a key. -/
def find? [DecidableEq κ] (k : κ) : List (κ × α) → Option α
  | [] => none
  | (k', a) :: m => if k = k' then some a else find? k m

/-- Whether a key has a value. -/
def contains [DecidableEq κ] (k : κ) (m : List (κ × α)) : Bool :=
  (find? k m).isSome

/-- Puts a value at a key, in place of an earlier one. -/
def insert [DecidableEq κ] [Ord κ] (k : κ) (a : α) : List (κ × α) → List (κ × α)
  | [] => [(k, a)]
  | (k', a') :: m =>
    if k = k' then (k, a) :: m
    else if compare k k' = .lt then (k, a) :: (k', a') :: m
    else (k', a') :: insert k a m

/-- Removes a key. -/
def erase [DecidableEq κ] (k : κ) : List (κ × α) → List (κ × α)
  | [] => []
  | (k', a) :: m => if k = k' then erase k m else (k', a) :: erase k m

/-- The map of a list of pairs; of two pairs with one key the later wins. -/
def ofList [DecidableEq κ] [Ord κ] (pairs : List (κ × α)) : List (κ × α) :=
  pairs.foldl (fun m p => insert p.1 p.2 m) []

/-- Every pair of `new` put into `m`. -/
def union [DecidableEq κ] [Ord κ] (m new : List (κ × α)) : List (κ × α) :=
  new.foldl (fun m p => insert p.1 p.2 m) m

/-- The keys, in order. -/
def keys (m : List (κ × α)) : List κ :=
  m.map (·.1)

/-- The values, in the order of their keys. -/
def values (m : List (κ × α)) : List α :=
  m.map (·.2)

/-- Applies a function to the value at a key, if there is one. -/
def modify [DecidableEq κ] (k : κ) (f : α → α) : List (κ × α) → List (κ × α)
  | [] => []
  | (k', a) :: m => if k = k' then (k', f a) :: m else (k', a) :: modify k f m

/-- The keys ascend strictly. -/
def Sorted [Ord κ] (m : List (κ × α)) : Prop :=
  m.Pairwise fun p q => compare p.1 q.1 = .lt

/-- After an insertion the key has the new value, and the other keys what they had. -/
theorem find?_insert [DecidableEq κ] [Ord κ] (k k' : κ) (a : α) (m : List (κ × α)) :
    find? k' (insert k a m) = if k' = k then some a else find? k' m := by
  induction m with
  | nil => simp [insert, find?]
  | cons p m ih =>
    obtain ⟨k₀, a₀⟩ := p
    by_cases h : k = k₀
    · subst h
      -- The value is replaced where the key stands
      by_cases h' : k' = k <;> simp [insert, find?, h']
    · -- The key belongs in front of the first entry, or somewhere behind it
      by_cases hlt : compare k k₀ = .lt
      · simp [insert, find?, h, hlt]
      · by_cases h' : k' = k₀
        · subst h'
          simp [insert, find?, h, hlt, Ne.symm h]
        · simp [insert, find?, h, hlt, h', ih]

/-- After an erasure the key has no value, and the other keys what they had. -/
theorem find?_erase [DecidableEq κ] (k k' : κ) (m : List (κ × α)) :
    find? k' (erase k m) = if k' = k then none else find? k' m := by
  induction m with
  | nil => simp [erase, find?]
  | cons p m ih =>
    obtain ⟨k₀, a₀⟩ := p
    -- All entries with the key are dropped, so the rest is searched again
    by_cases h : k = k₀
    · subst h
      by_cases h' : k' = k
      · subst h'
        simpa [erase] using ih
      · simp [erase, find?, h', ih]
    · -- The first entry has another key and stays
      by_cases h' : k' = k₀
      · subst h'
        simp [erase, find?, h, Ne.symm h]
      · simp [erase, find?, h, h', ih]

/-- A change applies to the value at the key, if there is one. -/
theorem find?_modify [DecidableEq κ] (k k' : κ) (f : α → α) (m : List (κ × α)) :
    find? k' (modify k f m) = if k' = k then (find? k' m).map f else find? k' m := by
  induction m with
  | nil => simp [modify, find?]
  | cons p m ih =>
    obtain ⟨k₀, a₀⟩ := p
    by_cases h : k = k₀
    · subst h
      by_cases h' : k' = k <;> simp [modify, find?, h']
    · -- The first entry has another key and stays
      by_cases h' : k' = k₀
      · subst h'
        simp [modify, find?, h, Ne.symm h]
      · simp [modify, find?, h, h', ih]

/-- A key that no entry has is not found. -/
theorem find?_eq_none [DecidableEq κ] {k : κ} {m : List (κ × α)} (h : ∀ p ∈ m, p.1 ≠ k) :
    find? k m = none := by
  induction m with
  | nil => rfl
  | cons p m ih =>
    obtain ⟨hp, hm⟩ := List.forall_mem_cons.1 h
    rw [find?, if_neg (Ne.symm hp), ih hm]

/-- Of two maps with a value at a key, the second decides. -/
theorem find?_union [DecidableEq κ] [Ord κ] [Std.ReflOrd κ] {new : List (κ × α)} (h : Sorted new)
    (k : κ) (m : List (κ × α)) : find? k (union m new) = (find? k new).or (find? k m) := by
  induction new generalizing m with
  | nil => rfl
  | cons p new ih =>
    obtain ⟨k₀, a⟩ := p
    obtain ⟨hp, hnew⟩ := List.pairwise_cons.1 h
    have hu : union m ((k₀, a) :: new) = union (insert k₀ a m) new := rfl
    -- Inserting the first entry and then the others is the whole union
    rw [hu, ih hnew, find?_insert, find?]
    split
    · next hk =>
      subst hk
      -- The keys of `new` ascend, so its first key does not occur again
      rw [find?_eq_none fun p hm he => ?_]
      · rfl
      · have hlt := hp p hm
        rw [he, Std.ReflOrd.compare_self] at hlt
        exact absurd hlt (by decide)
    · rfl

/-- An entry after an insertion is the new one or an old one. -/
theorem mem_insert [DecidableEq κ] [Ord κ] {k : κ} {a : α} {m : List (κ × α)} {p : κ × α}
    (h : p ∈ insert k a m) : p = (k, a) ∨ p ∈ m := by
  induction m with
  | nil => simpa [insert] using h
  | cons q m ih =>
    simp only [insert] at h
    split at h
    · simp only [List.mem_cons] at h ⊢
      exact h.imp id .inr
    · split at h
      · simpa using h
      · -- The entry was put in further behind
        simp only [List.mem_cons] at h ⊢
        rcases h with h | h
        · exact .inr (.inl h)
        · exact (ih h).imp id .inr

/-- Inserting an entry keeps the order. -/
theorem sorted_insert [DecidableEq κ] [Ord κ] [Std.TransOrd κ] [Std.LawfulEqOrd κ] {k : κ} {a : α}
    {m : List (κ × α)} (h : Sorted m) : Sorted (insert k a m) := by
  induction m with
  | nil => simp [insert, Sorted]
  | cons q m ih =>
    obtain ⟨hq, hm⟩ := List.pairwise_cons.1 h
    simp only [insert]
    split
    · next heq =>
      subst heq
      exact List.pairwise_cons.2 ⟨hq, hm⟩
    · next hne =>
      split
      · next hlt =>
        refine List.pairwise_cons.2 ⟨fun p hp => ?_, h⟩
        rcases List.mem_cons.1 hp with rfl | hp
        · exact hlt
        · exact Std.TransCmp.lt_trans hlt (hq p hp)
      · next hnlt =>
        refine List.pairwise_cons.2 ⟨fun p hp => ?_, ih hm⟩
        rcases mem_insert hp with rfl | hp
        · -- Neither equal nor below, so the new key is above
          cases hc : compare k q.1 with
          | lt => exact absurd hc hnlt
          | eq => exact absurd (Std.LawfulEqOrd.eq_of_compare hc) hne
          | gt => exact Std.OrientedCmp.lt_of_gt hc
        · exact hq p hp

end KeyMap

namespace KeySet

/-- Adds a key, unless it is there. -/
def insert [DecidableEq κ] [Ord κ] (k : κ) : List κ → List κ
  | [] => [k]
  | k' :: s =>
    if k = k' then k' :: s
    else if compare k k' = .lt then k :: k' :: s
    else k' :: insert k s

/-- The set of the members of a list. -/
def ofList [DecidableEq κ] [Ord κ] (ks : List κ) : List κ :=
  ks.foldl (fun s k => insert k s) []

/-- Adds every member of `new`. -/
def union [DecidableEq κ] [Ord κ] (s new : List κ) : List κ :=
  new.foldl (fun s k => insert k s) s

/-- The keys ascend strictly. -/
def Sorted [Ord κ] (s : List κ) : Prop :=
  s.Pairwise fun k k' => compare k k' = .lt

/-- The elements after an insertion are the new one and the old ones. -/
theorem mem_insert [DecidableEq κ] [Ord κ] {k k' : κ} {s : List κ} :
    k' ∈ insert k s ↔ k' = k ∨ k' ∈ s := by
  induction s with
  | nil => simp [insert]
  | cons k₀ s ih =>
    simp only [insert]
    split
    · next h => subst h; simp
    · split
      · simp
      · simp only [List.mem_cons, ih]
        exact or_left_comm

/-- The elements of a union are those of both sets. -/
theorem mem_union [DecidableEq κ] [Ord κ] {k : κ} {s new : List κ} :
    k ∈ union s new ↔ k ∈ s ∨ k ∈ new := by
  induction new generalizing s with
  | nil => simp [union]
  | cons k₀ new ih =>
    have h : union s (k₀ :: new) = union (insert k₀ s) new := rfl
    rw [h, ih, mem_insert, List.mem_cons, or_assoc, or_left_comm]

/-- The set made from a list has its elements. -/
theorem mem_ofList [DecidableEq κ] [Ord κ] {k : κ} {ks : List κ} :
    k ∈ ofList ks ↔ k ∈ ks := by
  have h : ofList ks = union [] ks := rfl
  simp [h, mem_union]

/-- Inserting an element keeps the order. -/
theorem sorted_insert [DecidableEq κ] [Ord κ] [Std.TransOrd κ] [Std.LawfulEqOrd κ] {k : κ}
    {s : List κ} (h : Sorted s) : Sorted (insert k s) := by
  induction s with
  | nil => simp [insert, Sorted]
  | cons k₀ s ih =>
    obtain ⟨hk, hs⟩ := List.pairwise_cons.1 h
    simp only [insert]
    split
    · exact h
    · next hne =>
      split
      · next hlt =>
        refine List.pairwise_cons.2 ⟨fun k' hk' => ?_, h⟩
        rcases List.mem_cons.1 hk' with rfl | hk'
        · exact hlt
        · exact Std.TransCmp.lt_trans hlt (hk k' hk')
      · next hnlt =>
        refine List.pairwise_cons.2 ⟨fun k' hk' => ?_, ih hs⟩
        rcases mem_insert.1 hk' with rfl | hk'
        · -- Neither equal nor below, so the new element is above
          cases hc : compare k' k₀ with
          | lt => exact absurd hc hnlt
          | eq => exact absurd (Std.LawfulEqOrd.eq_of_compare hc) hne
          | gt => exact Std.OrientedCmp.lt_of_gt hc
        · exact hk k' hk'

end KeySet

end ReactiveState
