import Mathlib.Data.List.Perm.Subperm
import ReactiveState.Proofs.Graph.Edges

/-!
# Sorting by dependencies

In a graph that notes every edge at both ends, `sort` places some of the given keys, each of them
once and after all of the keys that it reads (`idxOf_sort_lt`).  It places all of them unless they
read each other in a circle (`mem_sort_of_rank`).

The invariant `Draining` is the one of the loop: a field of the keys that is not placed waits for
the fields it reads that are not placed, and the queue holds exactly the fields that wait for
nothing.
-/

namespace ReactiveState

namespace Graph

variable {g : Graph} {keys done queue : List FieldKey} {degrees : List (FieldKey × Nat)}

/-! ### Releasing dependents -/

/-- Releasing distinct fields lowers the degree of each by one. -/
theorem find?_release {ks : List FieldKey} (h : ks.Nodup) (degrees : List (FieldKey × Nat))
    (m : FieldKey) : KeyMap.find? m (release ks degrees).1 =
      (KeyMap.find? m degrees).map fun n => if m ∈ ks then n - 1 else n := by
  induction ks generalizing degrees with
  | nil => simp [release]
  | cons k ks ih =>
    obtain ⟨hk, hks⟩ := List.nodup_cons.1 h
    cases hd : KeyMap.find? k degrees with
    | none =>
      simp only [release, hd, ih hks]
      -- A field that was released does not come again, so its degree is lowered once
      by_cases hm : m = k
      · simp [hm, hd]
      · simp [hm]
    | some n =>
      -- The first field is counted down here, all others in the rest of the list
      simp only [release, hd, ih hks, KeyMap.find?_modify]
      by_cases hm : m = k
      · simp [hm, hd, hk]
      · simp [hm]

/-- What becomes free are the dependents that waited for one field at most. -/
theorem mem_release {ks : List FieldKey} (h : ks.Nodup) (degrees : List (FieldKey × Nat))
    (m : FieldKey) : m ∈ (release ks degrees).2 ↔
      m ∈ ks ∧ ∃ n, n ≤ 1 ∧ KeyMap.find? m degrees = some n := by
  induction ks generalizing degrees with
  | nil => simp [release]
  | cons k ks ih =>
    obtain ⟨hk, hks⟩ := List.nodup_cons.1 h
    cases hd : KeyMap.find? k degrees with
    | none =>
      -- A field without a degree is passed over
      simp only [release, hd, ih hks, List.mem_cons]
      by_cases hm : m = k
      · simp [hm, hd]
      · simp [hm]
    | some n =>
      -- The rest of the list counts `k` down no further, since it does not hold `k` again
      have hne : m ∈ ks → m ≠ k := fun hmk heq => hk (heq ▸ hmk)
      have hrest : m ∈ (release ks (KeyMap.modify k (fun n => n - 1) degrees)).2 ↔
          m ∈ ks ∧ ∃ n, n ≤ 1 ∧ KeyMap.find? m degrees = some n := by
        rw [ih hks]
        refine and_congr_right fun hmk => ?_
        rw [KeyMap.find?_modify, if_neg (hne hmk)]
      simp only [release, hd, List.mem_cons]
      -- It is released now if it has waited for one field at most
      by_cases hn : n ≤ 1
      · rw [if_pos hn, List.mem_cons, hrest]
        by_cases hm : m = k
        · simp [hm, hd, hn]
        · simp [hm]
      · rw [if_neg hn, hrest]
        by_cases hm : m = k
        · subst hm
          simp [hk, hd, hn]
        · simp [hm]

/-- What is released is taken from the fields in their order. -/
theorem release_sublist (ks : List FieldKey) (degrees : List (FieldKey × Nat)) :
    (release ks degrees).2.Sublist ks := by
  induction ks generalizing degrees with
  | nil => simp [release]
  | cons k ks ih =>
    simp only [release]
    split
    · exact (ih degrees).trans (List.sublist_cons_self k ks)
    · next n _ =>
      -- The field is released when nothing but the one just done was left to wait for
      by_cases hn : n ≤ 1
      · simpa [hn] using (ih _).cons_cons k
      · simpa [hn] using (ih _).trans (List.sublist_cons_self k ks)

/-! ### Waiting -/

/-- How many of the keys a field still waits for when some are placed. -/
def waiting (g : Graph) (keys done : List FieldKey) (k : FieldKey) : Nat :=
  ((g.dependencies k).filter fun d => d ∈ keys ∧ d ∉ done).length

/-- A field waits for nothing exactly if all that it reads among the keys is done. -/
theorem waiting_eq_zero_iff {k : FieldKey} :
    g.waiting keys done k = 0 ↔ ∀ d ∈ g.dependencies k, d ∈ keys → d ∈ done := by
  simp [waiting, List.filter_eq_nil_iff]

/-- Whoever reads a field that is not placed waits. -/
theorem waiting_pos (hg : g.Mirrored) {k m : FieldKey} (hk : k ∈ keys) (hdone : k ∉ done)
    (hm : m ∈ g.dependents k) : 0 < g.waiting keys done m := by
  rw [Nat.pos_iff_ne_zero, Ne, waiting_eq_zero_iff]
  exact fun h => hdone (h k ((hg.mem_dependents_iff k m).1 hm) hk)

/-- Placing a field shortens the waiting of its dependents by one, and of no other field. -/
theorem waiting_append (hg : g.Mirrored) {k : FieldKey} (hk : k ∈ keys) (hdone : k ∉ done)
    (m : FieldKey) : g.waiting keys (done ++ [k]) m =
      if m ∈ g.dependents k then g.waiting keys done m - 1 else g.waiting keys done m := by
  -- What `m` waits for now is what it waited for before, without `k`
  have hfilter : ((g.dependencies m).filter fun d => d ∈ keys ∧ d ∉ done ++ [k]) =
      ((g.dependencies m).filter fun d => d ∈ keys ∧ d ∉ done).filter fun d => d ≠ k := by
    rw [List.filter_filter]
    refine List.filter_congr fun d _ => ?_
    by_cases hd : d = k <;> simp [hd]
  have hnodup : ((g.dependencies m).filter fun d => d ∈ keys ∧ d ∉ done).Nodup :=
    (KeySet.nodup_of_sorted (hg.dependencies_sorted m)).filter _
  unfold waiting
  rw [hfilter]
  split
  · next hm =>
    -- A dependent waited for `k`, and once, since dependencies are a set
    have hmem : k ∈ (g.dependencies m).filter fun d => d ∈ keys ∧ d ∉ done := by
      simp [(hg.mem_dependents_iff k m).1 hm, hk, hdone]
    have hbne : (fun d : FieldKey => decide (d ≠ k)) = (· != k) := by
      funext d
      by_cases hd : d = k <;> simp [hd]
    rw [← List.length_erase_of_mem hmem, hnodup.erase_eq_filter, hbne]
  · next hm =>
    -- No other field reads `k`
    have hall : ∀ d ∈ (g.dependencies m).filter fun d => d ∈ keys ∧ d ∉ done,
        decide (d ≠ k) = true := by
      intro d hd
      rw [decide_eq_true_iff]
      rintro rfl
      exact hm ((hg.mem_dependents_iff d m).2 (List.mem_of_mem_filter hd))
    rw [List.filter_eq_self.2 hall]

/-! ### The loop -/

/-- The state of the sort: which fields are placed, which ones wait for nothing, and how many
fields each of the keys waits for. -/
structure Draining (g : Graph) (keys done queue : List FieldKey)
    (degrees : List (FieldKey × Nat)) : Prop where
  degrees_eq : ∀ k, KeyMap.find? k degrees =
    if k ∈ keys then some (g.waiting keys done k) else none
  nodup : (done ++ queue).Nodup
  mem_iff : ∀ k, k ∈ done ++ queue ↔ k ∈ keys ∧ g.waiting keys done k = 0

/-- Taking the first field from the queue keeps the bookkeeping right. -/
theorem Draining.step (hg : g.Mirrored) {k : FieldKey}
    (h : Draining g keys done (k :: queue) degrees) :
    Draining g keys (done ++ [k]) (queue ++ (release (g.dependents k) degrees).2)
      (release (g.dependents k) degrees).1 := by
  -- The first of the queue is a key that is not placed yet
  have hk : k ∈ keys := ((h.mem_iff k).1 (by simp)).1
  have hdone : k ∉ done := by
    have := h.nodup
    rw [List.nodup_append] at this
    exact fun hmem => this.2.2 k hmem k List.mem_cons_self rfl
  have hdep : (g.dependents k).Nodup := KeySet.nodup_of_sorted (hg.dependents_sorted k)
  have hwait := waiting_append hg hk hdone
  -- A dependent is free now if it waited for `k` alone
  have hfree : ∀ m, m ∈ (release (g.dependents k) degrees).2 ↔
      m ∈ g.dependents k ∧ m ∈ keys ∧ g.waiting keys done m ≤ 1 := by
    intro m
    rw [mem_release hdep, h.degrees_eq]
    by_cases hm : m ∈ keys <;> simp [hm]
  -- What was free before is free still
  have hold : ∀ m, m ∈ done ++ [k] ++ queue ↔ m ∈ keys ∧ g.waiting keys done m = 0 := by
    intro m
    rw [← h.mem_iff m]
    simp
  refine ⟨fun m => ?_, ?_, fun m => ?_⟩
  · rw [find?_release hdep, h.degrees_eq, hwait]
    by_cases hm : m ∈ keys <;> simp [hm]
  · rw [← List.append_assoc, List.nodup_append]
    refine ⟨by simpa using h.nodup, (release_sublist _ _).nodup hdep, ?_⟩
    rintro a ha b hb rfl
    -- A dependent waited for `k`, so it was neither placed nor in the queue
    have hpos := waiting_pos hg hk hdone ((hfree a).1 hb).1
    have hzero := ((hold a).1 ha).2
    omega
  · rw [← List.append_assoc, List.mem_append, hold, hfree, hwait]
    by_cases hm : m ∈ g.dependents k
    · -- A dependent waits for one field less now, so it is free if it waited for `k` alone
      have hpos := waiting_pos hg hk hdone hm
      simp only [hm, true_and, if_true]
      constructor
      · rintro (⟨hmem, hz⟩ | ⟨hmem, hle⟩)
        · omega
        · exact ⟨hmem, by omega⟩
      · rintro ⟨hmem, hz⟩
        exact .inr ⟨hmem, by omega⟩
    · simp [hm]

/-- With fuel for every key the loop ends with an empty queue. -/
theorem Draining.drain (hg : g.Mirrored) {fuel : Nat} (h : Draining g keys done queue degrees)
    (hfuel : keys.length ≤ done.length + fuel) :
    ∃ degrees', Draining g keys (done ++ g.drain fuel queue degrees) [] degrees' := by
  induction fuel generalizing done queue degrees with
  | zero =>
    -- All keys are placed, so nothing is left to be in the queue
    have hle : (done ++ queue).length ≤ keys.length :=
      (List.subperm_of_subset h.nodup fun k hk => ((h.mem_iff k).1 hk).1).length_le
    rw [List.length_append] at hle
    obtain rfl : queue = [] := List.length_eq_zero_iff.1 (by omega)
    exact ⟨degrees, by simpa [Graph.drain] using h⟩
  | succ fuel ih =>
    cases queue with
    | nil => exact ⟨degrees, by simpa [Graph.drain] using h⟩
    | cons k queue =>
      have hlen : (done ++ [k]).length = done.length + 1 := by simp
      -- One more field is placed, so the fuel that is left is enough
      obtain ⟨degrees', h'⟩ := ih (h.step hg) (by omega)
      exact ⟨degrees', by simpa [Graph.drain] using h'⟩

/-- Each field of the second list comes after those of the keys that it reads. -/
def Placed (g : Graph) (keys : List FieldKey) : List FieldKey → List FieldKey → Prop
  | _, [] => True
  | done, k :: rest =>
    (∀ d ∈ g.dependencies k, d ∈ keys → d ∈ done) ∧ Placed g keys (done ++ [k]) rest

/-- Every field that is drained comes after what it reads. -/
theorem Draining.placed (hg : g.Mirrored) {fuel : Nat}
    (h : Draining g keys done queue degrees) :
    Placed g keys done (g.drain fuel queue degrees) := by
  induction fuel generalizing done queue degrees with
  | zero => trivial
  | succ fuel ih =>
    cases queue with
    | nil => trivial
    | cons k queue =>
      exact ⟨waiting_eq_zero_iff.1 ((h.mem_iff k).1 (by simp)).2, ih (h.step hg)⟩

/-- Where every field is placed after what it reads, positions ascend along dependencies. -/
theorem Placed.idxOf_lt {rest : List FieldKey} (h : Placed g keys done rest)
    (hnodup : (done ++ rest).Nodup) {k d : FieldKey} (hk : k ∈ rest) (hd : d ∈ g.dependencies k)
    (hkeys : d ∈ keys) : (done ++ rest).idxOf d < (done ++ rest).idxOf k := by
  induction rest generalizing done with
  | nil => simp at hk
  | cons m rest ih =>
    obtain ⟨hm, hrest⟩ := h
    rcases List.mem_cons.1 hk with rfl | hk
    · -- What the head reads is placed before it
      have hd' := hm d hd hkeys
      have hk' : k ∉ done := fun hmem =>
        (List.nodup_append.1 hnodup).2.2 k hmem k List.mem_cons_self rfl
      rw [List.idxOf_append_of_mem hd', List.idxOf_append_of_notMem hk']
      have := List.idxOf_lt_length_of_mem hd'
      omega
    · -- Further back the field is one of the rest, placed after the head
      have := ih hrest (by simpa using hnodup) hk
      simpa using this

/-! ### The result -/

/-- The bookkeeping is right at the start, where the fields that read none of the others are
queued. -/
theorem draining_start (hkeys : keys.Nodup) :
    Draining g keys []
      (((keys.map fun k => (k, g.degree keys k)).filter (·.2 = 0)).map (·.1))
      (keys.map fun k => (k, g.degree keys k)) := by
  -- Nothing is placed yet, so the degree is what a field waits for
  have hdeg : ∀ k, g.degree keys k = g.waiting keys [] k := fun k => by
    simp [degree, waiting]
  have hmap : KeyMap.keys (keys.map fun k => (k, g.degree keys k)) = keys := by
    simp [KeyMap.keys, Function.comp_def]
  refine ⟨fun k => ?_, ?_, fun k => ?_⟩
  · by_cases hk : k ∈ keys
    · -- Each key is listed once with its degree
      rw [if_pos hk, ← hdeg]
      exact KeyMap.find?_of_mem (by rwa [hmap]) (List.mem_map_of_mem hk)
    · rw [if_neg hk, KeyMap.find?_eq_none_iff, hmap]
      exact hk
  · refine (List.Sublist.map _ List.filter_sublist).nodup ?_
    rw [← KeyMap.keys, hmap]
    exact hkeys
  · simp [← hdeg]

/-- What the sort has placed when it ends. -/
theorem draining_sort (hg : g.Mirrored) (hkeys : keys.Nodup) :
    ∃ degrees', Draining g keys (g.sort keys) [] degrees' := by
  have hfuel : keys.length ≤ ([] : List FieldKey).length + 1 <<< keys.length := by
    have := Nat.lt_two_pow_self (n := keys.length)
    simp only [List.length_nil, Nat.shiftLeft_eq]
    omega
  simpa [sort] using (draining_start hkeys).drain hg hfuel

/-- Sorting places no field twice. -/
theorem nodup_sort (hg : g.Mirrored) (hkeys : keys.Nodup) : (g.sort keys).Nodup := by
  obtain ⟨_, h⟩ := draining_sort hg hkeys
  simpa using h.nodup

/-- It places only fields it was given. -/
theorem mem_of_mem_sort (hg : g.Mirrored) (hkeys : keys.Nodup) {k : FieldKey}
    (hk : k ∈ g.sort keys) : k ∈ keys := by
  obtain ⟨_, h⟩ := draining_sort hg hkeys
  exact ((h.mem_iff k).1 (by simpa using hk)).1

/-- In the sorted list each field comes after those of the keys that it reads. -/
theorem idxOf_sort_lt (hg : g.Mirrored) (hkeys : keys.Nodup) {k d : FieldKey}
    (hk : k ∈ g.sort keys) (hd : d ∈ g.dependencies k) (hd' : d ∈ keys) :
    (g.sort keys).idxOf d < (g.sort keys).idxOf k := by
  have hplaced : Placed g keys [] (g.sort keys) := (draining_start hkeys).placed hg
  exact hplaced.idxOf_lt (nodup_sort hg hkeys) hk hd hd'

/-- If the keys can be ranked so that each one reads only keys of a lower rank, the sort places all
of them. -/
theorem mem_sort_of_rank (hg : g.Mirrored) (hkeys : keys.Nodup) {rank : FieldKey → Nat}
    (hrank : ∀ k ∈ keys, ∀ d ∈ g.dependencies k, d ∈ keys → rank d < rank k) {k : FieldKey}
    (hk : k ∈ keys) : k ∈ g.sort keys := by
  obtain ⟨_, h⟩ := draining_sort hg hkeys
  induction hn : rank k using Nat.strongRecOn generalizing k with
  | ind n ih =>
    have hmem : k ∈ g.sort keys ++ [] := by
      rw [h.mem_iff, waiting_eq_zero_iff]
      -- By induction everything that `k` reads is placed, so it waits for nothing
      exact ⟨hk, fun d hd hd' => ih (rank d) (hn ▸ hrank k hk d hd hd') hd' rfl⟩
    simpa using hmem

end Graph

end ReactiveState
