import Mathlib.Data.List.Chain
import Mathlib.Logic.Relation
import ReactiveState.Proofs.Graph.Sort

/-!
# Orders and cycles

An order of a graph has every computed field once, after those that it reads (`sorted_of_order`),
and where there is no order there is a cycle of computed fields (`isCycle_of_order`).  So the cycles
among the computed fields decide which of the two there is (`Assembled.order_sorted_or_cycle`).

What the sort leaves out reads something that it leaves out too (`exists_left`), so a walk that
follows what is left never comes to an end: it has to close (`isCycle_follow`).
-/

namespace ReactiveState

namespace Graph

variable {g : Graph} {keys left path c : List FieldKey} {k : FieldKey}

/-- A path on which every field reads the next one, which ends where it starts and repeats no other
field. -/
structure IsCycle (g : Graph) (c : List FieldKey) : Prop where
  two_le_length : 2 ≤ c.length
  closed : c.head? = c.getLast?
  reads : c.IsChain fun k d => d ∈ g.dependencies k
  nodup : c.tail.Nodup

/-- The first field reads the second one, and both are computed. -/
def ReadsComputed (g : Graph) (k d : FieldKey) : Prop :=
  g.isComputed k = true ∧ g.isComputed d = true ∧ d ∈ g.dependencies k

/-- No field reads itself, directly or through others. -/
def Acyclic (g : Graph) : Prop :=
  ∀ k, ¬ Relation.TransGen (fun k d => d ∈ g.dependencies k) k k

/-! ### Walks that close -/

/-- A walk that comes to a field it has visited contains a cycle. -/
theorem isCycle_dropWhile (hk : k ∈ path) (hnodup : path.Nodup)
    (hchain : (path ++ [k]).IsChain fun k d => d ∈ g.dependencies k) :
    g.IsCycle (path.dropWhile (· ≠ k) ++ [k]) := by
  obtain ⟨before, after, rfl, hbefore⟩ := List.eq_append_cons_of_mem hk
  -- The walk up to the first visit is dropped
  have hdrop : (before ++ k :: after).dropWhile (· ≠ k) = k :: after := by
    rw [List.dropWhile_append_of_pos fun m hm => ?_, List.dropWhile_cons_of_neg (by simp)]
    exact decide_eq_true fun heq => hbefore (heq ▸ hm)
  rw [hdrop]
  rw [List.append_assoc] at hchain
  refine ⟨by simp, ?_, hchain.right_of_append, ?_⟩
  · rw [List.getLast?_concat, List.cons_append, List.head?_cons]
  · -- Apart from its end the path visits no field twice
    have hrest : (k :: after).Nodup := (List.nodup_append.1 hnodup).2.1
    have hperm : (after ++ [k]).Perm (k :: after) := List.perm_append_singleton k after
    exact hperm.nodup_iff.2 hrest

/-- Where every field that is left reads another one, following them ends in a cycle. -/
theorem isCycle_follow (hleft : ∀ k ∈ left, ∃ d ∈ g.dependencies k, d ∈ left) {fuel : Nat}
    (hk : k ∈ left) (hpath : path ⊆ left) (hnodup : path.Nodup)
    (hchain : (path ++ [k]).IsChain fun k d => d ∈ g.dependencies k)
    (hfuel : left.length < path.length + fuel) :
    g.IsCycle (g.follow left fuel path k) ∧ g.follow left fuel path k ⊆ left := by
  induction fuel generalizing path k with
  | zero =>
    -- A walk without repetition is no longer than the list it stays in
    have hle : path.length ≤ left.length := (List.subperm_of_subset hnodup hpath).length_le
    omega
  | succ fuel ih =>
    by_cases hmem : k ∈ path
    · -- The walk closes
      simp only [follow, if_pos hmem]
      refine ⟨isCycle_dropWhile hmem hnodup hchain, ?_⟩
      exact List.append_subset.2
        ⟨fun m hm => hpath ((List.dropWhile_sublist _).subset hm), by simpa⟩
    · -- The walk goes on to a field that is left, and repeats nothing so far
      simp only [follow, if_neg hmem]
      obtain ⟨d, hd, hdleft⟩ := hleft k hk
      cases hfind : (g.dependencies k).find? (· ∈ left) with
      | none => exact absurd hdleft (by simpa using List.find?_eq_none.1 hfind d hd)
      | some next =>
        have hnext : next ∈ left := by simpa using List.find?_some hfind
        refine ih hnext ?_ ?_ ?_ (by rw [List.length_append, List.length_singleton]; omega)
        · exact List.append_subset.2 ⟨hpath, by simpa using hk⟩
        · simpa [List.nodup_append] using ⟨hnodup, fun m hm heq => hmem (heq ▸ hm)⟩
        · refine hchain.append (List.isChain_singleton next) ?_
          simpa using List.mem_of_find?_eq_some hfind

theorem isCycle_cycleIn (hleft : ∀ k ∈ left, ∃ d ∈ g.dependencies k, d ∈ left)
    (hne : left ≠ []) : g.IsCycle (g.cycleIn left) ∧ g.cycleIn left ⊆ left := by
  obtain ⟨k, rest, rfl⟩ := List.exists_cons_of_ne_nil hne
  exact isCycle_follow hleft List.mem_cons_self (List.nil_subset _) List.nodup_nil
    (List.isChain_singleton k) (by simp)

/-- Going once around a cycle. -/
theorem IsCycle.exists_transGen (h : g.IsCycle c) {r : FieldKey → FieldKey → Prop}
    (hr : ∀ k ∈ c, ∀ d ∈ c, d ∈ g.dependencies k → r k d) : ∃ k, Relation.TransGen r k k := by
  obtain ⟨hlength, hclosed, hreads, -⟩ := h
  cases c with
  | nil => simp at hlength
  | cons k rest =>
    -- The path goes along the relation, so its first field leads to all the others
    have hchain : (k :: rest).IsChain (Relation.TransGen r) :=
      hreads.imp_of_mem_imp fun a b ha hb hab => .single (hr a ha b hb hab)
    have hne : rest ≠ [] := by
      rintro rfl
      simp at hlength
    -- The last field of the path is its first one
    have hlast : k ∈ rest := by
      rw [List.head?_cons, List.getLast?_cons_of_ne_nil hne] at hclosed
      exact List.mem_of_getLast? hclosed.symm
    exact ⟨k, (List.pairwise_cons.1 hchain.pairwise).1 k hlast⟩

/-! ### What the sort leaves out -/

/-- What is left out reads something that is left out. -/
theorem exists_left (hg : g.Mirrored) (hkeys : keys.Nodup) :
    ∀ k ∈ keys.filter (· ∉ g.sort keys), ∃ d ∈ g.dependencies k,
      d ∈ keys.filter (· ∉ g.sort keys) := by
  intro k hk
  obtain ⟨_, h⟩ := draining_sort hg hkeys
  obtain ⟨hk, hplaced⟩ : k ∈ keys ∧ k ∉ g.sort keys := by simpa using hk
  -- It waits for something, or else it had been placed
  have hwaiting : g.waiting keys (g.sort keys) k ≠ 0 := fun hz =>
    hplaced (by simpa using (h.mem_iff k).2 ⟨hk, hz⟩)
  rw [Ne, waiting_eq_zero_iff] at hwaiting
  push Not at hwaiting
  obtain ⟨d, hd, hdkeys, hdplaced⟩ := hwaiting
  exact ⟨d, hd, by simpa using ⟨hdkeys, hdplaced⟩⟩

/-- In an acyclic graph the sort places all of the keys. -/
theorem mem_sort_of_acyclic (hg : g.Mirrored) (hkeys : keys.Nodup) (h : g.Acyclic)
    (hk : k ∈ keys) : k ∈ g.sort keys := by
  by_contra hplaced
  have hne : keys.filter (· ∉ g.sort keys) ≠ [] :=
    List.ne_nil_of_mem (List.mem_filter.2 ⟨hk, by simpa using hplaced⟩)
  obtain ⟨hcycle, -⟩ := isCycle_cycleIn (exists_left hg hkeys) hne
  obtain ⟨m, hm⟩ := hcycle.exists_transGen fun _ _ _ _ hd => hd
  exact h m hm

/-- There is a node at either end of an edge. -/
theorem mem_keys_of_mem_dependencies (hg : g.Mirrored) {d : FieldKey}
    (h : d ∈ g.dependencies k) : d ∈ KeyMap.keys g.nodes ∧ k ∈ KeyMap.keys g.nodes := by
  obtain ⟨n, hn, -⟩ := exists_node_of_mem_dependents ((hg.mem_dependents_iff d k).2 h)
  obtain ⟨m, hm, -⟩ := exists_node_of_mem_dependencies h
  exact ⟨KeyMap.mem_keys (KeyMap.mem_of_find? hn), KeyMap.mem_keys (KeyMap.mem_of_find? hm)⟩

/-- The fields of an acyclic graph can be ranked by what they read. -/
theorem Acyclic.exists_rank (hg : g.Mirrored) (h : g.Acyclic) :
    ∃ rank : FieldKey → Nat, ∀ k, ∀ d ∈ g.dependencies k, rank d < rank k := by
  have hkeys : (KeyMap.keys g.nodes).Nodup := KeyMap.nodup_of_sorted hg.sorted
  -- A field ranks where the sort of all fields places it
  refine ⟨fun k => (g.sort (KeyMap.keys g.nodes)).idxOf k, fun k d hd => ?_⟩
  obtain ⟨hdmem, hkmem⟩ := mem_keys_of_mem_dependencies hg hd
  exact idxOf_sort_lt hg hkeys (mem_sort_of_acyclic hg hkeys h hkmem) hd hdmem

/-- No steps lead back where every step goes down. -/
theorem not_transGen_of_rank {r : FieldKey → FieldKey → Prop} (rank : FieldKey → Nat)
    (hr : ∀ k d, r k d → rank d < rank k) (k : FieldKey) : ¬ Relation.TransGen r k k := by
  have hdown : ∀ d, Relation.TransGen r k d → rank d < rank k := by
    intro d hd
    induction hd with
    | single hd => exact hr _ _ hd
    | tail _ hd ih => exact (hr _ _ hd).trans ih
  exact fun hk => lt_irrefl _ (hdown k hk)

/-- A graph whose fields rank above what they read is acyclic. -/
theorem acyclic_of_rank (rank : FieldKey → Nat)
    (h : ∀ p ∈ g.nodes, ∀ d ∈ p.2.dependencies, rank d < rank p.1) : g.Acyclic := by
  refine not_transGen_of_rank rank fun k d hd => ?_
  obtain ⟨n, hn, hd⟩ := exists_node_of_mem_dependencies hd
  exact h (k, n) (KeyMap.mem_of_find? hn) d hd

/-! ### The order -/

/-- An order of a graph has each computed field once, after those that it reads. -/
theorem sorted_of_order {order : List FieldKey} (hg : g.Mirrored) (h : g.order = .ok order) :
    order.Nodup ∧ (∀ k, k ∈ order ↔ g.isComputed k = true) ∧
      ∀ k d, g.ReadsComputed k d → order.idxOf d < order.idxOf k := by
  have hnodup := hg.nodup_computedKeys
  unfold Graph.order at h
  simp only at h
  split at h
  · -- There is an order if the sort has left no computed field out
    next hleft =>
    obtain rfl := Except.ok.inj h
    have hmem : ∀ k, k ∈ g.sort g.computedKeys ↔ g.isComputed k = true := fun k => by
      rw [← hg.mem_computedKeys]
      refine ⟨mem_of_mem_sort hg hnodup, fun hk => ?_⟩
      simpa using List.filter_eq_nil_iff.1 hleft k hk
    exact ⟨nodup_sort hg hnodup, hmem, fun k d ⟨hk, hd, hread⟩ =>
      idxOf_sort_lt hg hnodup ((hmem k).2 hk) hread (hg.mem_computedKeys.2 hd)⟩
  · cases h

/-- Where there is no order there is a cycle of computed fields. -/
theorem isCycle_of_order (hg : g.Mirrored) (h : g.order = .error c) :
    g.IsCycle c ∧ ∀ k ∈ c, g.isComputed k = true := by
  unfold Graph.order at h
  simp only at h
  split at h
  · cases h
  · next hne =>
    obtain rfl := Except.error.inj h
    -- Among the fields that the sort has left each reads another one
    obtain ⟨hcycle, hsub⟩ := isCycle_cycleIn (exists_left hg hg.nodup_computedKeys) hne
    exact ⟨hcycle, fun k hk => hg.mem_computedKeys.1 (List.mem_of_mem_filter (hsub hk))⟩

/-- There is an order of a graph unless some computed field reads itself, directly or through other
computed fields.  The order has every computed field once, and after every computed field that it
reads; where there is none, there is a cycle of computed fields to show. -/
theorem Assembled.order_sorted_or_cycle (hg : g.Assembled) :
    ((∃ order, g.order = .ok order) ↔ ∀ k, ¬ Relation.TransGen g.ReadsComputed k k) ∧
      (∀ order, g.order = .ok order → order.Nodup ∧ (∀ k, k ∈ order ↔ g.isComputed k = true) ∧
        ∀ k d, g.ReadsComputed k d → order.idxOf d < order.idxOf k) ∧
      ∀ c, g.order = .error c → g.IsCycle c ∧ ∀ k ∈ c, g.isComputed k = true := by
  refine ⟨⟨?_, fun hacyclic => ?_⟩, fun order horder => sorted_of_order hg.mirrored horder,
    fun c hc => isCycle_of_order hg.mirrored hc⟩
  · -- Every step goes down in the order
    rintro ⟨order, horder⟩
    exact not_transGen_of_rank _ (sorted_of_order hg.mirrored horder).2.2
  · cases horder : g.order with
    | ok order => exact ⟨order, rfl⟩
    | error c =>
      -- Otherwise the cycle that is shown would be a way back
      obtain ⟨hcycle, hcomputed⟩ := isCycle_of_order hg.mirrored horder
      obtain ⟨k, hk⟩ := hcycle.exists_transGen fun a ha b hb hab =>
        (⟨hcomputed a ha, hcomputed b hb, hab⟩ : g.ReadsComputed a b)
      exact absurd hk (hacyclic k)

/-! ### A sample -/

/-- `b` and `c` read each other, and `a` reads `b` without being read; `x` is stored. -/
def tangled : Graph :=
  let nodes := (((empty.addNode (.isolated ⟨"app", "x"⟩ false)).addNode
    (.isolated ⟨"app", "a"⟩ true)).addNode (.isolated ⟨"app", "b"⟩ true)).addNode
    (.isolated ⟨"app", "c"⟩ true)
  (((nodes.addEdge ⟨"app", "x"⟩ ⟨"app", "b"⟩).addEdge ⟨"app", "b"⟩ ⟨"app", "c"⟩).addEdge
    ⟨"app", "c"⟩ ⟨"app", "b"⟩).addEdge ⟨"app", "b"⟩ ⟨"app", "a"⟩

theorem assembled_tangled : tangled.Assembled := by
  have hx := Assembled.empty.addNode ⟨"app", "x"⟩ false
  have ha := hx.addNode ⟨"app", "a"⟩ true
  have hnodes := (ha.addNode ⟨"app", "b"⟩ true).addNode ⟨"app", "c"⟩ true
  have hxb := hnodes.addEdge ⟨"app", "x"⟩ ⟨"app", "b"⟩ rfl rfl
  have hbc := hxb.addEdge ⟨"app", "b"⟩ ⟨"app", "c"⟩ rfl rfl
  have hcb := hbc.addEdge ⟨"app", "c"⟩ ⟨"app", "b"⟩ rfl rfl
  exact hcb.addEdge _ _ rfl rfl

/-- The walk from `a` closes at `b`, and `a` is no part of the cycle. -/
theorem order_sorted_or_cycle_tangled :
    tangled.order = .error [⟨"app", "b"⟩, ⟨"app", "c"⟩, ⟨"app", "b"⟩] ∧
      tangled.IsCycle [⟨"app", "b"⟩, ⟨"app", "c"⟩, ⟨"app", "b"⟩] := by
  have horder : tangled.order = .error [⟨"app", "b"⟩, ⟨"app", "c"⟩, ⟨"app", "b"⟩] := rfl
  exact ⟨horder, (assembled_tangled.order_sorted_or_cycle.2.2 _ horder).1⟩

end Graph

end ReactiveState
