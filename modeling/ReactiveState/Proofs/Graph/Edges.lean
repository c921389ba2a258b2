import ReactiveState.Graph
import ReactiveState.Proofs.KeyMap

/-!
# Edges of a dependency graph

What `addNode` and `addEdge` do to the views `contains`, `dependents`, `dependencies` and
`isComputed` of a graph, and the invariant `Mirrored`: who reads whom is noted at both ends.  The
invariant holds of graphs whose edges were added between nodes that were there (`Assembled`).
-/

namespace ReactiveState

namespace Graph

/-- Whether the field has the node of a computed field. -/
def isComputed (g : Graph) (k : FieldKey) : Bool :=
  ((g.node? k).map Node.computed).getD false

/-- Every edge is noted at both ends, at each of them once. -/
structure Mirrored (g : Graph) : Prop where
  sorted : KeyMap.Sorted g.nodes
  mem_dependents_iff : ∀ a b, b ∈ g.dependents a ↔ a ∈ g.dependencies b
  dependents_sorted : ∀ k, KeySet.Sorted (g.dependents k)
  dependencies_sorted : ∀ k, KeySet.Sorted (g.dependencies k)

/-- Nodes and noted edges are in key order. -/
structure Ordered (g : Graph) : Prop where
  sorted : KeyMap.Sorted g.nodes
  dependencies_sorted : ∀ k, KeySet.Sorted (g.dependencies k)
  dependents_sorted : ∀ k, KeySet.Sorted (g.dependents k)

/-- A graph with agreeing ends has its lists in order. -/
theorem Mirrored.ordered {g : Graph} (hg : g.Mirrored) : g.Ordered :=
  ⟨hg.sorted, hg.dependencies_sorted, hg.dependents_sorted⟩

/-- What is read is noted at the node of the field that reads it. -/
theorem exists_node_of_mem_dependencies {g : Graph} {k d : FieldKey} (h : d ∈ g.dependencies k) :
    ∃ n, g.node? k = some n ∧ d ∈ n.dependencies := by
  unfold dependencies at h
  cases hn : g.node? k with
  | none => simp [hn] at h
  | some n => exact ⟨n, rfl, by simpa [hn] using h⟩

/-- Whoever has a dependent is a node. -/
theorem exists_node_of_mem_dependents {g : Graph} {k d : FieldKey} (h : k ∈ g.dependents d) :
    ∃ n, g.node? d = some n ∧ k ∈ n.dependents := by
  unfold dependents at h
  cases hn : g.node? d with
  | none => simp [hn] at h
  | some n => exact ⟨n, rfl, by simpa [hn] using h⟩

/-! ### Adding nodes -/

/-- Adding a node leaves the nodes alone that are there, also one with the same key. -/
theorem node?_addNode (g : Graph) (n : Node) (k : FieldKey) :
    (g.addNode n).node? k = (g.node? k).or (if k = n.key then some n else none) := by
  unfold addNode contains node?
  by_cases hk : k = n.key
  · subst hk
    cases h : KeyMap.find? n.key g.nodes <;> simp [h, KeyMap.find?_insert]
  · split
    · rw [Option.or_none]
    · simp [KeyMap.find?_insert, hk]

/-- The lists of the empty graph are in order. -/
theorem ordered_empty : empty.Ordered where
  sorted := List.Pairwise.nil
  dependencies_sorted _ := List.Pairwise.nil
  dependents_sorted _ := List.Pairwise.nil

/-- Adding a node whose lists are in order keeps them so. -/
theorem Ordered.addNode {g : Graph} (hg : g.Ordered) {n : Node}
    (hdependencies : KeySet.Sorted n.dependencies) (hdependents : KeySet.Sorted n.dependents) :
    (g.addNode n).Ordered where
  sorted := by
    unfold Graph.addNode
    split
    · exact hg.sorted
    · exact KeyMap.sorted_insert hg.sorted
  dependencies_sorted k := by
    have hk := hg.dependencies_sorted k
    unfold dependencies at hk ⊢
    rw [node?_addNode]
    -- Only a key that was not there gets the lists of the new node
    cases hn : g.node? k with
    | some m => simpa [hn] using hk
    | none =>
      split
      · exact hdependencies
      · exact List.Pairwise.nil
  dependents_sorted k := by
    have hk := hg.dependents_sorted k
    unfold dependents at hk ⊢
    rw [node?_addNode]
    cases hn : g.node? k with
    | some m => simpa [hn] using hk
    | none =>
      split
      · exact hdependents
      · exact List.Pairwise.nil

/-- A node without edges adds no dependents. -/
theorem dependents_addNode (g : Graph) (key : FieldKey) (computed : Bool) (k : FieldKey) :
    (g.addNode (.isolated key computed)).dependents k = g.dependents k := by
  unfold dependents
  rw [node?_addNode]
  cases g.node? k <;> by_cases hk : k = key <;> simp [hk, Node.isolated]

/-- A node without edges adds no dependencies. -/
theorem dependencies_addNode (g : Graph) (key : FieldKey) (computed : Bool) (k : FieldKey) :
    (g.addNode (.isolated key computed)).dependencies k = g.dependencies k := by
  unfold dependencies
  rw [node?_addNode]
  cases g.node? k <;> by_cases hk : k = key <;> simp [hk, Node.isolated]

/-- Adding a node without edges keeps the ends of the edges in agreement. -/
theorem Mirrored.addNode {g : Graph} (hg : g.Mirrored) (key : FieldKey) (computed : Bool) :
    (g.addNode (.isolated key computed)).Mirrored :=
  have hordered := hg.ordered.addNode (n := .isolated key computed) List.Pairwise.nil
    List.Pairwise.nil
  { sorted := hordered.sorted
    mem_dependents_iff := fun a b => by
      rw [dependents_addNode, dependencies_addNode]
      exact hg.mem_dependents_iff a b
    dependents_sorted := hordered.dependents_sorted
    dependencies_sorted := hordered.dependencies_sorted }

/-- In the empty graph there is nothing to disagree about. -/
theorem mirrored_empty : empty.Mirrored where
  sorted := List.Pairwise.nil
  mem_dependents_iff _ _ := by simp [dependents, dependencies, node?, empty, KeyMap.find?]
  dependents_sorted _ := List.Pairwise.nil
  dependencies_sorted _ := List.Pairwise.nil

/-! ### Adding edges -/

section AddEdge

variable (g : Graph) (dependency dependent k : FieldKey)

/-- Adding an edge enters each end at the other, where they are nodes. -/
theorem node?_addEdge :
    (g.addEdge dependency dependent).node? k = (g.node? k).map fun n =>
      { n with
        dependents := if k = dependency then KeySet.insert dependent n.dependents else n.dependents
        dependencies :=
          if k = dependent then KeySet.insert dependency n.dependencies else n.dependencies } := by
  simp only [addEdge, node?, KeyMap.find?_modify]
  cases KeyMap.find? k g.nodes <;> split_ifs <;> simp

variable {g} in
/-- Adding an edge keeps the lists in order. -/
theorem Ordered.addEdge (hg : g.Ordered) (dependency dependent : FieldKey) :
    (g.addEdge dependency dependent).Ordered where
  sorted := KeyMap.sorted_modify (KeyMap.sorted_modify hg.sorted)
  dependencies_sorted k := by
    have hk := hg.dependencies_sorted k
    unfold dependencies at hk ⊢
    rw [node?_addEdge]
    -- Where there is no node nothing is entered
    cases hn : g.node? k with
    | none => exact List.Pairwise.nil
    | some n =>
      simp only [hn, Option.map_some, Option.getD_some] at hk ⊢
      split
      · exact KeySet.sorted_insert hk
      · exact hk
  dependents_sorted k := by
    have hk := hg.dependents_sorted k
    unfold dependents at hk ⊢
    rw [node?_addEdge]
    cases hn : g.node? k with
    | none => exact List.Pairwise.nil
    | some n =>
      simp only [hn, Option.map_some, Option.getD_some] at hk ⊢
      split
      · exact KeySet.sorted_insert hk
      · exact hk

/-- An edge adds no node. -/
@[simp] theorem contains_addEdge :
    (g.addEdge dependency dependent).contains k = g.contains k := by
  simp [contains, node?_addEdge]

/-- An edge makes no field a computed one. -/
@[simp] theorem isComputed_addEdge :
    (g.addEdge dependency dependent).isComputed k = g.isComputed k := by
  unfold isComputed
  rw [node?_addEdge]
  cases g.node? k <;> simp

variable {g dependency dependent}

/-- The dependents after an edge from a node was added. -/
theorem dependents_addEdge (h : g.contains dependency) :
    (g.addEdge dependency dependent).dependents k =
      if k = dependency then KeySet.insert dependent (g.dependents k) else g.dependents k := by
  unfold dependents
  rw [node?_addEdge]
  by_cases hk : k = dependency
  · -- The node that the edge leaves is there, so the edge is noted at it
    subst hk
    obtain ⟨n, hn⟩ := Option.isSome_iff_exists.1 h
    simp [hn]
  · cases g.node? k <;> simp [hk]

/-- The dependencies after an edge to a node was added. -/
theorem dependencies_addEdge (h : g.contains dependent) :
    (g.addEdge dependency dependent).dependencies k =
      if k = dependent then KeySet.insert dependency (g.dependencies k) else g.dependencies k := by
  unfold dependencies
  rw [node?_addEdge]
  by_cases hk : k = dependent
  · subst hk
    obtain ⟨n, hn⟩ := Option.isSome_iff_exists.1 h
    simp [hn]
  · cases g.node? k <;> simp [hk]

/-- The new edge is there, with those that were there before. -/
theorem mem_dependents_addEdge (h : g.contains dependency) (a b : FieldKey) :
    b ∈ (g.addEdge dependency dependent).dependents a ↔
      (a = dependency ∧ b = dependent) ∨ b ∈ g.dependents a := by
  rw [dependents_addEdge a h]
  by_cases ha : a = dependency <;> simp [ha, KeySet.mem_insert]

/-- An edge between two nodes keeps both ends in step. -/
theorem Mirrored.addEdge (hg : g.Mirrored) (h : g.contains dependency)
    (h' : g.contains dependent) : (g.addEdge dependency dependent).Mirrored where
  sorted := (hg.ordered.addEdge dependency dependent).sorted
  mem_dependents_iff a b := by
    rw [mem_dependents_addEdge h, dependencies_addEdge b h', hg.mem_dependents_iff]
    by_cases hb : b = dependent <;> simp [hb, KeySet.mem_insert]
  dependents_sorted := (hg.ordered.addEdge dependency dependent).dependents_sorted
  dependencies_sorted := (hg.ordered.addEdge dependency dependent).dependencies_sorted

end AddEdge

/-! ### Computed nodes -/

/-- The keys of computed nodes, each once. -/
theorem Mirrored.mem_computedKeys {g : Graph} (hg : g.Mirrored) {k : FieldKey} :
    k ∈ g.computedKeys ↔ g.isComputed k := by
  have hnodup := KeyMap.nodup_of_sorted hg.sorted
  simp only [computedKeys, List.mem_map, List.mem_filter, Prod.exists, exists_and_right,
    exists_eq_right, isComputed, node?]
  constructor
  · -- The keys are distinct, so an entry is the node that its key finds
    rintro ⟨n, hn, hc⟩
    simp [KeyMap.find?_of_mem hnodup hn, hc]
  · intro h
    cases hn : KeyMap.find? k g.nodes with
    | none => simp [hn] at h
    | some n => exact ⟨n, KeyMap.mem_of_find? hn, by simpa [hn] using h⟩

/-- No computed key is listed twice. -/
theorem Mirrored.nodup_computedKeys {g : Graph} (hg : g.Mirrored) : g.computedKeys.Nodup :=
  ((List.filter_sublist).map _).nodup (KeyMap.nodup_of_sorted hg.sorted)

/-! ### Assembled graphs -/

/-- The graphs that are put together from nodes, and from edges between nodes that are there. -/
inductive Assembled : Graph → Prop where
  | empty : Assembled empty
  | addNode {g : Graph} (hg : Assembled g) (key : FieldKey) (computed : Bool) :
    Assembled (g.addNode (.isolated key computed))
  | addEdge {g : Graph} (hg : Assembled g) (dependency dependent : FieldKey)
    (h : g.contains dependency = true) (h' : g.contains dependent = true) :
    Assembled (g.addEdge dependency dependent)

/-- In a graph that was put together by adding nodes, and edges between nodes, the ends agree. -/
theorem Assembled.mirrored {g : Graph} (hg : g.Assembled) : g.Mirrored := by
  induction hg with
  | empty => exact mirrored_empty
  | addNode _ key computed ih => exact ih.addNode key computed
  | addEdge _ _ _ h h' ih => exact ih.addEdge h h'

end Graph

end ReactiveState
