import ReactiveState.Proofs.Graph.Cycles

/-!
# The computed part of a graph

An order of a graph is made from the edges between its computed fields (`order_computedPart`).  So
only these have to be noted at both ends for the order to be right (`order_of_computedMirrored`);
what is noted at stored fields, or of fields that have no node, does not matter.
-/

namespace ReactiveState

namespace Graph

variable {g : Graph} {keys : List FieldKey}

/-- Every edge between computed fields is noted at both ends. -/
def ComputedMirrored (g : Graph) : Prop :=
  ∀ a b, g.isComputed a = true → g.isComputed b = true →
    (b ∈ g.dependents a ↔ a ∈ g.dependencies b)

/-- The node with its edges to and from other computed fields; a stored field keeps none. -/
def computedEdges (g : Graph) (n : Node) : Node :=
  { n with
    dependencies := if n.computed then n.dependencies.filter (g.isComputed ·) else []
    dependents := if n.computed then n.dependents.filter (g.isComputed ·) else [] }

/-- The graph with the edges between computed fields only. -/
def computedPart (g : Graph) : Graph := ⟨g.nodes.map fun p => (p.1, g.computedEdges p.2)⟩

/-! ### Views of the computed part -/

/-- The computed part has the same nodes, each with the edges to computed fields only. -/
theorem node?_computedPart (g : Graph) (k : FieldKey) :
    g.computedPart.node? k = (g.node? k).map g.computedEdges :=
  KeyMap.find?_map k (fun _ => g.computedEdges) g.nodes

/-- It has the same computed fields. -/
@[simp] theorem isComputed_computedPart (g : Graph) (k : FieldKey) :
    g.computedPart.isComputed k = g.isComputed k := by
  unfold isComputed
  rw [node?_computedPart]
  cases g.node? k <;> rfl

/-- They are listed in the same order. -/
@[simp] theorem computedKeys_computedPart (g : Graph) :
    g.computedPart.computedKeys = g.computedKeys := by
  simp [computedKeys, computedPart, computedEdges, List.filter_map, Function.comp_def]

/-- Its dependencies are those of the graph between computed fields. -/
theorem dependencies_computedPart (g : Graph) (k : FieldKey) : g.computedPart.dependencies k =
    if g.isComputed k then (g.dependencies k).filter (g.isComputed ·) else [] := by
  unfold dependencies
  rw [node?_computedPart]
  cases hn : g.node? k with
  | none => simp
  | some n => cases hc : n.computed <;> simp [computedEdges, isComputed, hn, hc]

/-- So are its dependents. -/
theorem dependents_computedPart (g : Graph) (k : FieldKey) : g.computedPart.dependents k =
    if g.isComputed k then (g.dependents k).filter (g.isComputed ·) else [] := by
  unfold dependents
  rw [node?_computedPart]
  cases hn : g.node? k with
  | none => simp
  | some n => cases hc : n.computed <;> simp [computedEdges, isComputed, hn, hc]

/-- If the edges between computed fields are noted at both ends, the ends agree in the computed
part. -/
theorem Ordered.mirrored_computedPart (hg : g.Ordered) (h : g.ComputedMirrored) :
    g.computedPart.Mirrored where
  sorted := List.pairwise_map.2 hg.sorted
  mem_dependents_iff a b := by
    rw [dependents_computedPart, dependencies_computedPart]
    -- An edge to or from a stored field is left out at both ends
    by_cases ha : g.isComputed a = true
    · by_cases hb : g.isComputed b = true
      · simp [ha, hb, h a b ha hb]
      · simp [ha, hb]
    · by_cases hb : g.isComputed b = true <;> simp [ha, hb]
  dependents_sorted k := by
    rw [dependents_computedPart]
    split
    · exact (hg.dependents_sorted k).filter _
    · exact List.Pairwise.nil
  dependencies_sorted k := by
    rw [dependencies_computedPart]
    split
    · exact (hg.dependencies_sorted k).filter _
    · exact List.Pairwise.nil

/-! ### The order of the computed part -/

/-- Releasing changes degrees and keeps the keys. -/
theorem keys_release (ks : List FieldKey) (degrees : List (FieldKey × Nat)) :
    KeyMap.keys (release ks degrees).1 = KeyMap.keys degrees := by
  induction ks generalizing degrees with
  | nil => rfl
  | cons k ks ih =>
    simp only [release]
    split
    · exact ih degrees
    · rw [ih, KeyMap.keys_modify]

/-- Fields that have no degree are passed over. -/
theorem release_filter {p : FieldKey → Bool} (ks : List FieldKey) {degrees : List (FieldKey × Nat)}
    (h : ∀ k ∈ KeyMap.keys degrees, p k = true) :
    release (ks.filter p) degrees = release ks degrees := by
  induction ks generalizing degrees with
  | nil => rfl
  | cons k ks ih =>
    -- A field with a degree satisfies the condition, so only fields without one are filtered out
    cases hd : KeyMap.find? k degrees with
    | none =>
      by_cases hp : p k = true
      · simp [hp, release, hd, ih h]
      · simp [hp, release, hd, ih h]
    | some n =>
      have hk : p k = true := h k (KeyMap.mem_keys (KeyMap.mem_of_find? hd))
      -- Counting down changes no key
      have hmodify : ∀ m ∈ KeyMap.keys (KeyMap.modify k (fun n => n - 1) degrees), p m = true := by
        simpa using h
      simp [hk, release, hd, ih hmodify]

/-- What becomes free has a degree. -/
theorem mem_keys_of_mem_release {ks : List FieldKey} {degrees : List (FieldKey × Nat)}
    {m : FieldKey} (hm : m ∈ (release ks degrees).2) : m ∈ KeyMap.keys degrees := by
  induction ks generalizing degrees with
  | nil => simp [release] at hm
  | cons k ks ih =>
    -- A field is released when its degree has come down, so it has had one
    cases hd : KeyMap.find? k degrees with
    | none =>
      simp only [release, hd] at hm
      exact ih hm
    | some n =>
      have hk : k ∈ KeyMap.keys degrees := KeyMap.mem_keys (KeyMap.mem_of_find? hd)
      -- What is released later has a degree in the map that was counted down, whose keys are the
      -- same
      have hrest : m ∈ (release ks (KeyMap.modify k (fun n => n - 1) degrees)).2 →
          m ∈ KeyMap.keys degrees := fun hm => by simpa using ih hm
      simp only [release, hd] at hm
      split at hm
      · exact (List.mem_cons.1 hm).elim (fun heq => heq ▸ hk) hrest
      · exact hrest hm

/-- Draining a queue of computed fields visits the same fields in the computed part. -/
theorem drain_computedPart {fuel : Nat} {queue : List FieldKey} {degrees : List (FieldKey × Nat)}
    (hdegrees : ∀ k ∈ KeyMap.keys degrees, g.isComputed k = true)
    (hqueue : ∀ k ∈ queue, k ∈ KeyMap.keys degrees) :
    g.computedPart.drain fuel queue degrees = g.drain fuel queue degrees := by
  induction fuel generalizing queue degrees with
  | zero => rfl
  | succ fuel ih =>
    cases queue with
    | nil => rfl
    | cons k queue =>
      obtain ⟨hk, hqueue⟩ := List.forall_mem_cons.1 hqueue
      -- The dependents that are left out of the computed part have no degree
      have hrelease : release (g.computedPart.dependents k) degrees =
          release (g.dependents k) degrees := by
        rw [dependents_computedPart, if_pos (hdegrees k hk), release_filter _ hdegrees]
      simp only [drain, hrelease]
      rw [ih]
      · -- Both conditions survive the step: the keys stay, and what is queued has been released
        rwa [keys_release]
      · rw [keys_release]
        exact List.forall_mem_append.2 ⟨hqueue, fun m hm => mem_keys_of_mem_release hm⟩

/-- So sorting computed fields gives the same order there. -/
theorem sort_computedPart (hkeys : ∀ k ∈ keys, g.isComputed k = true) :
    g.computedPart.sort keys = g.sort keys := by
  -- All keys are computed, so dependencies among them are in the computed part
  have hdegree : ∀ k ∈ keys, g.computedPart.degree keys k = g.degree keys k := fun k hk => by
    rw [degree, degree, dependencies_computedPart, if_pos (hkeys k hk), List.filter_filter]
    congr 1
    refine List.filter_congr fun d _ => ?_
    by_cases hd : d ∈ keys <;> simp [hd, hkeys]
  have hmap : (keys.map fun k => (k, g.computedPart.degree keys k)) =
      keys.map fun k => (k, g.degree keys k) :=
    List.map_congr_left fun k hk => by rw [hdegree k hk]
  -- The degrees are kept for the keys that are sorted
  have hfirst : KeyMap.keys (keys.map fun k => (k, g.degree keys k)) = keys := by
    simp [KeyMap.keys, Function.comp_def]
  rw [sort, sort, hmap, drain_computedPart]
  · rwa [hfirst]
  · intro k hk
    obtain ⟨p, hp, rfl⟩ := List.mem_map.1 hk
    exact KeyMap.mem_keys (List.mem_of_mem_filter hp)

/-- Following dependencies from a computed field among others takes the same path. -/
theorem follow_computedPart (hkeys : ∀ k ∈ keys, g.isComputed k = true) {fuel : Nat}
    {path : List FieldKey} {k : FieldKey} (hk : k ∈ keys) :
    g.computedPart.follow keys fuel path k = g.follow keys fuel path k := by
  induction fuel generalizing path k with
  | zero => rfl
  | succ fuel ih =>
    -- The first dependency among the keys is computed, as all of them are
    have hfind : (g.computedPart.dependencies k).find? (· ∈ keys) =
        (g.dependencies k).find? (· ∈ keys) := by
      rw [dependencies_computedPart, if_pos (hkeys k hk), List.find?_filter]
      congr 1
      funext d
      by_cases hd : d ∈ keys <;> simp [hd, hkeys]
    simp only [follow, hfind]
    split
    · rfl
    · split
      · -- The walk goes on with a field that is among the keys again
        next d hd => exact ih (by simpa using List.find?_some hd)
      · rfl

/-- So the same path is given in place of an order. -/
theorem cycleIn_computedPart (hkeys : ∀ k ∈ keys, g.isComputed k = true) :
    g.computedPart.cycleIn keys = g.cycleIn keys := by
  cases keys with
  | nil => rfl
  | cons k keys => exact follow_computedPart hkeys List.mem_cons_self

/-- The order of a graph is made from the edges between its computed fields. -/
theorem order_computedPart (hcomputed : ∀ k ∈ g.computedKeys, g.isComputed k = true) :
    g.computedPart.order = g.order := by
  have hleft : ∀ k ∈ g.computedKeys.filter (· ∉ g.sort g.computedKeys), g.isComputed k = true :=
    fun k hk => hcomputed k (List.mem_of_mem_filter hk)
  unfold order
  simp only [computedKeys_computedPart, sort_computedPart hcomputed]
  split
  · rfl
  · rw [cycleIn_computedPart hleft]

/-- If every edge between computed fields is noted at both ends, the order has no field twice, and
the path that is given in place of an order is a cycle. -/
theorem Ordered.order_of_computedMirrored (hg : g.Ordered) (h : g.ComputedMirrored) :
    (∀ order, g.order = .ok order → order.Nodup) ∧ ∀ c, g.order = .error c → g.IsCycle c := by
  -- The order looks at computed fields only, so what holds of the computed part holds of the graph
  have hpart := hg.mirrored_computedPart h
  have horder : g.computedPart.order = g.order := order_computedPart fun k hk => by
    rw [← computedKeys_computedPart, hpart.mem_computedKeys] at hk
    simpa using hk
  rw [← horder]
  refine ⟨fun order ho => (sorted_of_order hpart ho).1, fun c hc => ?_⟩
  -- A cycle in the computed part is one in the whole graph
  obtain ⟨⟨hlength, hclosed, hreads, hnodup⟩, -⟩ := isCycle_of_order hpart hc
  refine ⟨hlength, hclosed, hreads.imp fun k d hd => ?_, hnodup⟩
  rw [dependencies_computedPart] at hd
  split at hd
  · exact List.mem_of_mem_filter hd
  · simp at hd

end Graph

end ReactiveState
