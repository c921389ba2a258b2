import ReactiveState.Proofs.Graph.Computed

/-!
# Graphs put together in any order

A graph is put together by calls that add nodes and edges, in any order and with any keys
(`after`).  An edge is noted at those of its ends that have a node when it is added, so the two ends
can come to disagree.  `mem_dependents_after` and `mem_dependencies_after` say exactly what is noted
at either end, and `linked_iff` when the ends agree.
-/

namespace ReactiveState

namespace Graph

/-- A call that changes a graph. -/
inductive Call where
  /-- Adds a node, which may have been given edges before. -/
  | addNode (key : FieldKey) (computed : Bool) (dependencies dependents : List FieldKey)
  | addEdge (dependency dependent : FieldKey)
deriving DecidableEq, Repr

namespace Call

/-- The graph after a call. -/
def run (g : Graph) : Call → Graph
  | addNode key computed dependencies dependents =>
    g.addNode ⟨key, computed, KeySet.ofList dependencies, KeySet.ofList dependents⟩
  | addEdge dependency dependent => g.addEdge dependency dependent

/-- The call adds a node of the field. -/
def Adds (k : FieldKey) : Call → Prop
  | addNode key _ _ _ => key = k
  | addEdge _ _ => False

/-- The call notes at `a` that `b` reads it, where `known` says whether `a` has a node already. -/
def NotesDependent (known : Prop) (a b : FieldKey) : Call → Prop
  | addNode key _ _ dependents => ¬ known ∧ key = a ∧ b ∈ dependents
  | addEdge dependency dependent => known ∧ dependency = a ∧ dependent = b

/-- The call notes at `b` that it reads `a`, where `known` says whether `b` has a node already. -/
def NotesDependency (known : Prop) (a b : FieldKey) : Call → Prop
  | addNode key _ dependencies _ => ¬ known ∧ key = b ∧ a ∈ dependencies
  | addEdge dependency dependent => known ∧ dependency = a ∧ dependent = b

/-- A node that the call adds has no edges yet. -/
def Bare : Call → Prop
  | addNode _ _ dependencies dependents => dependencies = [] ∧ dependents = []
  | addEdge _ _ => True

end Call

/-- The graph after some calls, the first one on the empty graph. -/
def after (calls : List Call) : Graph := calls.foldl Call.run empty

/-- Some call is of this kind, given the calls before it. -/
def Sometime (kind : List Call → Call → Prop) (calls : List Call) : Prop :=
  ∃ before call rest, calls = before ++ call :: rest ∧ kind before call

/-- One of the calls adds a node of the field. -/
def Known (calls : List Call) (k : FieldKey) : Prop := ∃ c ∈ calls, c.Adds k

/-- Some call notes at `a` that `b` reads it. -/
def NotedAtDependency (calls : List Call) (a b : FieldKey) : Prop :=
  Sometime (fun before call => call.NotesDependent (Known before a) a b) calls

/-- Some call notes at `b` that it reads `a`. -/
def NotedAtDependent (calls : List Call) (a b : FieldKey) : Prop :=
  Sometime (fun before call => call.NotesDependency (Known before b) a b) calls

/-- The ends of all edges are nodes, and agree on the edges. -/
structure Linked (g : Graph) : Prop where
  contains_dependency : ∀ k, ∀ d ∈ g.dependencies k, g.contains d = true
  contains_dependent : ∀ k, ∀ d ∈ g.dependents k, g.contains d = true
  mem_dependents_iff : ∀ a b, b ∈ g.dependents a ↔ a ∈ g.dependencies b

variable {g : Graph} {calls : List Call} {call : Call} {a b k : FieldKey}
  {kind : List Call → Call → Prop}

/-- The graph after one more call. -/
@[simp] theorem after_concat (calls : List Call) (call : Call) :
    after (calls ++ [call]) = call.run (after calls) := by
  simp [after]

/-- Nothing ever happens in no calls. -/
theorem not_sometime_nil : ¬ Sometime kind [] := by
  rintro ⟨before, call, rest, h, -⟩
  simp at h

/-- A call of some kind was made if one was among the earlier calls, or the last one is of the
kind. -/
theorem sometime_concat :
    Sometime kind (calls ++ [call]) ↔ Sometime kind calls ∨ kind calls call := by
  constructor
  · rintro ⟨before, c, rest, heq, hc⟩
    -- Nothing behind the call means that it is the last one; otherwise the last one is behind
    -- it
    rcases List.eq_nil_or_concat rest with rfl | ⟨rest, last, rfl⟩
    · obtain ⟨rfl, hlast⟩ := List.append_inj' heq rfl
      obtain rfl : call = c := List.singleton_inj.1 hlast
      exact .inr hc
    · rw [List.concat_eq_append, ← List.cons_append, ← List.append_assoc] at heq
      exact .inl ⟨before, c, rest, (List.append_inj' heq rfl).1, hc⟩
  · rintro (⟨before, c, rest, rfl, hc⟩ | hc)
    · exact ⟨before, c, rest ++ [call], by simp, hc⟩
    · exact ⟨calls, call, [], rfl, hc⟩

/-- A node is known after one more call if it was before, or the call adds it. -/
theorem known_concat : Known (calls ++ [call]) k ↔ Known calls k ∨ call.Adds k := by
  simp [Known, or_and_right, exists_or]

/-! ### One call -/

/-- Adding a node adds its key and no other. -/
theorem contains_addNode (g : Graph) (n : Node) (k : FieldKey) :
    (g.addNode n).contains k = true ↔ g.contains k = true ∨ n.key = k := by
  unfold contains
  rw [node?_addNode]
  by_cases h : k = n.key
  · simp [h]
  · simp [h, Ne.symm h]

/-- A call adds the nodes it is about, and none is ever removed. -/
theorem contains_run : (call.run g).contains k = true ↔ g.contains k = true ∨ call.Adds k := by
  cases call with
  | addNode key => exact contains_addNode g _ k
  | addEdge dependency dependent => simp [Call.run, Call.Adds]

/-- Whom a call enters as a dependent, besides those who are entered already. -/
theorem mem_dependents_run : b ∈ (call.run g).dependents a ↔
    b ∈ g.dependents a ∨ call.NotesDependent (g.contains a = true) a b := by
  unfold dependents contains
  cases call with
  | addNode key computed dependencies dependents =>
    rw [Call.run, node?_addNode]
    -- A node that is there already is kept as it is
    cases g.node? a with
    | some n => simp [Call.NotesDependent]
    | none =>
      by_cases ha : a = key
      · simp [Call.NotesDependent, ha, KeySet.mem_ofList]
      · simp [Call.NotesDependent, ha, Ne.symm ha]
  | addEdge dependency dependent =>
    rw [Call.run, node?_addEdge]
    -- An edge finds the node or leaves nothing behind
    cases g.node? a with
    | some n =>
      by_cases ha : a = dependency
      · simp [Call.NotesDependent, ha, KeySet.mem_insert, or_comm, eq_comm]
      · simp [Call.NotesDependent, ha, Ne.symm ha]
    | none => simp [Call.NotesDependent]

/-- Whom a call enters as a dependency, besides those who are entered already. -/
theorem mem_dependencies_run : a ∈ (call.run g).dependencies b ↔
    a ∈ g.dependencies b ∨ call.NotesDependency (g.contains b = true) a b := by
  unfold dependencies contains
  cases call with
  | addNode key computed dependencies dependents =>
    rw [Call.run, node?_addNode]
    cases g.node? b with
    -- A node that is there already is not made anew, so its own list is not read
    | some n => simp [Call.NotesDependency]
    | none =>
      by_cases hb : b = key
      · simp [Call.NotesDependency, hb, KeySet.mem_ofList]
      · simp [Call.NotesDependency, hb, Ne.symm hb]
  | addEdge dependency dependent =>
    rw [Call.run, node?_addEdge]
    -- As above, at the other end of the edge
    cases g.node? b with
    | some n =>
      by_cases hb : b = dependent
      · simp [Call.NotesDependency, hb, KeySet.mem_insert, or_comm, eq_comm]
      · simp [Call.NotesDependency, hb, Ne.symm hb]
    | none => simp [Call.NotesDependency]

/-- Every call keeps the lists of a graph in order. -/
theorem Ordered.run (hg : g.Ordered) (call : Call) : (call.run g).Ordered := by
  cases call with
  | addNode => exact hg.addNode (KeySet.sorted_ofList _) (KeySet.sorted_ofList _)
  | addEdge dependency dependent => exact hg.addEdge dependency dependent

/-! ### All calls -/

/-- A graph has the nodes that were added to it. -/
theorem contains_after (calls : List Call) (k : FieldKey) :
    (after calls).contains k = true ↔ Known calls k := by
  induction calls using List.reverseRecOn with
  | nil => simp [Known, after, contains, node?, empty, KeyMap.find?]
  | append_singleton calls call ih => rw [after_concat, contains_run, ih, known_concat]

/-- What is noted at the field that is read. -/
theorem mem_dependents_after (calls : List Call) (a b : FieldKey) :
    b ∈ (after calls).dependents a ↔ NotedAtDependency calls a b := by
  unfold NotedAtDependency
  induction calls using List.reverseRecOn with
  | nil => exact iff_of_false List.not_mem_nil not_sometime_nil
  | append_singleton calls call ih =>
    rw [after_concat, mem_dependents_run, ih, contains_after, sometime_concat]

/-- What is noted at the field that reads. -/
theorem mem_dependencies_after (calls : List Call) (a b : FieldKey) :
    a ∈ (after calls).dependencies b ↔ NotedAtDependent calls a b := by
  unfold NotedAtDependent
  induction calls using List.reverseRecOn with
  | nil => exact iff_of_false List.not_mem_nil not_sometime_nil
  | append_singleton calls call ih =>
    rw [after_concat, mem_dependencies_run, ih, contains_after, sometime_concat]

/-- The lists of a graph are in order after any calls. -/
theorem ordered_after (calls : List Call) : (after calls).Ordered := by
  induction calls using List.reverseRecOn with
  | nil => exact ordered_empty
  | append_singleton calls call ih =>
    rw [after_concat]
    exact ih.run call

/-! ### Edges noted at both ends -/

/-- Where the ends of every edge agree on it, both of them are nodes. -/
theorem linked_iff : g.Linked ↔ ∀ a b, b ∈ g.dependents a ↔ a ∈ g.dependencies b := by
  refine ⟨Linked.mem_dependents_iff, fun h => ⟨fun k d hd => ?_, fun d k hk => ?_, h⟩⟩
  · obtain ⟨n, hn, -⟩ := exists_node_of_mem_dependents ((h d k).2 hd)
    simp [contains, hn]
  · obtain ⟨n, hn, -⟩ := exists_node_of_mem_dependencies ((h d k).1 hk)
    simp [contains, hn]

/-- What was known at some call is known in the end. -/
theorem known_of_sometime
    (h : Sometime (fun before call => kind before call ∧ Known before k) calls) :
    Known calls k := by
  obtain ⟨before, c, rest, rfl, -, d, hd, hadds⟩ := h
  exact ⟨d, List.mem_append_left _ hd, hadds⟩

/-- A call of one kind is one of any weaker kind. -/
theorem Sometime.imp {kind' : List Call → Call → Prop} (h : Sometime kind calls)
    (himp : ∀ before, ∀ call ∈ calls, kind before call → kind' before call) :
    Sometime kind' calls := by
  obtain ⟨before, c, rest, rfl, hc⟩ := h
  exact ⟨before, c, rest, rfl, himp before c (by simp) hc⟩

/-- Nodes stay, so of two calls the later one finds the nodes of both. -/
theorem sometime_known_and_known
    (ha : Sometime (fun before c => c = call ∧ Known before a) calls)
    (hb : Sometime (fun before c => c = call ∧ Known before b) calls) :
    Sometime (fun before c => c = call ∧ Known before a ∧ Known before b) calls := by
  induction calls using List.reverseRecOn with
  | nil => exact absurd ha not_sometime_nil
  | append_singleton calls last ih =>
    rw [sometime_concat] at ha hb ⊢
    -- Where only one of the two calls is the last one, it is the later one
    rcases ha with ha | ⟨hlast, ha⟩
    · rcases hb with hb | ⟨hlast, hb⟩
      · exact .inl (ih ha hb)
      · exact .inr ⟨hlast, known_of_sometime ha, hb⟩
    · rcases hb with hb | ⟨-, hb⟩
      · exact .inr ⟨hlast, ha, known_of_sometime hb⟩
      · exact .inr ⟨hlast, ha, hb⟩

/-- A call that brings no edges along enters a dependent only by adding the edge to a node. -/
theorem Call.Bare.notesDependent_iff (h : call.Bare) (known : Prop) :
    call.NotesDependent known a b ↔ call = .addEdge a b ∧ known := by
  cases call with
  | addNode => simp [NotesDependent, h.2]
  | addEdge => simp [NotesDependent, and_comm]

/-- The same of the other end. -/
theorem Call.Bare.notesDependency_iff (h : call.Bare) (known : Prop) :
    call.NotesDependency known a b ↔ call = .addEdge a b ∧ known := by
  cases call with
  | addNode => simp [NotesDependency, h.1]
  | addEdge => simp [NotesDependency, and_comm]

/-- If nodes are added without edges, an edge is noted where it finds a node. -/
theorem notedAtDependency_iff (h : ∀ call ∈ calls, call.Bare) : NotedAtDependency calls a b ↔
    Sometime (fun before call => call = .addEdge a b ∧ Known before a) calls :=
  ⟨fun hs => hs.imp fun _ c hc => ((h c hc).notesDependent_iff _).1,
    fun hs => hs.imp fun _ c hc => ((h c hc).notesDependent_iff _).2⟩

/-- Where nodes come without edges, an edge stands at its dependent exactly if it was added while
that was a node. -/
theorem notedAtDependent_iff (h : ∀ call ∈ calls, call.Bare) : NotedAtDependent calls a b ↔
    Sometime (fun before call => call = .addEdge a b ∧ Known before b) calls :=
  ⟨fun hs => hs.imp fun _ c hc => ((h c hc).notesDependency_iff _).1,
    fun hs => hs.imp fun _ c hc => ((h c hc).notesDependency_iff _).2⟩

/-- The ends agree exactly if every edge that was noted at one of them was noted at the other. -/
theorem linked_after_iff_noted (calls : List Call) : (after calls).Linked ↔
    ∀ a b, NotedAtDependency calls a b ↔ NotedAtDependent calls a b := by
  simp only [linked_iff, mem_dependents_after, mem_dependencies_after]

/-- If nodes are added without edges, the ends agree exactly if every edge that finds a node of one
end finds nodes of both at some time. -/
theorem linked_after_iff_of_bare (h : ∀ call ∈ calls, call.Bare) : (after calls).Linked ↔
    ∀ a b, Sometime (fun before c => c = .addEdge a b ∧ (Known before a ∨ Known before b)) calls →
      Sometime (fun before c => c = .addEdge a b ∧ Known before a ∧ Known before b) calls := by
  simp only [linked_after_iff_noted, notedAtDependency_iff h, notedAtDependent_iff h]
  constructor
  · intro hnoted a b ⟨before, c, rest, heq, hc, hknown⟩
    -- From the end that was there the other one follows, and so there is a call that found
    -- both
    rcases hknown with ha | hb
    · have ha : Sometime (fun before c => c = .addEdge a b ∧ Known before a) calls :=
        ⟨before, c, rest, heq, hc, ha⟩
      exact sometime_known_and_known ha ((hnoted a b).1 ha)
    · have hb : Sometime (fun before c => c = .addEdge a b ∧ Known before b) calls :=
        ⟨before, c, rest, heq, hc, hb⟩
      exact sometime_known_and_known ((hnoted a b).2 hb) hb
  · intro hboth a b
    constructor
    · intro ha
      exact (hboth a b (ha.imp fun _ _ _ h => ⟨h.1, .inl h.2⟩)).imp fun _ _ _ h => ⟨h.1, h.2.2⟩
    · intro hb
      exact (hboth a b (hb.imp fun _ _ _ h => ⟨h.1, .inr h.2⟩)).imp fun _ _ _ h => ⟨h.1, h.2.1⟩

/-- Whatever the calls, the ends of the edges are nodes that agree exactly if what some call notes
at one end some call notes at the other.  For nodes that are added without edges this says that no
edge is left that found a node of one end only.  Where the edges between computed fields are noted
at both ends, the order has no field twice, and a path in its place is a cycle. -/
theorem linked_after_iff (calls : List Call) :
    ((after calls).Linked ↔ ∀ a b, NotedAtDependency calls a b ↔ NotedAtDependent calls a b) ∧
    ((∀ call ∈ calls, call.Bare) → ((after calls).Linked ↔ ∀ a b,
      Sometime (fun before c => c = .addEdge a b ∧ (Known before a ∨ Known before b)) calls →
        Sometime (fun before c => c = .addEdge a b ∧ Known before a ∧ Known before b) calls)) ∧
    ((after calls).Linked → (after calls).ComputedMirrored) ∧
    ((after calls).ComputedMirrored →
      (∀ order, (after calls).order = .ok order → order.Nodup) ∧
        ∀ c, (after calls).order = .error c → (after calls).IsCycle c) :=
  ⟨linked_after_iff_noted calls, linked_after_iff_of_bare,
    fun h a b _ _ => h.mem_dependents_iff a b,
    fun h => (ordered_after calls).order_of_computedMirrored h⟩

/-- An edge that finds a node of one end at first and nodes of both ends later. -/
theorem linked_after_iff_again :
    let edge : Call := .addEdge ⟨"app", "a"⟩ ⟨"app", "b"⟩
    let calls : List Call :=
      [.addNode ⟨"app", "b"⟩ true [] [], edge, .addNode ⟨"app", "a"⟩ true [] [], edge]
    (∀ call ∈ calls, call.Bare) ∧ (after calls).Linked ∧
      (after calls).order = .ok [⟨"app", "a"⟩, ⟨"app", "b"⟩] ∧
      List.Nodup [(⟨"app", "a"⟩ : FieldKey), ⟨"app", "b"⟩] := by
  intro edge calls
  have hbare : ∀ call ∈ calls, call.Bare := by simp [calls, edge, Call.Bare]
  obtain ⟨-, hlinked, hmirrored, horder⟩ := linked_after_iff calls
  have h : (after calls).Linked := by
    refine (hlinked hbare).2 fun a b ⟨_, _, _, heq, hc, _⟩ => ?_
    -- The only edge is the one that is added twice
    have hmem : Call.addEdge a b ∈ calls := by simp [heq, hc]
    obtain ⟨rfl, rfl⟩ : a = ⟨"app", "a"⟩ ∧ b = ⟨"app", "b"⟩ := by simpa [calls, edge] using hmem
    -- When it is added for the second time it finds both nodes
    exact ⟨calls.take 3, edge, [], rfl, rfl, by simp [Known, calls, Call.Adds],
      by simp [Known, calls, Call.Adds]⟩
  have ho : (after calls).order = .ok [⟨"app", "a"⟩, ⟨"app", "b"⟩] := rfl
  exact ⟨hbare, h, ho, (horder (hmirrored h)).1 _ ho⟩

/-! ### One end missing -/

/-- An edge that found a node of one end only.  If that is the end that reads, a path is given in
place of the order that is no cycle; if it is the end that is read, the order has a field twice.
Where it closes a circle, the sort does not end at all (`length_drain_halfCircle`). -/
theorem one_end_missing :
    let a : FieldKey := ⟨"app", "a"⟩
    let b : FieldKey := ⟨"app", "b"⟩
    let reader := after [.addNode b true [] [], .addEdge a b]
    let readerFirst := after [.addNode b true [] [], .addEdge a b, .addNode a true [] []]
    let readFirst := after [.addNode a true [] [], .addEdge a b, .addNode b true [] []]
    (a ∈ reader.dependencies b ∧ reader.contains a = false) ∧
      (a ∈ readerFirst.dependencies b ∧ b ∉ readerFirst.dependents a ∧
        readerFirst.order = .error [b] ∧ ¬ readerFirst.IsCycle [b]) ∧
      (b ∈ readFirst.dependents a ∧ a ∉ readFirst.dependencies b ∧
        readFirst.order = .ok [a, b, b] ∧ ¬ [a, b, b].Nodup) := by
  intro a b reader readerFirst readFirst
  have herror : readerFirst.order = .error [b] := by decide
  -- The reader waits for no one, so it is queued at first, and again behind the field that it reads
  have htwice : readFirst.order = .ok [a, b, b] := by decide
  exact ⟨⟨by decide, by decide⟩,
    ⟨by decide, by decide, herror, fun h => absurd h.two_le_length (by decide)⟩,
    ⟨by decide, by decide, htwice, by decide⟩⟩

/-- `a` and `b` read each other, but that `b` reads `a` is noted at `a` only. -/
def halfCircle : Graph :=
  after [.addNode ⟨"app", "a"⟩ true [] [], .addEdge ⟨"app", "a"⟩ ⟨"app", "b"⟩,
    .addNode ⟨"app", "b"⟩ true [] [], .addEdge ⟨"app", "b"⟩ ⟨"app", "a"⟩]

/-- Where one end is missing on a circle, its fields release each other without end: however much
fuel the sort has, it uses up all of it.  So a sort without fuel does not end here. -/
theorem length_drain_halfCircle (fuel : Nat) :
    let degrees := halfCircle.computedKeys.map fun k =>
      (k, halfCircle.degree halfCircle.computedKeys k)
    (halfCircle.drain fuel ((degrees.filter (·.2 = 0)).map (·.1)) degrees).length = fuel := by
  let a : FieldKey := ⟨"app", "a"⟩
  let b : FieldKey := ⟨"app", "b"⟩
  -- Nothing waits any more, and taking one of the two puts the other one into the queue
  have hloop : ∀ fuel, (halfCircle.drain fuel [a] [(a, 0), (b, 0)]).length = fuel ∧
      (halfCircle.drain fuel [b] [(a, 0), (b, 0)]).length = fuel := by
    intro fuel
    induction fuel with
    | zero => exact ⟨rfl, rfl⟩
    | succ fuel ih => exact ⟨congrArg (· + 1) ih.2, congrArg (· + 1) ih.1⟩
  cases fuel with
  | zero => rfl
  -- The field without a noted dependency is taken first, and the circle begins
  | succ fuel => exact congrArg (· + 1) (hloop fuel).1

end Graph

end ReactiveState
