import ReactiveState.Proofs.Graph.Affected
import ReactiveState.Proofs.Layout.Containers

/-!
# What compiling guarantees

`Layout.Sound` collects what a layout says of its fields: who reads whom is what the expressions
say, every field that is read is there, the order places each computed field once and after those
that it reads, and a change affects exactly what reads the changed field, directly or through
others.  Every layout that is compiled from a schema that can be built is sound (`compile_sound`).
-/

namespace ReactiveState

namespace Layout

/-- The computed field `k` has the field `d` among its dependencies. -/
def Reads (l : Layout) (k d : FieldKey) : Prop :=
  ∃ e, l.computed? k = some e ∧ d ∈ e.dependencies

/-- How deep a field may be nested: stored fields are at the bottom, computed fields at their place
in the order. -/
def rank (l : Layout) (k : FieldKey) : Nat :=
  if l.isComputed k then l.order.idxOf k + 1 else 0

/-- The field is stored, and the client may see it. -/
def IsVisible (l : Layout) (k : FieldKey) : Prop :=
  ∃ decl, l.field? k = some decl ∧ decl.backend = false

/-- What a layout guarantees. -/
structure Sound (l : Layout) : Prop where
  nodup_paths : (l.containers.map (·.path)).Nodup
  computed?_eq : ∀ k, l.computed? k = (l.container? k.path).bind fun c =>
    (c.schema.computed? k.field).map (Expr.rebased c.path)
  field?_of_isComputed : ∀ k, l.isComputed k = true → l.field? k = none
  reads_known : ∀ k d, l.Reads k d → (l.field? d).isSome = true ∨ l.isComputed d = true
  mem_clientKeys : ∀ k, k ∈ l.clientKeys ↔ l.IsVisible k ∨ l.isComputed k = true
  mem_dependents : ∀ k d, k ∈ l.graph.dependents d ↔ l.Reads k d
  mem_affected : ∀ k d, k ∈ l.graph.affected [d] ↔ Relation.TransGen l.Reads k d
  order_nodup : l.order.Nodup
  mem_order : ∀ k, k ∈ l.order ↔ l.isComputed k = true
  idxOf_lt : ∀ k d, l.Reads k d → l.isComputed d = true → l.order.idxOf d < l.order.idxOf k

variable {l : Layout} {containers : List ContainerInfo} {computed : List (FieldKey × Expr)}
  {g g' : Graph}

theorem Reads.isComputed {k d : FieldKey} (h : l.Reads k d) : l.isComputed k = true := by
  obtain ⟨e, he, _⟩ := h
  simp [Layout.isComputed, he]

theorem rank_of_isComputed {k : FieldKey} (h : l.isComputed k = true) :
    l.rank k = l.order.idxOf k + 1 := by
  rw [rank, if_pos h]

/-- A field ranks above what it reads, when the order has it after that. -/
theorem rank_lt {k d : FieldKey} (hlt : ∀ k d, l.Reads k d → l.isComputed d = true →
    l.order.idxOf d < l.order.idxOf k) (h : l.Reads k d) : l.rank d < l.rank k := by
  rw [rank_of_isComputed h.isComputed, rank]
  split
  · next hd =>
    have := hlt k d h hd
    omega
  · exact Nat.succ_pos _

/-! ### Linking -/

/-- Adding the reads of one field. -/
theorem addReads_spec {k : FieldKey} {ds : List FieldKey} (h : addReads k g ds = .ok g')
    (hg : g.Assembled) (hk : g.contains k = true) :
    g'.Assembled ∧ (∀ m, g'.contains m = g.contains m) ∧ (∀ m, g'.isComputed m = g.isComputed m) ∧
      (∀ d ∈ ds, g.contains d = true) ∧
      ∀ m d, d ∈ g'.dependencies m ↔ d ∈ g.dependencies m ∨ (m = k ∧ d ∈ ds) := by
  induction ds generalizing g with
  | nil =>
    obtain rfl := Except.ok.inj h
    exact ⟨hg, fun _ => rfl, fun _ => rfl, by simp, by simp⟩
  | cons d ds ih =>
    rw [addReads] at h
    split at h
    · next hd =>
      obtain ⟨hm, hcon, hcomp, hds, hdeps⟩ := ih h (hg.addEdge _ _ hd hk) (by simpa using hk)
      simp only [Graph.contains_addEdge, Graph.isComputed_addEdge] at hcon hcomp hds
      refine ⟨hm, hcon, hcomp, List.forall_mem_cons.2 ⟨hd, hds⟩, fun m d' => ?_⟩
      rw [hdeps, Graph.dependencies_addEdge m hk]
      -- Only the edges of the field itself have changed
      by_cases hm : m = k
      · simp only [hm, if_true, KeySet.mem_insert, true_and, List.mem_cons]
        tauto
      · simp [hm]
    · cases h

/-- Linking adds the reads of all computed fields, and nothing else. -/
theorem link_spec {rest : List (FieldKey × Expr)} (h : link containers computed g rest = .ok g')
    (hg : g.Assembled) (hrest : ∀ p ∈ rest, g.contains p.1 = true) :
    g'.Assembled ∧ (∀ m, g'.contains m = g.contains m) ∧ (∀ m, g'.isComputed m = g.isComputed m) ∧
      (∀ p ∈ rest, ∀ d ∈ p.2.dependencies, g.contains d = true) ∧
      ∀ m d, d ∈ g'.dependencies m ↔
        d ∈ g.dependencies m ∨ ∃ e, (m, e) ∈ rest ∧ d ∈ e.dependencies := by
  induction rest generalizing g with
  | nil =>
    obtain rfl := Except.ok.inj h
    exact ⟨hg, fun _ => rfl, fun _ => rfl, by simp, by simp⟩
  | cons p rest ih =>
    obtain ⟨k, e⟩ := p
    obtain ⟨hk, hrest⟩ := List.forall_mem_cons.1 hrest
    rw [link] at h
    obtain ⟨g₁, h₁, h⟩ := bind_eq_ok h
    obtain ⟨_, _, h⟩ := bind_eq_ok h
    -- The reads of the first field are added, then those of the rest
    obtain ⟨hg₁, hcon₁, hcomp₁, hds₁, hdeps₁⟩ := addReads_spec h₁ hg hk
    obtain ⟨hg', hcon, hcomp, hds, hdeps⟩ :=
      ih h hg₁ fun p hp => (hcon₁ p.1).trans (hrest p hp)
    refine ⟨hg', fun m => (hcon m).trans (hcon₁ m), fun m => (hcomp m).trans (hcomp₁ m),
      List.forall_mem_cons.2 ⟨hds₁, fun p hp d hd => (hcon₁ d).symm.trans (hds p hp d hd)⟩,
      fun m d => ?_⟩
    rw [hdeps, hdeps₁, or_assoc]
    refine or_congr_right ?_
    constructor
    · -- What was added comes from the first field or from a later one
      rintro (⟨rfl, hd⟩ | ⟨e', he', hd⟩)
      · exact ⟨e, List.mem_cons_self, hd⟩
      · exact ⟨e', List.mem_cons_of_mem _ he', hd⟩
    · rintro ⟨e', he', hd⟩
      rcases List.mem_cons.1 he' with heq | he'
      · obtain ⟨rfl, rfl⟩ := Prod.mk.inj heq
        exact .inl ⟨rfl, hd⟩
      · exact .inr ⟨e', he', hd⟩

/-! ### Compiling -/

theorem isSome_field? {c : ContainerInfo} {k : FieldKey} (h : c.path = k.path) :
    (c.schema.field? k.field).isSome = true ↔ k ∈ c.storedKeys := by
  obtain ⟨path, field⟩ := k
  obtain rfl : c.path = path := h
  simp [Schema.field?, List.find?_isSome, ContainerInfo.storedKeys]

/-- The graph has a node for each stored field and each computed field, of the right kind. -/
theorem nodesOf_spec (h : (containers.map (·.path)).Nodup)
    (hw : ∀ c ∈ containers, c.schema.WellNamed) (k : FieldKey) :
    ((nodesOf containers).contains k = true ↔ (findField? containers k).isSome = true ∨
        (KeyMap.find? k (rebasedComputed containers)).isSome = true) ∧
      ((nodesOf containers).isComputed k = true ↔
        (KeyMap.find? k (rebasedComputed containers)).isSome = true) ∧
      (nodesOf containers).dependencies k = [] := by
  unfold Graph.contains Graph.isComputed Graph.dependencies
  rw [node?_nodesOf h, find?_rebasedComputed h hw, findField?]
  cases hc : findContainer? containers k.path with
  | none => simp
  | some c =>
    have hpath := path_of_findContainer? hc
    -- A container does not store what it computes, so a node is of one kind only
    have hdisjoint : (c.schema.computed? k.field).isSome = true → c.schema.field? k.field = none :=
      (hw c (mem_of_findContainer? hc)).field?_eq_none
    have hfield := isSome_field? hpath
    have hcomp := isSome_computed? hpath
    simp only [Option.bind_some, Option.isSome_map]
    rw [hfield, hcomp]
    by_cases hs : k ∈ c.storedKeys
    · have hnc : k ∉ c.computedKeys := fun hmem => by
        have hsome := hfield.2 hs
        rw [hdisjoint (hcomp.2 hmem)] at hsome
        cases hsome
      simp [nodeIn?, hs, hnc, Node.isolated]
    · by_cases hk : k ∈ c.computedKeys <;> simp [nodeIn?, hs, hk, Node.isolated]

/-- Who is computed in the linked graph of a schema, and who reads whom. -/
theorem linked_spec (hpaths : (containers.map (·.path)).Nodup)
    (hw : ∀ c ∈ containers, c.schema.WellNamed)
    (h : link containers (rebasedComputed containers) (nodesOf containers)
      (rebasedComputed containers) = .ok g) :
    g.Assembled ∧
      (∀ k, g.isComputed k = true ↔
        (KeyMap.find? k (rebasedComputed containers)).isSome = true) ∧
      (∀ k d, d ∈ g.dependencies k ↔
        ∃ e, KeyMap.find? k (rebasedComputed containers) = some e ∧ d ∈ e.dependencies) ∧
      ∀ k d, d ∈ g.dependencies k → (findField? containers d).isSome = true ∨
        (KeyMap.find? d (rebasedComputed containers)).isSome = true := by
  have hnodes := nodesOf_spec hpaths hw
  have hkeys : (KeyMap.keys (rebasedComputed containers)).Nodup :=
    KeyMap.nodup_of_sorted (KeyMap.sorted_ofList _)
  obtain ⟨hg, _, hcomp, hknown, hdeps⟩ := link_spec h (assembled_nodesOf containers)
    fun p hp => (hnodes p.1).1.2 (.inr (KeyMap.find?_isSome_iff.2 (KeyMap.mem_keys hp)))
  -- The graph before linking has no edges, so what is read is what linking added
  have hreads : ∀ k d, d ∈ g.dependencies k ↔
      ∃ e, KeyMap.find? k (rebasedComputed containers) = some e ∧ d ∈ e.dependencies := by
    intro k d
    simp [hdeps, (hnodes k).2.2, KeyMap.find?_eq_some_iff hkeys]
  refine ⟨hg, fun k => by rw [hcomp, (hnodes k).2.1], hreads, fun k d hd => ?_⟩
  -- Linking refuses a read of a field without a node
  obtain ⟨e, he, hd⟩ := (hreads k d).1 hd
  exact (hnodes d).1.1 (hknown (k, e) (KeyMap.mem_of_find? he) d hd)

/-- What a layout is compiled from. -/
theorem compile_cases {root : Schema} (h : compile root = .ok l) :
    l.containers = root.containersAt root.name none ∧
      l.computed = rebasedComputed l.containers ∧
      link l.containers l.computed (nodesOf l.containers) l.computed = .ok l.graph ∧
      l.graph.order = .ok l.order := by
  unfold compile at h
  simp only at h
  obtain ⟨g, hlink, h⟩ := bind_eq_ok h
  split at h
  · next order horder =>
    obtain rfl := Except.ok.inj h
    exact ⟨rfl, rfl, hlink, horder⟩
  · cases h

/-- The path of the root is its name. -/
theorem root_of_compile {root : Schema} (h : compile root = .ok l) : l.root = root.name := by
  unfold compile at h
  simp only at h
  obtain ⟨g, -, h⟩ := bind_eq_ok h
  split at h
  · obtain rfl := Except.ok.inj h
    rfl
  · cases h

/-- Of the schema, only this matters when its containers are linked: no two of them have the same
path, and each has distinct names. -/
theorem containers_of_compile {root : Schema} (hroot : root.Built) (h : compile root = .ok l) :
    (l.containers.map (·.path)).Nodup ∧ ∀ c ∈ l.containers, c.schema.WellNamed := by
  obtain ⟨hcs, -⟩ := compile_cases h
  rw [hcs]
  exact ⟨Schema.nodup_paths _ _ root hroot,
    fun c hc => (Schema.built_of_mem_containersAt _ _ root hroot c hc).wellNamed⟩

/-- Compiling adds edges only between nodes that are there. -/
theorem assembled_of_compile {root : Schema} (hroot : root.Built) (h : compile root = .ok l) :
    l.graph.Assembled := by
  obtain ⟨-, hexprs, hlink, -⟩ := compile_cases h
  obtain ⟨hpaths, hw⟩ := containers_of_compile hroot h
  rw [hexprs] at hlink
  exact (linked_spec hpaths hw hlink).1

/-- A layout compiled from a schema that declarations can make is sound. -/
theorem compile_sound {root : Schema} (hroot : root.Built) (h : compile root = .ok l) :
    l.Sound := by
  obtain ⟨-, hexprs, hlink, horder⟩ := compile_cases h
  obtain ⟨hpaths, hw⟩ := containers_of_compile hroot h
  -- The expression of a computed field is the one of its container, with the paths in it rebased
  have hcomputed? : ∀ k, l.computed? k = (l.container? k.path).bind fun c =>
      (c.schema.computed? k.field).map (Expr.rebased c.path) := by
    intro k
    rw [computed?, hexprs]
    exact find?_rebasedComputed hpaths hw k
  rw [hexprs] at hlink
  obtain ⟨hg, hcomp, hreads, hknown⟩ := linked_spec hpaths hw hlink
  simp only [← hexprs] at hcomp hreads hknown
  obtain ⟨hnodup, hmem, hlt⟩ := Graph.sorted_of_order hg.mirrored horder
  -- The edges of the graph, read backwards, are the reads of the layout
  have hdependents : ∀ k d, k ∈ l.graph.dependents d ↔ l.Reads k d := fun k d => by
    rw [hg.mirrored.mem_dependents_iff]
    exact hreads k d
  -- A computed field stands behind those that it reads
  have hlt : ∀ k d, l.Reads k d → l.isComputed d = true →
      l.order.idxOf d < l.order.idxOf k := fun k d hkd hd =>
    hlt k d ⟨(hcomp k).2 hkd.isComputed, (hcomp d).2 hd, (hreads k d).2 hkd⟩
  refine
    { nodup_paths := hpaths
      computed?_eq := hcomputed?
      field?_of_isComputed := fun k hk => ?_
      reads_known := fun k d hkd => hknown k d ((hreads k d).2 hkd)
      mem_clientKeys := fun k => ?_
      mem_dependents := hdependents
      mem_affected := fun k d => ?_
      order_nodup := hnodup
      mem_order := fun k => (hmem k).trans (hcomp k)
      idxOf_lt := hlt }
  -- No name of a container is both stored and computed
  · rw [isComputed, hcomputed?] at hk
    rw [field?, findField?]
    cases hc : l.container? k.path with
    | none =>
      rw [container?] at hc
      rw [hc, Option.bind_none]
    | some c =>
      rw [hc, Option.bind_some, Option.isSome_map] at hk
      rw [container?] at hc
      rw [hc, Option.bind_some]
      exact (hw c (mem_of_findContainer? hc)).field?_eq_none hk
  · have := mem_clientKeys_iff hpaths hw k
    rwa [← hexprs] at this
  -- The search finds what a chain of edges reaches
  · have hrank : ∀ k, ∀ d ∈ l.graph.dependencies k, l.rank d < l.rank k := fun k d hd =>
      rank_lt hlt ((hreads k d).1 hd)
    rw [Graph.mem_affected hg.mirrored hrank, ← Relation.transGen_swap]
    simp only [List.mem_singleton, exists_eq_left]
    constructor
    · exact Relation.TransGen.mono (fun a b hab => (hdependents b a).1 hab) d k
    · exact Relation.TransGen.mono (fun a b hab => (hdependents b a).2 hab) d k

end Layout

/-! ### A sample -/

namespace Schema

/-- Sets the counter to seven, and fails after that. -/
def jam : Handler :=
  ⟨false, fun path _ => .set ⟨path, "count"⟩ (.int 7) fun _ => .done (.error (.failed "jammed"))⟩

/-- A counter, its double, the double raised by five, and a handler that jams the counter. -/
def counter : Schema :=
  .mk "app" [⟨"count", .int, .int 1, false, none⟩]
    [("double", .binary .mul (.field (.relative "count") .int) (.literal (.int 2)) .int),
      ("raised", .binary .add (.field (.relative "double") .int) (.literal (.int 5)) .int)]
    [("jam", jam)] [] []

theorem built_counter : counter.Built := by
  have hstart : Built (.mk "app" [] [] [] [] []) := .start (show start "app" = _ from rfl)
  have hcount := hstart.declare
    (show declare _ ⟨"count", .int, .int 1, false, none⟩ = _ from rfl)
  have hdouble := hcount.declareComputed (show declareComputed _ "double"
    (.binary .mul (.field (.relative "count") .int) (.literal (.int 2)) .int) = _ from rfl)
  have hraised := hdouble.declareComputed (show declareComputed _ "raised"
    (.binary .add (.field (.relative "double") .int) (.literal (.int 5)) .int) = _ from rfl)
  exact hraised.declareHandler (show declareHandler _ "jam" jam = _ from rfl)

end Schema

/-- The layout of the counter. -/
def Layout.counter : Layout := (Layout.compile Schema.counter).toOption.get rfl

theorem Layout.compile_counter : Layout.compile Schema.counter = .ok Layout.counter := rfl

end ReactiveState
