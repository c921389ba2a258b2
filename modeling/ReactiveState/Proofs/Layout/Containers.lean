import ReactiveState.Proofs.Graph.Edges
import ReactiveState.Proofs.Layout.Paths

/-!
# Looking up in containers

With distinct paths a look-up that goes through all containers is a look-up in the container of the
path (`findSome?_containers`).  So each part of a layout that lists the fields of all containers
answers through `findContainer?`: the computed expressions (`find?_rebasedComputed`), the nodes of
the graph (`node?_nodesOf`) and the fields that the client may see (`mem_clientKeys_iff`).
-/

namespace ReactiveState

namespace Layout

variable {containers : List ContainerInfo}

/-- The container found at a path has this path. -/
theorem path_of_findContainer? {path : String} {c : ContainerInfo}
    (h : findContainer? containers path = some c) : c.path = path := by
  simpa using List.find?_some h

/-- What is found is one of the containers. -/
theorem mem_of_findContainer? {path : String} {c : ContainerInfo}
    (h : findContainer? containers path = some c) : c ∈ containers :=
  List.mem_of_find?_eq_some h

/-- With distinct paths a container is found at its path. -/
theorem findContainer?_of_mem (h : (containers.map (·.path)).Nodup) {c : ContainerInfo}
    (hc : c ∈ containers) : findContainer? containers c.path = some c := by
  induction containers with
  | nil => cases hc
  | cons c' containers ih =>
    obtain ⟨hc', h⟩ := List.nodup_cons.1 h
    rcases List.mem_cons.1 hc with rfl | hc
    · simp [findContainer?]
    · -- The first container has another path
      have hne : c'.path ≠ c.path := fun heq => hc' (List.mem_map.2 ⟨c, hc, heq.symm⟩)
      simpa [findContainer?, hne] using ih h hc

/-- Where only the container of one path can answer, it answers for all. -/
theorem findSome?_containers {β : Type} {f : ContainerInfo → Option β} {path : String}
    (h : (containers.map (·.path)).Nodup) (hf : ∀ c ∈ containers, c.path ≠ path → f c = none) :
    containers.findSome? f = (findContainer? containers path).bind f := by
  cases hc : findContainer? containers path with
  | none =>
    -- No container has the path, so none answers
    refine List.findSome?_eq_none_iff.2 fun c hmem => hf c hmem ?_
    simpa using List.find?_eq_none.1 hc c hmem
  | some c =>
    have hpath := path_of_findContainer? hc
    -- The container with the path answers for all, or no one does
    cases hs : containers.findSome? f with
    | none => exact (List.findSome?_eq_none_iff.1 hs c (mem_of_findContainer? hc)).symm
    | some b =>
      obtain ⟨c', hmem, hb⟩ := List.exists_of_findSome?_eq_some hs
      -- The first container that answers has the path, and so it is the one that is found
      have hpath' : c'.path = path := by
        by_contra hne
        rw [hf c' hmem hne] at hb
        cases hb
      have hfind := findContainer?_of_mem h hmem
      rw [hpath', hc, Option.some.injEq] at hfind
      rw [hfind, Option.bind_some, hb]

/-- The entries of one container, looked up by key. -/
theorem find?_map_under {α β : Type} (path : String) (name : α → String) (f : α → β)
    (as : List α) (k : FieldKey) :
    KeyMap.find? k (as.map fun a => ((⟨path, name a⟩ : FieldKey), f a)) =
      if path = k.path then (as.find? (name · = k.field)).map f else none := by
  obtain ⟨kpath, kfield⟩ := k
  induction as with
  | nil => simp [KeyMap.find?]
  | cons a as ih =>
    simp only [List.map_cons, KeyMap.find?, FieldKey.mk.injEq]
    -- Under another path there is no entry; under the key's own path the names decide
    by_cases hp : path = kpath
    · by_cases hn : name a = kfield
      · simp [hp, hn]
      · simpa [hp, hn, Ne.symm hn] using ih
    · simpa [hp, Ne.symm hp] using ih

/-- A map of all containers, looked up container first. -/
theorem find?_flatMap_containers {α β : Type} (h : (containers.map (·.path)).Nodup)
    (members : ContainerInfo → List α) (name : α → String) (f : ContainerInfo → α → β)
    (k : FieldKey) :
    KeyMap.find? k (containers.flatMap fun c =>
      (members c).map fun a => ((⟨c.path, name a⟩ : FieldKey), f c a)) =
      (findContainer? containers k.path).bind fun c =>
        ((members c).find? (name · = k.field)).map (f c) := by
  have hentries : ∀ c : ContainerInfo,
      KeyMap.find? k ((members c).map fun a => ((⟨c.path, name a⟩ : FieldKey), f c a)) =
        if c.path = k.path then ((members c).find? (name · = k.field)).map (f c) else none :=
    fun c => find?_map_under c.path name (f c) (members c) k
  -- The first container that has an entry for the key decides
  simp only [KeyMap.find?_flatMap, hentries]
  rw [findSome?_containers h fun c _ hne => if_neg hne]
  -- Paths are distinct, so the container found is the only one with such entries
  cases hc : findContainer? containers k.path with
  | none => rfl
  | some c => simp [path_of_findContainer? hc]

/-! ### Computed expressions -/

/-- The keys of one kind of members, of all containers, are distinct. -/
theorem nodup_flatMap_containers (h : (containers.map (·.path)).Nodup)
    (members : ContainerInfo → List String) (hm : ∀ c ∈ containers, (members c).Nodup) :
    (containers.flatMap fun c => (members c).map fun n => (⟨c.path, n⟩ : FieldKey)).Nodup := by
  refine List.nodup_flatMap.2 ⟨fun c hc => ?_, (List.pairwise_map.1 h).imp fun {c c'} hne => ?_⟩
  · exact (hm c hc).map fun n n' heq => congrArg FieldKey.field heq
  · intro k hk hk'
    obtain ⟨n, _, rfl⟩ := List.mem_map.1 hk
    obtain ⟨n', _, heq⟩ := List.mem_map.1 hk'
    exact hne (congrArg FieldKey.path heq).symm

/-- A computed field of the layout is that of its container, with relative keys put under the
container's path. -/
theorem find?_rebasedComputed (h : (containers.map (·.path)).Nodup)
    (hw : ∀ c ∈ containers, c.schema.WellNamed) (k : FieldKey) :
    KeyMap.find? k (rebasedComputed containers) = (findContainer? containers k.path).bind fun c =>
      (c.schema.computed? k.field).map (Expr.rebased c.path) := by
  -- The entries come unsorted, and sorting them keeps what is found as long as keys are distinct
  have hkeys : (KeyMap.keys (containers.flatMap fun c => c.schema.computed.map fun e =>
      ((⟨c.path, e.1⟩ : FieldKey), e.2.rebased c.path))).Nodup := by
    have := nodup_flatMap_containers h (fun c => KeyMap.keys c.schema.computed)
      fun c hc => (hw c hc).nodup_computed
    simpa [KeyMap.keys, List.map_flatMap, Function.comp_def] using this
  rw [rebasedComputed, KeyMap.find?_ofList hkeys,
    find?_flatMap_containers h (fun c => c.schema.computed) (·.1) fun c e => e.2.rebased c.path]
  simp [Schema.computed?, KeyMap.find?_eq_map_find?, Function.comp_def]

/-- A container computes the fields it has computed keys for. -/
theorem isSome_computed? {c : ContainerInfo} {k : FieldKey} (h : c.path = k.path) :
    (c.schema.computed? k.field).isSome = true ↔ k ∈ c.computedKeys := by
  obtain ⟨path, field⟩ := k
  obtain rfl : c.path = path := h
  rw [Schema.computed?, KeyMap.find?_isSome_iff]
  simp [KeyMap.keys, ContainerInfo.computedKeys]

/-! ### What the client may see -/

/-- The client may see stored fields that are not for the backend, and all computed ones. -/
theorem mem_clientKeys_iff (h : (containers.map (·.path)).Nodup)
    (hw : ∀ c ∈ containers, c.schema.WellNamed) (k : FieldKey) :
    k ∈ containers.flatMap ContainerInfo.clientKeys ↔
      (∃ decl, findField? containers k = some decl ∧ decl.backend = false) ∨
        (KeyMap.find? k (rebasedComputed containers)).isSome = true := by
  rw [find?_rebasedComputed h hw, findField?, List.mem_flatMap]
  constructor
  · rintro ⟨c, hc, hk⟩
    -- A stored field that is shown, or a computed one
    rcases List.mem_append.1 hk with hk | hk
    · obtain ⟨decl, hdecl, rfl⟩ := List.mem_map.1 hk
      -- The declaration is the one its name leads to, since no name is declared twice
      obtain ⟨hmem, hbackend⟩ := List.mem_filter.1 hdecl
      refine .inl ⟨decl, ?_, by simpa using hbackend⟩
      rw [findContainer?_of_mem h hc, Option.bind_some, (hw c hc).field?_of_mem hmem]
    · have hpath : c.path = k.path := by
        obtain ⟨_, _, rfl⟩ := List.mem_map.1 hk
        rfl
      rw [← hpath, findContainer?_of_mem h hc, Option.bind_some, Option.bind_some,
        Option.isSome_map]
      exact .inr ((isSome_computed? hpath).2 hk)
  · cases hc : findContainer? containers k.path with
    | none => simp
    | some c =>
      have hpath := path_of_findContainer? hc
      rw [Option.bind_some, Option.bind_some, Option.isSome_map, isSome_computed? hpath]
      -- The container of the key lists it among its stored or its computed fields
      rintro (⟨decl, hdecl, hbackend⟩ | hk)
      · refine ⟨c, mem_of_findContainer? hc, List.mem_append_left _ (List.mem_map.2 ⟨decl, ?_, ?_⟩)⟩
        · exact List.mem_filter.2 ⟨List.mem_of_find?_eq_some hdecl, by simpa using hbackend⟩
        · -- The declaration was found under the name of the key
          have hname : decl.name = k.field := by simpa using List.find?_some hdecl
          rw [hpath, hname]
      · exact ⟨c, mem_of_findContainer? hc, List.mem_append_right _ hk⟩

/-! ### Nodes -/

/-- Adding isolated nodes adds nodes for exactly the keys given. -/
theorem node?_foldl_addNode (computed : Bool) (keys : List FieldKey) (g : Graph) (k : FieldKey) :
    (keys.foldl (fun g k => g.addNode (.isolated k computed)) g).node? k =
      (g.node? k).or (if k ∈ keys then some (.isolated k computed) else none) := by
  induction keys generalizing g with
  | nil => simp
  | cons k' keys ih =>
    rw [List.foldl_cons, ih, Graph.node?_addNode]
    by_cases hk : k = k'
    · -- A key that comes again finds its node there
      subst hk
      cases g.node? k <;> simp [Node.isolated]
    · cases g.node? k <;> simp [Node.isolated, hk]

/-- The node that a container adds for a field. -/
def nodeIn? (c : ContainerInfo) (k : FieldKey) : Option Node :=
  if k ∈ c.storedKeys then some (.isolated k false)
  else if k ∈ c.computedKeys then some (.isolated k true)
  else none

/-- A container has no node for a key of another one. -/
theorem nodeIn?_eq_none {c : ContainerInfo} {k : FieldKey} (h : c.path ≠ k.path) :
    nodeIn? c k = none := by
  -- The keys of a container begin with its path
  have hstored : k ∉ c.storedKeys := by
    rintro hm
    obtain ⟨_, _, rfl⟩ := List.mem_map.1 hm
    exact h rfl
  have hcomputed : k ∉ c.computedKeys := by
    rintro hm
    obtain ⟨_, _, rfl⟩ := List.mem_map.1 hm
    exact h rfl
  simp [nodeIn?, hstored, hcomputed]

/-- The node of a key is the one in the key's container. -/
theorem node?_nodesOf (h : (containers.map (·.path)).Nodup) (k : FieldKey) :
    (nodesOf containers).node? k =
      (findContainer? containers k.path).bind fun c => nodeIn? c k := by
  -- A container adds nodes of its own path only
  rw [← findSome?_containers h fun c _ hne => nodeIn?_eq_none hne]
  have hfold : ∀ g : Graph, (containers.foldl (fun g c =>
      let g := c.storedKeys.foldl (fun g k => g.addNode (.isolated k false)) g
      c.computedKeys.foldl (fun g k => g.addNode (.isolated k true)) g) g).node? k =
        (g.node? k).or (containers.findSome? fun c => nodeIn? c k) := by
    clear h
    induction containers with
    | nil => simp
    | cons c containers ih =>
      -- A node that is there already stays, the first container to add one decides
      intro g
      rw [List.foldl_cons, ih, node?_foldl_addNode, node?_foldl_addNode, List.findSome?_cons,
        nodeIn?]
      cases g.node? k <;> by_cases hs : k ∈ c.storedKeys <;> by_cases hc : k ∈ c.computedKeys <;>
        simp [hs, hc]
  exact hfold .empty

/-- The nodes of a layout are put together without edges. -/
theorem assembled_nodesOf (containers : List ContainerInfo) : (nodesOf containers).Assembled := by
  have hkeys : ∀ (computed : Bool) (keys : List FieldKey) (g : Graph), g.Assembled →
      (keys.foldl (fun g k => g.addNode (.isolated k computed)) g).Assembled := by
    intro computed keys
    induction keys with
    | nil => exact fun g hg => hg
    | cons k keys ih => exact fun g hg => ih _ (hg.addNode k computed)
  -- Nodes are added without edges, to whatever graph is there
  suffices ∀ g : Graph, g.Assembled → (containers.foldl (fun g c =>
      let g := c.storedKeys.foldl (fun g k => g.addNode (.isolated k false)) g
      c.computedKeys.foldl (fun g k => g.addNode (.isolated k true)) g) g).Assembled from
    this .empty .empty
  induction containers with
  | nil => exact fun g hg => hg
  | cons c containers ih => exact fun g hg => ih _ (hkeys true _ _ (hkeys false _ _ hg))

end Layout

end ReactiveState
