import ReactiveState.Proofs.Layout.Addresses
import ReactiveState.Proofs.Tree.Changes

/-!
# Containers of a tree

The containers that a tree is made of are those of its layout, whether they are listed
(`nodes_containerAt`) or looked up by path (`container_eq`).
-/

namespace ReactiveState

/-- What a container is called and what its members are called, in the order of declaration. -/
structure Outline where
  path : String
  parent : Option String
  fields : List String
  computed : List String
  children : List String

/-- What is declared of a container. -/
def ContainerInfo.outline (c : ContainerInfo) : Outline :=
  ⟨c.path, c.parent, c.schema.fields.map (·.name), KeyMap.keys c.schema.computed,
    KeyMap.keys c.schema.children⟩

/-- What a container holds. -/
def Container.outline (c : Container) : Outline :=
  ⟨c.path, c.parent, KeyMap.keys c.values, KeyMap.keys c.slots, KeyMap.keys c.children⟩

namespace Tree

variable {l : Layout} {t : Tree} {root : Schema}

/-! ### Looking up in one container -/

/-- A container holds under a name what the tree holds under the key. -/
theorem find?_entriesAt {α : Type} (path name : String) (m : List (FieldKey × α)) :
    KeyMap.find? name (entriesAt path m) = KeyMap.find? ⟨path, name⟩ m := by
  induction m with
  | nil => rfl
  | cons p m ih =>
    obtain ⟨⟨kpath, kfield⟩, a⟩ := p
    rw [entriesAt] at ih ⊢
    -- Only entries under the path of the container count
    by_cases hpath : kpath = path
    · subst hpath
      by_cases hname : name = kfield
      · simp [KeyMap.find?, hname]
      · simpa [KeyMap.find?, hname] using ih
    · simpa [KeyMap.find?, hpath, Ne.symm hpath] using ih

/-- A container has a child for every child of its schema, in the same order. -/
theorem keys_childrenAt (t : Tree) (path : String) (children : List (String × Schema)) :
    KeyMap.keys (childrenAt t path children) = KeyMap.keys children := by
  induction children with
  | nil => rfl
  | cons p children ih =>
    rw [childrenAt, KeyMap.keys, List.map_cons, ← KeyMap.keys, ih]
    rfl

/-- The child of a name is the container of the child's schema. -/
theorem find?_childrenAt (t : Tree) (path name : String) (children : List (String × Schema)) :
    KeyMap.find? name (childrenAt t path children) = (KeyMap.find? name children).map fun child =>
      t.containerOf ⟨path ++ "." ++ name, some path, child⟩ := by
  induction children with
  | nil => rfl
  | cons p children ih =>
    obtain ⟨n, child⟩ := p
    by_cases hname : name = n
    · simp [childrenAt, KeyMap.find?, hname, containerOf]
    · simpa [childrenAt, KeyMap.find?, hname] using ih

section ContainerOf

variable (t) (c : ContainerInfo)

/-- A container, part by part. -/
theorem containerOf_eq : t.containerOf c = .mk c.path c.parent (entriesAt c.path t.values)
    (entriesAt c.path t.slots) (t.dirtyFields c.path) (childrenAt t c.path c.schema.children) := by
  obtain ⟨path, parent, n, fs, cs, hs, ks, is⟩ := c
  rfl

/-- It has the path of its place in the layout. -/
@[simp] theorem path_containerOf : (t.containerOf c).path = c.path := by
  rw [containerOf_eq, Container.path]

/-- It has the marks of its own fields. -/
@[simp] theorem dirty_containerOf : (t.containerOf c).dirty = t.dirtyFields c.path := by
  rw [containerOf_eq, Container.dirty]

/-- A stored field of a container is the one of the tree. -/
theorem value?_containerOf (name : String) :
    (t.containerOf c).value? name = t.stored? ⟨c.path, name⟩ := by
  rw [containerOf_eq, Container.value?, Container.values, find?_entriesAt, stored?]

/-- A slot of a container is the one of the tree. -/
theorem slot?_containerOf (name : String) :
    (t.containerOf c).slot? name = t.slot? ⟨c.path, name⟩ := by
  rw [containerOf_eq, Container.slot?, Container.slots, find?_entriesAt, slot?]

/-- Its children are the containers of the schema's children. -/
theorem child?_containerOf (name : String) :
    (t.containerOf c).child? name = (c.schema.child? name).map fun child =>
      t.containerOf ⟨c.path ++ "." ++ name, some c.path, child⟩ := by
  rw [containerOf_eq, Container.child?, Container.children, find?_childrenAt, Schema.child?]

end ContainerOf

/-! ### What a container holds -/

/-- Changing the value at a key changes it in the container of the key. -/
theorem entriesAt_modify {α : Type} (path : String) (k : FieldKey) (f : α → α)
    (m : List (FieldKey × α)) : entriesAt path (KeyMap.modify k f m) =
      if path = k.path then KeyMap.modify k.field f (entriesAt path m) else entriesAt path m := by
  induction m with
  | nil => simp [entriesAt, KeyMap.modify]
  | cons p m ih =>
    obtain ⟨⟨kpath, kfield⟩, a⟩ := p
    obtain ⟨path', field'⟩ := k
    rw [entriesAt, entriesAt] at ih ⊢
    -- In the container of the key the entry is changed, and in any other container nothing
    by_cases hpath : path = path'
    · subst hpath
      by_cases hk : kpath = path
      · subst hk
        by_cases hfield : field' = kfield
        · simp [KeyMap.modify, hfield]
        · simpa [KeyMap.modify, hfield] using ih
      · simpa [KeyMap.modify, hk, Ne.symm hk] using ih
    · by_cases hk : kpath = path
      · subst hk
        simpa [KeyMap.modify, hpath, Ne.symm hpath] using ih
      · -- The first entry is of another container, so it is not the one at the key
        by_cases heq : (⟨path', field'⟩ : FieldKey) = ⟨kpath, kfield⟩
        · simp [KeyMap.modify, heq, hk, hpath]
        · simpa [KeyMap.modify, heq, hk, hpath] using ih

/-- Of the entries of all containers, those of one container. -/
theorem entriesAt_flatMap {α : Type} {containers : List ContainerInfo}
    (h : (containers.map (·.path)).Nodup) (members : ContainerInfo → List (String × α))
    {c : ContainerInfo} (hc : c ∈ containers) : entriesAt c.path (containers.flatMap fun c =>
      (members c).map fun p => ((⟨c.path, p.1⟩ : FieldKey), p.2)) = members c := by
  -- The entries of a container are either all taken or all left
  have hown : ∀ c' : ContainerInfo, entriesAt c.path ((members c').map fun p =>
      ((⟨c'.path, p.1⟩ : FieldKey), p.2)) = if c'.path = c.path then members c' else [] := by
    intro c'
    by_cases hpath : c'.path = c.path <;> simp [entriesAt, hpath, List.filter_map,
      Function.comp_def]
  have happend : ∀ m m' : List (FieldKey × α),
      entriesAt c.path (m ++ m') = entriesAt c.path m ++ entriesAt c.path m' := by
    simp [entriesAt]
  induction containers with
  | nil => cases hc
  | cons c' containers ih =>
    obtain ⟨hc', h⟩ := List.nodup_cons.1 h
    rw [List.flatMap_cons, happend, hown]
    rcases List.mem_cons.1 hc with rfl | hc
    · have hothers : entriesAt c.path (containers.flatMap fun c =>
          (members c).map fun p => ((⟨c.path, p.1⟩ : FieldKey), p.2)) = [] := by
        refine List.eq_nil_iff_forall_not_mem.2 fun p hp => ?_
        simp only [entriesAt, List.mem_map, List.mem_filter, List.mem_flatMap] at hp
        obtain ⟨_, ⟨⟨c', hmem, _, _, rfl⟩, hpath⟩, rfl⟩ := hp
        exact hc' (List.mem_map.2 ⟨c', hmem, of_decide_eq_true hpath⟩)
      rw [if_pos rfl, hothers, List.append_nil]
    · have hne : c'.path ≠ c.path := fun heq => hc' (List.mem_map.2 ⟨c, hc, heq.symm⟩)
      rw [if_neg hne, List.nil_append]
      exact ih h hc

/-- The tree has the stored fields and the slots that are declared, each in its container. -/
structure Shaped (l : Layout) (t : Tree) : Prop where
  values : ∀ c ∈ l.containers,
    KeyMap.keys (entriesAt c.path t.values) = c.schema.fields.map (·.name)
  slots : ∀ c ∈ l.containers,
    KeyMap.keys (entriesAt c.path t.slots) = KeyMap.keys c.schema.computed

/-- No change adds a field or takes one away. -/
theorem invariant_shaped (l : Layout) : Invariant l (Shaped l) where
  put t k v _ ht := by
    refine ⟨fun c hc => ?_, ht.slots⟩
    -- A value is replaced in its place
    rw [put, entriesAt_modify]
    split
    · rw [KeyMap.keys_modify, ht.values c hc]
    · exact ht.values c hc
  modifySlot t k f ht := by
    refine ⟨ht.values, fun c hc => ?_⟩
    rw [modifySlot, entriesAt_modify]
    split
    · rw [KeyMap.keys_modify, ht.slots c hc]
    · exact ht.slots c hc
  retry t unsent ht := ⟨ht.values, ht.slots⟩
  clear t ht := ⟨ht.values, ht.slots⟩

section Instantiate

variable (h : (l.containers.map (·.path)).Nodup) {c : ContainerInfo} (hc : c ∈ l.containers)

include h hc

/-- In a fresh tree a container has the defaults of its schema. -/
theorem entriesAt_values_instantiate : entriesAt c.path (instantiate l).values =
    c.schema.fields.map fun decl => (decl.name, decl.default) := by
  rw [← entriesAt_flatMap h (fun c => c.schema.fields.map fun decl => (decl.name, decl.default)) hc]
  simp [instantiate, Function.comp_def]

/-- In a fresh tree a container has a fresh slot for every computed field of its schema. -/
theorem entriesAt_slots_instantiate : entriesAt c.path (instantiate l).slots =
    c.schema.computed.map fun e => (e.1, Slot.fresh) := by
  rw [← entriesAt_flatMap h (fun c => c.schema.computed.map fun e => (e.1, Slot.fresh)) hc]
  simp [instantiate, ContainerInfo.computedKeys, Function.comp_def]

end Instantiate

/-- So a fresh tree has the shape of the layout. -/
theorem shaped_instantiate (h : (l.containers.map (·.path)).Nodup) : Shaped l (instantiate l) where
  values c hc := by
    rw [entriesAt_values_instantiate h hc]
    simp [KeyMap.keys, Function.comp_def]
  slots c hc := by
    rw [entriesAt_slots_instantiate h hc]
    simp [KeyMap.keys, Function.comp_def]

/-- A container holds what is declared of it. -/
theorem outline_containerOf (ht : Shaped l t) {c : ContainerInfo} (hc : c ∈ l.containers) :
    (t.containerOf c).outline = c.outline := by
  rw [containerOf_eq, Container.outline, ContainerInfo.outline, ← ht.values c hc, ← ht.slots c hc,
    ← keys_childrenAt t c.path]
  rfl

/-! ### Walking down -/

/-- Names lead to the container of the schema that they lead to. -/
theorem below?_containerOf (t : Tree) (c : ContainerInfo) (names : List String) :
    (t.containerOf c).below? names = (Layout.infoBelow? c names).map t.containerOf := by
  induction names generalizing c with
  | nil => rfl
  | cons n names ih =>
    rw [Container.below?, Layout.infoBelow?, child?_containerOf]
    cases c.schema.child? n with
    | none => rfl
    | some child => exact ih _

/-- From the container of a schema, a path is found iff it is among the paths of the schema. -/
theorem find?_containerOf {s : Schema} (hs : s.Built) (t : Tree) (path : String)
    (parent : Option String) (p : String) :
    (t.containerOf ⟨path, parent, s⟩).find? p =
      (Layout.findContainer? (s.containersAt path parent) p).map t.containerOf := by
  rw [Container.find?, Schema.findContainer?_containersAt hs, path_containerOf]
  split
  · rfl
  · -- What is not the path itself is looked up name by name
    cases Container.segmentsBelow? path p with
    | none => rfl
    | some names => exact below?_containerOf t _ names

mutual

/-- The containers from a container down are those of its schema. -/
theorem nodes_containerAt (t : Tree) (path : String) (parent : Option String) :
    ∀ s : Schema,
      (t.containerAt path parent s).nodes = (s.containersAt path parent).map t.containerOf
  | .mk name fields computed handlers children inherited => by
    rw [containerAt, Container.nodes, Schema.containersAt, List.map_cons, containerOf_eq,
      nodesBelow_childrenAt t path children]
    rfl

/-- The containers below a list of children, in the order in which the layout lists them. -/
theorem nodesBelow_childrenAt (t : Tree) (path : String) : ∀ children : List (String × Schema),
    Container.nodesBelow (childrenAt t path children) =
      (Schema.childContainersAt path children).map t.containerOf
  | [] => rfl
  | (n, child) :: children => by
    rw [childrenAt, Container.nodesBelow, Schema.childContainersAt, List.map_append,
      nodes_containerAt t _ _ child, nodesBelow_childrenAt t path children]

end

/-! ### The containers of a layout -/

section Compiled

variable (hroot : root.Built) (hl : Layout.compile root = .ok l)

include hroot hl

/-- The root of a compiled layout is the schema that it was compiled from. -/
theorem container?_root : l.container? l.root = some ⟨l.root, none, root⟩ := by
  obtain ⟨hcontainers, -⟩ := Layout.compile_cases hl
  have hname : l.root = root.name := Layout.root_of_compile hl
  rw [Layout.container?, hcontainers, hname]
  exact Schema.findContainer?_pathBelow root.name none root hroot [] (by simp)

/-- The root of a tree is the container of the root schema. -/
theorem root?_eq (t : Tree) : t.root? l = some (t.containerOf ⟨l.root, none, root⟩) := by
  rw [root?, container?_root hroot hl, Option.map_some]

omit hroot in
/-- The containers of a tree are those of the layout. -/
theorem nodes_root (t : Tree) :
    (t.containerOf ⟨l.root, none, root⟩).nodes = l.containers.map t.containerOf := by
  obtain ⟨hcontainers, -⟩ := Layout.compile_cases hl
  have hname : l.root = root.name := Layout.root_of_compile hl
  rw [containerOf, nodes_containerAt, hcontainers, hname]

/-- A path is found in a tree iff it is in the layout. -/
theorem container_eq (t : Tree) (p : String) : t.container l p =
    match l.container? p with
    | some c => .ok (t.containerOf c)
    | none => .error (.unknownContainer p) := by
  obtain ⟨hcontainers, -⟩ := Layout.compile_cases hl
  have hname : l.root = root.name := Layout.root_of_compile hl
  -- From the root every container of the layout is found
  have hfind := find?_containerOf hroot t root.name none p
  rw [← hcontainers] at hfind
  rw [container, root?_eq hroot hl, Option.bind_some, hname, hfind, Layout.container?]
  cases Layout.findContainer? l.containers p <;> rfl

end Compiled

end Tree

end ReactiveState
