import ReactiveState.Proofs.Tree.Containers

/-!
# Containers change in place

A tree keeps the fields of all containers together, and its containers are put together from them.
They might as well be kept as containers: the fresh tree has the fresh containers
(`containerOf_instantiate`), and what a change does to a field is what happens to the container that
is found at its path, and to no other (`containerOf_put`, `containerOf_modifySlot`).
-/

namespace ReactiveState

namespace Tree

variable {l : Layout} {t t' : Tree} {root : Schema} {path name : String}

/-! ### Trees that differ in one container -/

/-- The trees have the same in the container of a path. -/
structure SameAt (t t' : Tree) (path : String) : Prop where
  values : entriesAt path t.values = entriesAt path t'.values
  slots : entriesAt path t.slots = entriesAt path t'.slots
  dirty : t.dirtyFields path = t'.dirtyFields path

mutual

/-- The containers of a schema are the same in trees that have the same in all of them. -/
theorem containerAt_congr (path : String) (parent : Option String) : ∀ s : Schema,
    (∀ c ∈ s.containersAt path parent, SameAt t t' c.path) →
      t.containerAt path parent s = t'.containerAt path parent s
  | .mk name fields computed handlers children inherited, h => by
    rw [Schema.containersAt] at h
    obtain ⟨hown, hbelow⟩ := List.forall_mem_cons.1 h
    rw [containerAt, containerAt, hown.values, hown.slots, hown.dirty,
      childrenAt_congr path children hbelow]

/-- Trees that agree on the containers below have the same children. -/
theorem childrenAt_congr (path : String) : ∀ children : List (String × Schema),
    (∀ c ∈ Schema.childContainersAt path children, SameAt t t' c.path) →
      childrenAt t path children = childrenAt t' path children
  | [], _ => rfl
  | (n, child) :: children, h => by
    rw [Schema.childContainersAt] at h
    obtain ⟨hchild, hrest⟩ := List.forall_mem_append.1 h
    rw [childrenAt, childrenAt, containerAt_congr _ _ child hchild,
      childrenAt_congr path children hrest]

end

/-- What a change does to the entries of the container of a path. -/
def Rewrites (f : Container → Container) (t t' : Tree) (path : String) : Prop :=
  ∀ parent children, f (.mk path parent (entriesAt path t.values) (entriesAt path t.slots)
      (t.dirtyFields path) children) =
    .mk path parent (entriesAt path t'.values) (entriesAt path t'.slots) (t'.dirtyFields path)
      children

section Modify

variable {f : Container → Container} {q : String}

/-- A change below one child leaves all other children alone. -/
theorem childrenAt_eq_of_notMem (hother : ∀ p, p ≠ q → SameAt t t' p) {n : String}
    {ns : List String} (hsegments : ∀ m ∈ n :: ns, IsSegment m) (hq : q = pathBelow path (n :: ns))
    {children : List (String × Schema)} (hn : n ∉ KeyMap.keys children)
    (hid : ∀ m ∈ KeyMap.keys children, IsSegment m) (hbuilt : ∀ c ∈ children, c.2.Built) :
    childrenAt t path children = childrenAt t' path children := by
  refine childrenAt_congr path children fun c hc => hother c.path fun heq => hn ?_
  obtain ⟨m, ms, hms, hmem, hpath⟩ :=
    Schema.exists_pathBelow_child path children hid hbuilt c hc
  -- Paths are read in one way only, so the change would be below this child
  have hsame : n :: ns = m :: ms :=
    pathBelow_injective hsegments hms ((hq.symm.trans heq.symm).trans hpath)
  rw [(List.cons.inj hsame).1]
  exact hmem

/-- A change below the child of a name, when it is known what the change does there. -/
theorem modify_childrenAt (hother : ∀ p, p ≠ q → SameAt t t' p) {n : String} {ns : List String}
    (hsegments : ∀ m ∈ n :: ns, IsSegment m) (hq : q = pathBelow path (n :: ns))
    {g : Container → Container}
    (hchild : ∀ child : Schema, child.Built →
      g (t.containerAt (path ++ "." ++ n) (some path) child) =
        t'.containerAt (path ++ "." ++ n) (some path) child)
    {children : List (String × Schema)} (hnodup : (KeyMap.keys children).Nodup)
    (hid : ∀ m ∈ KeyMap.keys children, IsSegment m) (hbuilt : ∀ c ∈ children, c.2.Built) :
    KeyMap.modify n g (childrenAt t path children) = childrenAt t' path children := by
  induction children with
  | nil => rfl
  | cons p children ih =>
    obtain ⟨m, child⟩ := p
    obtain ⟨hm, hnodup⟩ := List.nodup_cons.1 hnodup
    obtain ⟨hidm, hidrest⟩ := List.forall_mem_cons.1 hid
    obtain ⟨hbuiltm, hbuiltrest⟩ := List.forall_mem_cons.1 hbuilt
    rw [childrenAt, childrenAt, KeyMap.modify]
    -- This child is changed, and the others are not since names are distinct
    by_cases heq : n = m
    · have hrest : childrenAt t path children = childrenAt t' path children :=
        childrenAt_eq_of_notMem hother hsegments hq (heq ▸ hm) hidrest hbuiltrest
      rw [if_pos heq, ← heq, hchild child hbuiltm, hrest]
    · -- The first child is not the one, so it stays
      have hfirst : childrenAt t path [(m, child)] = childrenAt t' path [(m, child)] :=
        childrenAt_eq_of_notMem hother hsegments hq (by simpa [KeyMap.keys] using heq)
          (by simpa [KeyMap.keys] using hidm) (by simpa using hbuiltm)
      simp only [childrenAt, List.cons.injEq, Prod.mk.injEq, true_and, and_true] at hfirst
      rw [if_neg heq, hfirst, ih hnodup hidrest hbuiltrest]

/-- Changing the container that names lead to is the change of the tree. -/
theorem modifyBelow_containerOf (hother : ∀ p, p ≠ q → SameAt t t' p)
    (hrewrites : Rewrites f t t' q) {names : List String}
    (hsegments : ∀ n ∈ names, IsSegment n) {c : ContainerInfo}
    (hc : c.schema.Built) (hq : q = pathBelow c.path names) :
    Container.modifyBelow f names (t.containerOf c) = t'.containerOf c := by
  have hw := hc.wellNamed
  induction names generalizing c with
  | nil =>
    obtain rfl : q = c.path := hq
    -- No container below has the path of the container itself
    have hbelow : childrenAt t c.path c.schema.children =
        childrenAt t' c.path c.schema.children := by
      refine childrenAt_congr c.path _ fun d hd => hother d.path ?_
      obtain ⟨m, ms, -, -, hpath⟩ := Schema.exists_pathBelow_child c.path c.schema.children
        hw.isSegment_child hw.children d hd
      rw [hpath]
      exact pathBelow_ne c.path m ms
    rw [containerOf_eq, containerOf_eq, Container.modifyBelow, hrewrites, hbelow]
  | cons n ns ih =>
    have hown : SameAt t t' c.path := hother c.path fun heq =>
      pathBelow_ne c.path n ns (hq.symm.trans heq.symm)
    have hchild : ∀ child : Schema, child.Built →
        Container.modifyBelow f ns (t.containerAt (c.path ++ "." ++ n) (some c.path) child) =
          t'.containerAt (c.path ++ "." ++ n) (some c.path) child := fun child hbuilt =>
      ih (List.forall_mem_cons.1 hsegments).2 (c := ⟨c.path ++ "." ++ n, some c.path, child⟩)
        hbuilt hq hbuilt.wellNamed
    have hchildren := modify_childrenAt hother hsegments hq hchild hw.nodup_children
      hw.isSegment_child hw.children
    rw [containerOf_eq, containerOf_eq, Container.modifyBelow, hchildren, hown.values, hown.slots,
      hown.dirty]

/-- Changing the container of a path, from the root, is the change of the tree. -/
theorem modifyAt_containerOf (hother : ∀ p, p ≠ q → SameAt t t' p) (hrewrites : Rewrites f t t' q)
    {c : ContainerInfo} (hc : c.schema.Built) {names : List String}
    (hsegments : ∀ n ∈ names, IsSegment n) (hq : q = pathBelow c.path names) :
    (t.containerOf c).modifyAt q f = t'.containerOf c := by
  have hbelow := modifyBelow_containerOf hother hrewrites hsegments hc hq
  rw [Container.modifyAt, path_containerOf]
  -- The container is the root itself or below it, where its path is read segment by segment
  cases names with
  | nil =>
    rw [if_pos (show q = c.path from hq)]
    exact hbelow
  | cons n ns =>
    have hne : q ≠ c.path := fun heq => pathBelow_ne c.path n ns (hq.symm.trans heq)
    have hread : Container.segmentsBelow? c.path q = some (n :: ns) :=
      segmentsBelow?_eq_some_iff.2 ⟨List.cons_ne_nil n ns, hsegments, hq⟩
    rw [if_neg hne]
    simp only [hread]
    exact hbelow

end Modify

/-! ### What each change is among the containers -/

/-- A field is marked in its container exactly if it is marked in the tree. -/
theorem mem_dirtyFields {k : FieldKey} : k.field ∈ t.dirtyFields k.path ↔ k ∈ t.dirty := by
  obtain ⟨kpath, kfield⟩ := k
  simp only [dirtyFields, List.mem_map, List.mem_filter, decide_eq_true_eq]
  constructor
  · rintro ⟨m, ⟨hm, rfl⟩, rfl⟩
    exact hm
  · exact fun hk => ⟨_, ⟨hk, rfl⟩, rfl⟩

/-- Putting a value changes nothing in other containers. -/
theorem sameAt_put (t : Tree) (k : FieldKey) (v : Value) {p : String} (hp : p ≠ k.path) :
    SameAt t (t.put k v) p where
  values := by rw [put, entriesAt_modify, if_neg hp]
  slots := rfl
  dirty := by
    rw [put, dirtyFields, dirtyFields]
    split
    · rfl
    · simp [List.filter_append, Ne.symm hp]

/-- A value that is put into a field is assigned in the container of the field. -/
theorem rewrites_put {k : FieldKey} (v : Value) (hk : (t.stored? k).isSome = true) :
    Rewrites (·.assign k.field v) t (t.put k v) k.path := by
  intro parent children
  beta_reduce
  have hvalue : (KeyMap.find? k.field (entriesAt k.path t.values)).isSome = true := by
    rw [find?_entriesAt]
    exact hk
  -- A mark is added behind the others, unless it is there
  have hdirty : (t.put k v).dirtyFields k.path = if k.field ∈ t.dirtyFields k.path
      then t.dirtyFields k.path else t.dirtyFields k.path ++ [k.field] := by
    simp only [mem_dirtyFields]
    rw [put, dirtyFields, dirtyFields]
    split <;> simp [List.filter_append]
  rw [Container.assign, if_pos hvalue, ← hdirty, put, entriesAt_modify, if_pos rfl]

/-- Neither does changing a slot. -/
theorem sameAt_modifySlot (t : Tree) (k : FieldKey) (f : Slot → Slot) {p : String}
    (hp : p ≠ k.path) : SameAt t (t.modifySlot k f) p where
  values := rfl
  slots := by rw [modifySlot, entriesAt_modify, if_neg hp]
  dirty := rfl

/-- A slot is changed in the container of its field. -/
theorem rewrites_modifySlot (t : Tree) (k : FieldKey) (f : Slot → Slot) :
    Rewrites (·.modifySlot k.field f) t (t.modifySlot k f) k.path := by
  intro parent children
  beta_reduce
  rw [Container.modifySlot, modifySlot, entriesAt_modify, if_pos rfl]
  rfl

mutual

/-- All marks are taken off in all containers. -/
theorem clearMarks_containerAt (t : Tree) (path : String) (parent : Option String) :
    ∀ s : Schema, (t.containerAt path parent s).clearMarks =
      ({ t with dirty := [] } : Tree).containerAt path parent s
  | .mk name fields computed handlers children inherited => by
    rw [containerAt, containerAt, Container.clearMarks, clearChildren_childrenAt t path children]
    rfl

/-- Clearing the marks of the children clears those of the tree there. -/
theorem clearChildren_childrenAt (t : Tree) (path : String) : ∀ children : List (String × Schema),
    Container.clearChildren (childrenAt t path children) =
      childrenAt { t with dirty := [] } path children
  | [] => rfl
  | (n, child) :: children => by
    rw [childrenAt, childrenAt, Container.clearChildren, clearMarks_containerAt t _ _ child,
      clearChildren_childrenAt t path children]

end

mutual

/-- The fresh tree has the fresh containers. -/
theorem containerAt_instantiate (h : (l.containers.map (·.path)).Nodup) (path : String)
    (parent : Option String) : ∀ s : Schema,
    (∀ c ∈ s.containersAt path parent, c ∈ l.containers) →
      (instantiate l).containerAt path parent s = Container.instantiate path parent s
  | .mk name fields computed handlers children inherited, hmem => by
    rw [Schema.containersAt] at hmem
    obtain ⟨hown, hbelow⟩ := List.forall_mem_cons.1 hmem
    -- Under its own path a container has its defaults and empty slots
    have hvalues := entriesAt_values_instantiate h hown
    have hslots := entriesAt_slots_instantiate h hown
    simp only at hvalues hslots
    rw [containerAt, Container.instantiate, hvalues, hslots,
      childrenAt_instantiate h path children hbelow]
    rfl

/-- The same of a list of children. -/
theorem childrenAt_instantiate (h : (l.containers.map (·.path)).Nodup) (path : String) :
    ∀ children : List (String × Schema),
    (∀ c ∈ Schema.childContainersAt path children, c ∈ l.containers) →
      childrenAt (instantiate l) path children = Container.instantiateChildren path children
  | [], _ => rfl
  | (n, child) :: children, hmem => by
    rw [Schema.childContainersAt] at hmem
    obtain ⟨hchild, hrest⟩ := List.forall_mem_append.1 hmem
    rw [childrenAt, Container.instantiateChildren, containerAt_instantiate h _ _ child hchild,
      childrenAt_instantiate h path children hrest]

end

/-! ### The root container -/

section Compiled

variable (hroot : root.Built) (hl : Layout.compile root = .ok l)

include hroot hl

/-- The root of the fresh tree is the fresh root container. -/
theorem containerOf_instantiate :
    (instantiate l).containerOf ⟨l.root, none, root⟩ = .instantiate l.root none root := by
  obtain ⟨hcontainers, -⟩ := Layout.compile_cases hl
  have hname : l.root = root.name := Layout.root_of_compile hl
  have hpaths := (Layout.compile_sound hroot hl).nodup_paths
  rw [containerOf, containerAt_instantiate hpaths]
  rw [hcontainers, hname]
  exact fun c hc => hc

/-- A path is found from the root iff it is in the layout. -/
theorem find?_root (t : Tree) (p : String) :
    (t.containerOf ⟨l.root, none, root⟩).find? p = (l.container? p).map t.containerOf := by
  obtain ⟨hcontainers, -⟩ := Layout.compile_cases hl
  have hname : l.root = root.name := Layout.root_of_compile hl
  rw [find?_containerOf hroot, Layout.container?, hcontainers, hname]

/-- Names lead to every container of the layout. -/
theorem exists_pathBelow_root (hpath : (l.container? path).isSome = true) :
    ∃ names, (∀ n ∈ names, IsSegment n) ∧ path = pathBelow l.root names := by
  obtain ⟨c, hc⟩ := Option.isSome_iff_exists.1 hpath
  obtain ⟨hcontainers, -⟩ := Layout.compile_cases hl
  have hname : l.root = root.name := Layout.root_of_compile hl
  have hmem : c ∈ root.containersAt root.name none :=
    hcontainers ▸ Layout.mem_of_findContainer? hc
  obtain ⟨names, hsegments, hpath⟩ := Schema.exists_pathBelow _ _ root hroot c hmem
  exact ⟨names, hsegments, by rw [← Layout.path_of_findContainer? hc, hpath, hname]⟩

/-- Putting a value into a field is an assignment in the container of the field, found from the
root. -/
theorem containerOf_put {k : FieldKey} (v : Value) (hk : (l.field? k).isSome = true)
    (hstored : (t.stored? k).isSome = true) :
    (t.put k v).containerOf ⟨l.root, none, root⟩ =
      (t.containerOf ⟨l.root, none, root⟩).modifyAt k.path (·.assign k.field v) := by
  obtain ⟨names, hsegments, hpath⟩ :=
    exists_pathBelow_root hroot hl (isSome_container?_of_field? hk)
  exact (modifyAt_containerOf (fun p hp => sameAt_put t k v hp) (rewrites_put v hstored)
    (c := ⟨l.root, none, root⟩) hroot hsegments hpath).symm

/-- Changing a slot is a change in the container of the field, found from the root. -/
theorem containerOf_modifySlot {k : FieldKey} (f : Slot → Slot) (hk : l.isComputed k = true) :
    (t.modifySlot k f).containerOf ⟨l.root, none, root⟩ =
      (t.containerOf ⟨l.root, none, root⟩).modifyAt k.path (·.modifySlot k.field f) := by
  have hsound := Layout.compile_sound hroot hl
  obtain ⟨names, hsegments, hpath⟩ :=
    exists_pathBelow_root hroot hl (isSome_container?_of_isComputed hsound hk)
  exact (modifyAt_containerOf (fun p hp => sameAt_modifySlot t k f hp)
    (rewrites_modifySlot t k f) (c := ⟨l.root, none, root⟩) hroot hsegments hpath).symm

end Compiled

end Tree

end ReactiveState
