import ReactiveState.Proofs.Layout.Compiled
import ReactiveState.Proofs.Layout.Segments

/-!
# Addresses of members

The address of a member is the path of its container, a dot and its name.  Since names hold no dots,
an address says which member it is of (`address_inj`), and no two members of a compiled layout have
one address (`nodup_addresses`).

So handlers are found under their addresses (`resolveHandler?_address`), and the client storage of a
layout has all bindings that the fields declare, and no others (`binds_clientStorage`).
-/

namespace ReactiveState

/-- The path of the container and the name, with a dot between. -/
def FieldKey.address (k : FieldKey) : String := k.path ++ "." ++ k.field

/-- The last segment of an address is the name. -/
theorem FieldKey.address_inj {k m : FieldKey} (hk : IsSegment k.field) (hm : IsSegment m.field)
    (h : k.address = m.address) : k = m := by
  -- The address is taken apart in one way only
  have hsplit := splitLastDot?_child k.path hk
  rw [FieldKey.address, FieldKey.address] at h
  rw [h, splitLastDot?_child m.path hm, Option.some.injEq, Prod.mk.injEq] at hsplit
  obtain ⟨hpath, hfield⟩ := hsplit
  cases k
  cases m
  simp only at hpath hfield
  rw [hpath, hfield]

/-- The names of the stored fields are among the names of a schema. -/
theorem Schema.fields_sublist_names (s : Schema) : (s.fields.map (·.name)).Sublist s.names := by
  obtain ⟨n, fs, cs, hs, ks, is⟩ := s
  exact List.sublist_append_left _ _

namespace Layout

variable {l : Layout} {containers : List ContainerInfo}

/-- All members of all containers: stored fields, computed fields, handlers and children. -/
def members (l : Layout) : List FieldKey :=
  l.containers.flatMap fun c => c.schema.names.map fun n => ⟨c.path, n⟩

theorem isSegment_of_mem_members (hw : ∀ c ∈ l.containers, c.schema.WellNamed) {k : FieldKey}
    (hk : k ∈ l.members) : IsSegment k.field := by
  obtain ⟨c, hc, hk⟩ := List.mem_flatMap.1 hk
  obtain ⟨n, hn, rfl⟩ := List.mem_map.1 hk
  exact isSegment_of_isIdentifier ((hw c hc).isIdentifier n hn)

/-- No two members have one address. -/
theorem nodup_addresses (h : (l.containers.map (·.path)).Nodup)
    (hw : ∀ c ∈ l.containers, c.schema.WellNamed) : (l.members.map (·.address)).Nodup := by
  have hkeys : l.members.Nodup :=
    nodup_flatMap_containers h (fun c => c.schema.names) fun c hc => (hw c hc).nodup
  exact hkeys.map_on fun k hk m hm heq => FieldKey.address_inj
    (isSegment_of_mem_members hw hk) (isSegment_of_mem_members hw hm) heq

/-! ### Handlers -/

/-- What is found under an address is the handler of that name, at the container of that path. -/
theorem resolveHandler?_address (l : Layout) (path : String) {name : String} (h : IsSegment name) :
    l.resolveHandler? (path ++ "." ++ name) = (l.container? path).bind fun c =>
      (c.schema.handler? name).map fun handler => (path, handler) := by
  unfold resolveHandler?
  -- The path before the last dot is that of the container
  rw [splitLastDot?_child path h]
  simp only [Option.bind_eq_bind, Option.bind_some]
  cases l.container? path with
  | none => rfl
  | some c =>
    simp only [Option.bind_some]
    cases c.schema.handler? name <;> rfl

/-- The container of a handler that was found is there. -/
theorem exists_container?_of_resolveHandler? {address path : String} {handler : Handler}
    (h : l.resolveHandler? address = some (path, handler)) : ∃ c, l.container? path = some c := by
  unfold resolveHandler? at h
  obtain ⟨⟨container, name⟩, -, h⟩ := Option.bind_eq_some_iff.1 h
  obtain ⟨c, hc, h⟩ := Option.bind_eq_some_iff.1 h
  obtain ⟨found, -, h⟩ := Option.bind_eq_some_iff.1 h
  obtain ⟨rfl, -⟩ := Prod.mk.inj (Option.some.inj h)
  exact ⟨c, hc⟩

end Layout

/-! ### Client storage -/

namespace StorageManifest

variable {m : StorageManifest} {key key' : String} {s s' : ClientStorage}

/-- The manifest has this binding for the key. -/
def Binds (m : StorageManifest) (key : String) : ClientStorage → Prop
  | .cookie options => KeyMap.find? key m.cookies = some options
  | .local options => KeyMap.find? key m.localStorage = some options
  | .session options => KeyMap.find? key m.sessionStorage = some options

/-- Of a key that was not bound before, an insertion adds the binding. -/
theorem binds_insert (hfresh : ∀ s, ¬ m.Binds key s) :
    (m.insert key s).Binds key' s' ↔ key' = key ∧ s' = s ∨ m.Binds key' s' := by
  by_cases hkey : key' = key
  · subst hkey
    have hnone := hfresh s'
    cases s <;> cases s' <;> simp_all [insert, Binds, KeyMap.find?_insert, eq_comm]
  · cases s <;> cases s' <;> simp [insert, Binds, KeyMap.find?_insert, hkey]

/-- Bindings of different keys are all kept. -/
theorem binds_foldl {bindings : List (String × ClientStorage)} (hkeys : (bindings.map (·.1)).Nodup)
    (hfresh : ∀ b ∈ bindings, ∀ s, ¬ m.Binds b.1 s) :
    (bindings.foldl (fun m b => m.insert b.1 b.2) m).Binds key s ↔
      (key, s) ∈ bindings ∨ m.Binds key s := by
  induction bindings generalizing m with
  | nil => simp
  | cons b bindings ih =>
    obtain ⟨hb, hkeys⟩ := List.nodup_cons.1 hkeys
    obtain ⟨hfreshb, hfresh⟩ := List.forall_mem_cons.1 hfresh
    -- A key that comes later is not bound by the first binding either
    have hstill : ∀ b' ∈ bindings, ∀ s, ¬ (m.insert b.1 b.2).Binds b'.1 s := by
      intro b' hb' s hbinds
      rcases (binds_insert hfreshb).1 hbinds with ⟨heq, -⟩ | hbinds
      · exact hb (List.mem_map.2 ⟨b', hb', heq⟩)
      · exact hfresh b' hb' s hbinds
    rw [List.foldl_cons, ih hkeys hstill, binds_insert hfreshb, List.mem_cons, ← or_assoc,
      or_comm (a := (key, s) ∈ bindings), Prod.ext_iff]

end StorageManifest

namespace Layout

variable {l : Layout}

/-- The bindings that the stored fields of all containers declare, by address. -/
def bindings (l : Layout) : List (String × ClientStorage) :=
  l.containers.flatMap fun c => c.schema.fields.filterMap fun decl =>
    decl.storage.map fun storage => (c.path ++ "." ++ decl.name, storage)

theorem clientStorage_eq (l : Layout) :
    l.clientStorage = l.bindings.foldl (fun m b => m.insert b.1 b.2) {} := by
  rw [clientStorage, bindings, List.foldl_flatMap]
  congr 1
  funext m c
  rw [List.foldl_filterMap]
  congr 1
  funext m decl
  cases decl.storage <;> rfl

/-- Those elements that have a result, mapped, stand in the order of all elements. -/
theorem map_filterMap_sublist {α β γ : Type} {f : α → Option β} {g : β → γ} {e : α → γ}
    (h : ∀ a b, f a = some b → g b = e a) (as : List α) :
    ((as.filterMap f).map g).Sublist (as.map e) := by
  induction as with
  | nil => exact List.Sublist.slnil
  | cons a as ih =>
    cases hf : f a with
    | none =>
      rw [List.filterMap_cons_none hf, List.map_cons]
      exact ih.cons (e a)
    | some b =>
      rw [List.filterMap_cons_some hf, List.map_cons, List.map_cons, h a b hf]
      exact ih.cons_cons (e a)

/-- No two bindings have one key. -/
theorem nodup_bindings (h : (l.containers.map (·.path)).Nodup)
    (hw : ∀ c ∈ l.containers, c.schema.WellNamed) : (l.bindings.map (·.1)).Nodup := by
  refine (nodup_addresses h hw).sublist ?_
  -- The keys are some of the addresses, container by container
  rw [bindings, members, List.map_flatMap, List.map_flatMap]
  induction l.containers with
  | nil => exact List.Sublist.slnil
  | cons c containers ih =>
    have hbound : ((c.schema.fields.filterMap fun decl => decl.storage.map fun storage =>
        (c.path ++ "." ++ decl.name, storage)).map (·.1)).Sublist
        (c.schema.fields.map fun decl => c.path ++ "." ++ decl.name) :=
      map_filterMap_sublist (fun decl b hb => by
        obtain ⟨_, _, rfl⟩ := Option.map_eq_some_iff.1 hb
        rfl) _
    have hfields := (c.schema.fields_sublist_names).map fun n => c.path ++ "." ++ n
    rw [List.map_map] at hfields
    rw [List.flatMap_cons, List.flatMap_cons, List.map_map]
    exact (hbound.trans hfields).append ih

/-- The client storage has the bindings that the stored fields declare, under their addresses, and
no others. -/
theorem binds_clientStorage (h : (l.containers.map (·.path)).Nodup)
    (hw : ∀ c ∈ l.containers, c.schema.WellNamed) {key : String} {storage : ClientStorage} :
    l.clientStorage.Binds key storage ↔ ∃ c ∈ l.containers, ∃ decl ∈ c.schema.fields,
      decl.storage = some storage ∧ key = c.path ++ "." ++ decl.name := by
  -- An empty storage binds nothing
  have hempty : ∀ key storage, ¬ ({} : StorageManifest).Binds key storage := by
    intro key storage
    cases storage <;> simp [StorageManifest.Binds, KeyMap.find?]
  rw [clientStorage_eq, StorageManifest.binds_foldl (nodup_bindings h hw) fun b _ => hempty b.1]
  simp only [hempty, or_false, bindings, List.mem_flatMap, List.mem_filterMap,
    Option.map_eq_some_iff, Prod.mk.injEq]
  constructor
  · rintro ⟨c, hc, decl, hdecl, storage', hstorage, rfl, rfl⟩
    exact ⟨c, hc, decl, hdecl, hstorage, rfl⟩
  · rintro ⟨c, hc, decl, hdecl, hstorage, rfl⟩
    exact ⟨c, hc, decl, hdecl, storage, hstorage, rfl, rfl⟩

end Layout

end ReactiveState
