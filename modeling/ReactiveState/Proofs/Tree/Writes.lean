import ReactiveState.Proofs.Tree.Agreement

/-!
# Writes are all or nothing

An assignment goes by the layout, by the containers and by the graph, and each of them can stop it.
Whatever stops it, nothing has happened to the tree; and what it does to the tree is one value, one
mark, and the caches of what reads the field (`Reachable.writes`).

* `Stores`, `Refused`: the conditions of success and of each error, said of the containers of the
  tree; by `run_set` an assignment succeeds or fails by them (`set_eq_ok_iff`, `set_eq_error_iff`),
* `Assigned`: the tree after an assignment, field by field (`assigned_assign`),
* `Kept`: what a reading leaves alone, and so a `modifyField` that fails
  (`kept_of_modifyField_error`).
-/

namespace ReactiveState

namespace Tree

variable {l : Layout} {root : Schema} {t t' : Tree} {k : FieldKey} {v w : Value} {c : Container}
  {type : ValueType} {e : StateError} {f : Value → Value}

/-! ### Conditions -/

/-- The key is that of a stored field of the tree, declared with this type. -/
def Stores (l : Layout) (t : Tree) (k : FieldKey) (type : ValueType) : Prop :=
  ∃ c decl, t.container l k.path = .ok c ∧ (c.value? k.field).isSome = true ∧
    l.field? k = some decl ∧ decl.type = type

/-- Why the value cannot be assigned to the field. -/
inductive Refused (l : Layout) (t : Tree) (k : FieldKey) (v : Value) : StateError → Prop where
  /-- No container has the path. -/
  | unknownContainer (h : ∀ c, t.container l k.path ≠ .ok c) :
    Refused l t k v (.unknownContainer k.path)
  /-- The container has a slot under the name. -/
  | computedFieldWrite {c : Container} (hc : t.container l k.path = .ok c)
    (hslot : (c.slot? k.field).isSome = true) : Refused l t k v (.computedFieldWrite k)
  /-- The container has nothing under the name. -/
  | unknownField {c : Container} (hc : t.container l k.path = .ok c)
    (hvalue : c.value? k.field = none) (hslot : c.slot? k.field = none) :
    Refused l t k v (.unknownField k)
  /-- The type of the field does not take the value. -/
  | fieldTypeMismatch {type : ValueType} (h : Stores l t k type) (hv : type.coerce v = none) :
    Refused l t k v (.fieldTypeMismatch k.path k.field type v.kind)

/-- `t'` is `t` with the value `w` assigned to the field, and nothing else is different. -/
structure Assigned (l : Layout) (k : FieldKey) (w : Value) (t t' : Tree) : Prop where
  /-- The field has the value, and every other stored field has the value it had. -/
  stored : ∀ m, t'.stored? m = if m = k then some w else t.stored? m
  /-- The field is marked as dirty in its container, once, and no mark is lost or moved. -/
  dirty : ∀ p, t'.dirtyFields p =
    if p = k.path ∧ k.field ∉ t.dirtyFields p then t.dirtyFields p ++ [k.field] else t.dirtyFields p
  /-- No computed field that reads the field, in any number of steps, is up to date; what the client
  holds of it is remembered. -/
  readers : ∀ m, Relation.TransGen l.Reads m k → t'.slot? m = (t.slot? m).map Slot.invalidate
  /-- Any other computed field is as it was. -/
  others : ∀ m, ¬ Relation.TransGen l.Reads m k → t'.slot? m = t.slot? m
  /-- The computed fields left to retry are the same. -/
  unsent : t'.unsent = t.unsent
  /-- The tree has the same fields in the same order. -/
  keys : KeyMap.keys t'.values = KeyMap.keys t.values ∧ KeyMap.keys t'.slots = KeyMap.keys t.slots

/-- `t'` is `t` but for caches. -/
structure Kept (t t' : Tree) : Prop where
  stored : ∀ m, t'.stored? m = t.stored? m
  dirty : ∀ p, t'.dirtyFields p = t.dirtyFields p
  synced : ∀ m, t'.synced? m = t.synced? m
  unsent : t'.unsent = t.unsent

/-- Trees that differ in caches at most keep everything else. -/
theorem kept_of_bare_eq (h : t'.bare = t.bare) : Kept t t' where
  stored := stored?_of_bare_eq h
  dirty p := by rw [dirtyFields, dirtyFields, dirty_of_bare_eq h]
  synced := synced?_of_bare_eq h
  unsent := unsent_of_bare_eq h

/-! ### What an assignment does -/

/-- Emptying caches keeps the slots in place. -/
theorem keys_foldl_invalidate (ks : List FieldKey) (t : Tree) :
    KeyMap.keys (ks.foldl (fun t d => t.modifySlot d Slot.invalidate) t).slots =
      KeyMap.keys t.slots := by
  induction ks generalizing t with
  | nil => rfl
  | cons d ks ih => exact (ih _).trans (KeyMap.keys_modify d _ t.slots)

/-- An assignment marks its field in its own container and no other. -/
theorem dirtyFields_assign (l : Layout) (k : FieldKey) (v : Value) (t : Tree) (p : String) :
    (t.assign l k v).dirtyFields p =
      if p = k.path ∧ k.field ∉ t.dirtyFields p then t.dirtyFields p ++ [k.field]
      else t.dirtyFields p := by
  have hdirty := dirty_assign l k v t
  -- Marks are kept per container, and only that of the field may get one
  by_cases hp : p = k.path
  · subst hp
    simp only [true_and, mem_dirtyFields]
    -- A field that is marked already is not marked twice
    by_cases hk : k ∈ t.dirty
    · rw [if_neg (not_not.2 hk), dirtyFields, hdirty, if_pos hk, dirtyFields]
    · rw [if_pos hk, dirtyFields, hdirty, if_neg hk]
      simp [dirtyFields]
  · rw [if_neg fun h => hp h.1, dirtyFields, hdirty]
    split
    · rfl
    · simp [dirtyFields, Ne.symm hp]

/-- An assignment changes what `Assigned` says and nothing else. -/
theorem assigned_assign (hl : l.Sound) (hk : (t.stored? k).isSome = true) (w : Value) :
    Assigned l k w t (t.assign l k w) where
  stored m := by
    rw [stored?_assign]
    split
    · next hm =>
      -- The new value takes the place of the one that was there
      obtain ⟨v, hv⟩ := Option.isSome_iff_exists.1 hk
      rw [hm, hv]
      rfl
    · rfl
  dirty := dirtyFields_assign l k w t
  -- The affected fields are those that read the field in any number of steps
  readers m hm := by
    rw [assign_eq, slot?_foldl_invalidate, if_pos ((hl.mem_affected m k).2 hm)]
    rfl
  others m hm := by
    rw [assign_eq, slot?_foldl_invalidate, if_neg fun h => hm ((hl.mem_affected m k).1 h)]
    rfl
  unsent := unsent_assign l k w t
  keys := by
    refine ⟨?_, ?_⟩
    · -- Entries are changed in place, so the keys stay as they are
      rw [values_of_bare_eq (bare_assign l k w t)]
      exact KeyMap.keys_modify k _ t.values
    · rw [assign_eq, keys_foldl_invalidate]
      rfl

/-- In a tree that has a place for every field, an assignment is stopped by the key or by the type
and by nothing else. -/
theorem run_set (ht : Housed l t) (k : FieldKey) (v : Value) :
    (set l k v).run t = match l.field? k with
      | none => (.error (notStored l k), t)
      | some decl =>
        match decl.type.coerce v with
        | none => (.error (.fieldTypeMismatch k.path k.field decl.type v.kind), t)
        | some w => (.ok (), t.assign l k w) := by
  rw [set, run_bind_ok (TreeM.run_get t)]
  cases hk : l.field? k with
  | none => rfl
  | some decl =>
    -- The tree has a place for the field, so the last check never stops it
    have hstored : (t.stored? k).isSome = true := by rw [ht.stored k, hk]; rfl
    simp only
    cases decl.type.coerce v with
    | none => rfl
    | some w =>
      simp only [if_pos hstored]
      rfl

/-! ### Containers -/

section Compiled

variable (hroot : root.Built) (hl : Layout.compile root = .ok l)

include hroot hl

/-- A container of the tree holds the values and the slots that the tree has under its path. -/
theorem container_holds (hc : t.container l k.path = .ok c) :
    (l.container? k.path).isSome = true ∧ c.value? k.field = t.stored? k ∧
      c.slot? k.field = t.slot? k := by
  rw [container_eq hroot hl] at hc
  -- Without a container in the layout there is none in the tree
  cases hinfo : l.container? k.path with
  | none =>
    rw [hinfo] at hc
    cases hc
  | some info =>
    rw [hinfo] at hc
    obtain rfl := Except.ok.inj hc
    -- The container is a view of the tree under this path
    have hpath := Layout.path_of_findContainer? hinfo
    refine ⟨rfl, ?_, ?_⟩
    · rw [value?_containerOf, hpath]
    · rw [slot?_containerOf, hpath]

/-- A container of the layout is found in every tree. -/
theorem exists_container (t : Tree) (h : (l.container? k.path).isSome = true) :
    ∃ c, t.container l k.path = .ok c := by
  obtain ⟨info, hinfo⟩ := Option.isSome_iff_exists.1 h
  exact ⟨t.containerOf info, by rw [container_eq hroot hl, hinfo]⟩

/-- A tree stores the fields that the layout declares, with their types. -/
theorem stores_iff (ht : Housed l t) :
    Stores l t k type ↔ ∃ decl, l.field? k = some decl ∧ decl.type = type := by
  constructor
  · rintro ⟨-, decl, -, -, hk, htype⟩
    exact ⟨decl, hk, htype⟩
  · rintro ⟨decl, hk, htype⟩
    have hfield : (l.field? k).isSome = true := by rw [hk]; rfl
    -- A field that is declared has a container, which has a place for it
    obtain ⟨c, hc⟩ := exists_container hroot hl t (isSome_container?_of_field? hfield)
    obtain ⟨-, hvalue, -⟩ := container_holds hroot hl hc
    exact ⟨c, decl, hc, by rw [hvalue, ht.stored k, hfield], hk, htype⟩

/-- An assignment succeeds exactly if the field is stored and its type coerces the value. -/
theorem set_eq_ok_iff (ht : Housed l t) : ((set l k v).run t).1 = .ok () ↔
    ∃ type w, Stores l t k type ∧ type.coerce v = some w := by
  simp only [stores_iff hroot hl ht, run_set ht]
  cases l.field? k with
  | none => simp
  | some decl => cases hw : decl.type.coerce v <;> simp [hw]

/-- What is not stored cannot be assigned, for the reason that the containers show. -/
theorem refused_notStored (ht : Housed l t) (hk : l.field? k = none) (v : Value) :
    Refused l t k v (notStored l k) := by
  unfold notStored
  -- The three errors of `notStored` are told apart by what the container has under the name
  split
  · next hnone =>
    refine .unknownContainer fun c hc => ?_
    obtain ⟨hsome, -, -⟩ := container_holds hroot hl hc
    rw [Option.isNone_iff_eq_none.1 hnone] at hsome
    cases hsome
  · next hsome =>
    have hcontainer : (l.container? k.path).isSome = true :=
      Option.isSome_iff_ne_none.2 fun hnone => hsome (Option.isNone_iff_eq_none.2 hnone)
    obtain ⟨c, hc⟩ := exists_container hroot hl t hcontainer
    obtain ⟨-, hvalue, hslot⟩ := container_holds hroot hl hc
    split
    · -- A slot under the name says that it is computed
      next hcomp => exact .computedFieldWrite hc (by rw [hslot, ht.slot k, hcomp])
    · next hcomp =>
      refine .unknownField hc ?_ ?_
      · rw [hvalue, ← Option.not_isSome_iff_eq_none, ht.stored k, hk]
        exact Bool.false_ne_true
      · rwa [hslot, ← Option.not_isSome_iff_eq_none, ht.slot k]

/-- Each of the reasons stops the assignment with its error. -/
theorem Refused.set_eq (ht : Housed l t) (h : Refused l t k v e) :
    (set l k v).run t = (.error e, t) := by
  have hsound := Layout.compile_sound hroot hl
  rw [run_set ht]
  cases h with
  | unknownContainer h =>
    -- A container of the layout would be found in the tree
    have hnone : l.container? k.path = none := by
      rw [← Option.not_isSome_iff_eq_none]
      intro hsome
      obtain ⟨c, hc⟩ := exists_container hroot hl t hsome
      exact h c hc
    have hk : l.field? k = none := by
      rw [← Option.not_isSome_iff_eq_none]
      intro hsome
      have hcontainer := isSome_container?_of_field? hsome
      rw [hnone] at hcontainer
      cases hcontainer
    simp [hk, notStored, hnone]
  | computedFieldWrite hc hslot =>
    -- The slot in the container is the mark of a computed field, and no such field is stored
    obtain ⟨hsome, -, hslots⟩ := container_holds hroot hl hc
    have hcomp : l.isComputed k = true := by rw [← ht.slot k, ← hslots, hslot]
    simp [hsound.field?_of_isComputed k hcomp, notStored, hcomp, ← Option.not_isSome, hsome]
  | unknownField hc hvalue hslot =>
    obtain ⟨hsome, hvalues, hslots⟩ := container_holds hroot hl hc
    have hk : l.field? k = none := by
      -- No value in the container, so no declaration in the layout
      rw [← Option.not_isSome_iff_eq_none, ← ht.stored k, ← hvalues, hvalue]
      exact Bool.false_ne_true
    have hcomp : l.isComputed k = false := by rw [← ht.slot k, ← hslots, hslot]; rfl
    simp [hk, notStored, hcomp, ← Option.not_isSome, hsome]
  | fieldTypeMismatch h hv =>
    obtain ⟨decl, hk, rfl⟩ := (stores_iff hroot hl ht).1 h
    simp [hk, hv]

/-- An assignment fails for a reason that the containers show, and leaves the tree as it was. -/
theorem set_eq_error_iff (ht : Housed l t) :
    (set l k v).run t = (.error e, t') ↔ Refused l t k v e ∧ t' = t := by
  constructor
  · intro h
    rw [run_set ht] at h
    -- Whatever stops the assignment is one of the reasons; the other direction is `Refused.set_eq`
    cases hk : l.field? k with
    | none =>
      rw [hk] at h
      obtain ⟨herror, rfl⟩ := Prod.mk.inj h
      obtain rfl := Except.error.inj herror
      exact ⟨refused_notStored hroot hl ht hk v, rfl⟩
    | some decl =>
      simp only [hk] at h
      cases hw : decl.type.coerce v with
      | none =>
        rw [hw] at h
        obtain ⟨herror, rfl⟩ := Prod.mk.inj h
        obtain rfl := Except.error.inj herror
        exact ⟨.fieldTypeMismatch ((stores_iff hroot hl ht).2 ⟨decl, hk, rfl⟩) hw, rfl⟩
      | some w =>
        rw [hw] at h
        -- Nothing stops the assignment of a value that the type takes
        cases (Prod.mk.inj h).1
  · rintro ⟨h, rfl⟩
    exact h.set_eq hroot hl ht

/-- A successful assignment assigns the coerced value. -/
theorem assigned_set (ht : Housed l t) (hk : Stores l t k type) (hw : type.coerce v = some w) :
    Assigned l k w t ((set l k v).run t).2 := by
  obtain ⟨decl, hfield, rfl⟩ := (stores_iff hroot hl ht).1 hk
  rw [run_set ht, hfield]
  simp only [hw]
  exact assigned_assign (Layout.compile_sound hroot hl) (by rw [ht.stored k, hfield]; rfl) w

end Compiled

/-! ### Reading and writing back -/

/-- A `modifyField` that fails has filled caches at most, whether the reading failed or the
assignment. -/
theorem kept_of_modifyField_error (hl : l.Sound) (ht : t.Coherent l)
    (h : ((modifyField l k f).run t).1 = .error e) : Kept t ((modifyField l k f).run t).2 := by
  obtain ⟨t₁, hbare, -, ⟨e', hrun⟩ | ⟨v, hrun⟩⟩ := modifyField_cases hl ht k f
  · rw [hrun]
    exact kept_of_bare_eq hbare
  · rw [hrun] at h ⊢
    -- The assignment that fails leaves the tree that the reading left
    rcases set_cases l k (f v) t₁ with ⟨e', hset⟩ | ⟨decl, w, -, -, hset⟩
    · rw [hset]
      exact kept_of_bare_eq hbare
    · rw [hset] at h
      cases h

/-- A stored field is read without evaluating anything. -/
theorem get_stored (hv : t.stored? k = some v) (ht : Housed l t) :
    (get l k).run t = (.ok v, t) := by
  have hfield : (l.field? k).isSome = true := by rw [← ht.stored k, hv]; rfl
  have hcontainer := isSome_container?_of_field? hfield
  rw [run_get, if_neg (by rw [← Option.not_isSome, hcontainer]; decide), hv]

/-- A `modifyField` succeeds if the field is stored and its type takes what `f` makes of the value;
then it is the reading and the assignment. -/
theorem modifyField_eq_ok_iff (ht : Housed l t) : (modifyField l k f).run t = (.ok (), t') ↔
    ∃ v, t.stored? k = some v ∧ (get l k).run t = (.ok v, t) ∧
      (set l k (f v)).run t = (.ok (), t') := by
  constructor
  · intro h
    cases hv : t.stored? k with
    | some v =>
      have hget := get_stored hv ht
      rw [modifyField, run_bind_ok hget] at h
      exact ⟨v, rfl, hget, h⟩
    | none =>
      -- A value may be read even so, but there is no place to put one
      have hfield : ¬ (l.field? k).isSome = true := by
        rw [← ht.stored k, hv]
        exact Bool.false_ne_true
      rcases hget : (get l k).run t with ⟨e | v, t₁⟩
      · rw [modifyField, run_bind_error hget] at h
        cases h
      · rw [modifyField, run_bind_ok hget] at h
        -- The assignment that follows needs a declaration, and there is none
        rcases set_cases l k (f v) t₁ with ⟨e, hset⟩ | ⟨decl, w, hk, -, -⟩
        · rw [hset] at h
          cases h
        · exact absurd (by rw [hk]; rfl) hfield
  · rintro ⟨v, -, hget, hset⟩
    rw [modifyField, run_bind_ok hget, hset]

/-! ### Reachable trees -/

/-- Writing to a field of a tree happens as a whole or not at all. -/
structure Writes (l : Layout) (root : Schema) (t : Tree) (k : FieldKey) : Prop where
  /-- An assignment succeeds if the tree stores the field and the type of the field coerces the
  value. -/
  succeeds : ∀ v, ((set l k v).run t).1 = .ok () ↔
    ∃ type w, Stores l t k type ∧ type.coerce v = some w
  /-- Then the field has the coerced value, and the rest follows from that. -/
  assigned : ∀ v w type, Stores l t k type → type.coerce v = some w →
    Assigned l k w t ((set l k v).run t).2
  /-- It fails with an error if the condition of the error holds, and leaves the tree as it was. -/
  fails : ∀ v e t', (set l k v).run t = (.error e, t') ↔ Refused l t k v e ∧ t' = t
  /-- A `modifyField` that fails leaves all but the caches as it was. -/
  kept : ∀ f e, ((modifyField l k f).run t).1 = .error e →
    Kept t ((modifyField l k f).run t).2
  /-- One that succeeds is a reading, of what is stored, and the assignment of what `f` makes of it.
  -/
  modified : ∀ f t', (modifyField l k f).run t = (.ok (), t') ↔
    ∃ v, t.stored? k = some v ∧ (get l k).run t = (.ok v, t) ∧
      (set l k (f v)).run t = (.ok (), t')
  /-- An assignment to the containers, as they own the fields of the tree, does the same. -/
  containers_set : ∀ v, (ContainerTree.set l k v).run (t.toContainers l root) =
    (((set l k v).run t).1, ((set l k v).run t).2.toContainers l root)
  /-- So does a `modifyField`. -/
  containers_modifyField : ∀ f, (ContainerTree.modifyField l k f).run (t.toContainers l root) =
    (((modifyField l k f).run t).1, ((modifyField l k f).run t).2.toContainers l root)

/-- Every write to a tree that is in use, whatever the key, the value and the function, happens as a
whole or not at all. -/
theorem Reachable.writes (hroot : root.Built) (hl : Layout.compile root = .ok l)
    (ht : Reachable l t) (k : FieldKey) : Writes l root t k := by
  have hsound := Layout.compile_sound hroot hl
  have hcoherent := ht.coherent hsound
  -- A tree that is in use has a place for each field
  have hhoused : Housed l t := ht.of_invariant (invariant_housed l) (housed_instantiate hsound)
  exact ⟨fun v => set_eq_ok_iff hroot hl hhoused, fun v w type => assigned_set hroot hl hhoused,
    fun v e t' => set_eq_error_iff hroot hl hhoused,
    fun f e => kept_of_modifyField_error hsound hcoherent,
    fun f t' => modifyField_eq_ok_iff hhoused, fun v => (mirrors_set hroot hl k v t hhoused).2,
    fun f => (mirrors_modifyField hroot hl k f t hhoused).2⟩

/-- In a fresh shop the total cannot be assigned, and nothing comes of it; the price can, and is
all that changes beside the mark and the total. -/
theorem writes_shop :
    let t := (Tree.start Layout.shop).toOption.get rfl
    (set Layout.shop ⟨"app", "total"⟩ (.int 0)).run t =
        (.error (.computedFieldWrite ⟨"app", "total"⟩), t) ∧
      Assigned Layout.shop ⟨"app.item", "price"⟩ (.int 5) t
        ((set Layout.shop ⟨"app.item", "price"⟩ (.int 5)).run t).2 := by
  intro t
  have ht : Reachable Layout.shop t := .start rfl
  have htotal := ht.writes Schema.built_shop Layout.compile_shop ⟨"app", "total"⟩
  have hprice := ht.writes Schema.built_shop Layout.compile_shop ⟨"app.item", "price"⟩
  refine ⟨(htotal.fails _ _ _).2 ⟨.computedFieldWrite rfl rfl, rfl⟩, ?_⟩
  -- The price is stored by the container of the item, as an integer
  have hitem := container_eq Schema.built_shop Layout.compile_shop t "app.item"
  have hstores : Stores Layout.shop t ⟨"app.item", "price"⟩ .int := ⟨_, _, hitem, rfl, rfl, rfl⟩
  exact hprice.assigned _ _ _ hstores rfl

end Tree

end ReactiveState
