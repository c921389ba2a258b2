import ReactiveState.Proofs.Flush.Twins
import ReactiveState.Proofs.Tree.InPlace
import ReactiveState.Tree.Containers

/-!
# Trees and their containers

A tree of containers does what the tree does that it belongs to (`Tree.toContainers`): every
operation gives the same result on both, and leaves what belongs together (`start_toContainers`,
`mirrors_get`, `mirrors_set`, `flush_toContainers` and their companions).  So what an operation
looks for among the containers is always there, since a `Tree` has no such errors.

The relation is `Mirrors`.  It is carried through operations by `Mirrors.bind`, and through the
evaluation of an expression by `Expr.eval_related`.
-/

namespace ReactiveState

/-! ### Operations on containers -/

namespace ContainerTree

variable {ε α : Type}

/-- An operation that first looks at the containers. -/
theorem run_get_bind (f : ContainerTree → ContainerTreeM ε α) (c : ContainerTree) :
    (MonadState.get >>= f).run c = (f c).run c := rfl

/-- The slot of a field is the one in the container of its path. -/
theorem slot_eq_ok {c : ContainerTree} {k : FieldKey} {found : Container} {s : Slot}
    (hfound : c.container k.path = .ok found) (hs : found.slot? k.field = some s) :
    c.slot k = .ok s := by
  unfold slot
  rw [hfound]
  simp only [bind, Except.bind, hs]
  rfl

/-- Changing a slot fails where there is no slot, and else changes the container of the path. -/
theorem run_modifySlot (k : FieldKey) (f : Slot → Slot) (c : ContainerTree) :
    (modifySlot k f).run c = match c.slot k with
      | .ok _ => (.ok (), { c with root := c.root.modifyAt k.path (·.modifySlot k.field f) })
      | .error e => (.error e, c) := by
  rw [modifySlot, run_get_bind]
  cases c.slot k <;> rfl

/-- What is cached is given; only an empty slot is evaluated. -/
theorem run_cachedOr (k : FieldKey) (evaluate : ContainerTreeM StateError Value)
    (c : ContainerTree) : (cachedOr k evaluate).run c = match c.slot k with
      | .error e => (.error e, c)
      | .ok slot =>
        match slot.cached with
        | some v => (.ok v, c)
        | none => evaluate.run c := by
  rw [cachedOr, run_get_bind]
  -- The container and its slot are looked for first
  cases c.slot k with
  | error e => rfl
  | ok slot =>
    simp only
    cases slot.cached <;> rfl

/-- A stored value is given, a slot is left to `computed`, and everything else is an error. -/
theorem run_getWith (computed : FieldKey → ContainerTreeM StateError Value) (k : FieldKey)
    (c : ContainerTree) : (getWith computed k).run c = match c.container k.path with
      | .error e => (.error e, c)
      | .ok found =>
        match found.value? k.field with
        | some v => (.ok v, c)
        | none =>
          if (found.slot? k.field).isSome then (computed k).run c
          else (.error (.unknownField k), c) := by
  rw [getWith, run_get_bind]
  cases c.container k.path with
  | error e => rfl
  | ok found =>
    simp only
    cases found.value? k.field with
    | some v => rfl
    | none =>
      simp only
      split <;> rfl

end ContainerTree

namespace Tree

/-- The containers of a tree, as they own its fields. -/
def toContainers (l : Layout) (root : Schema) (t : Tree) : ContainerTree :=
  ⟨t.containerOf ⟨l.root, none, root⟩, t.unsent⟩

/-- The fields of the layout have their places in the tree, and only stored fields are marked. -/
structure Housed (l : Layout) (t : Tree) : Prop where
  stored : ∀ k, (t.stored? k).isSome = (l.field? k).isSome
  slot : ∀ k, (t.slot? k).isSome = l.isComputed k
  dirty : ∀ k ∈ t.dirty, (l.field? k).isSome = true

variable {l : Layout} {root : Schema} {t : Tree} {k : FieldKey} {ε α β : Type}

/-- No change that an operation makes to a tree takes a value or a slot out of its place. -/
theorem invariant_housed (l : Layout) : Invariant l (Housed l) where
  put t k v hk ht := by
    refine ⟨fun m => ?_, ht.slot, fun m hm => ?_⟩
    · rw [stored?_put, ← ht.stored m]
      split <;> simp
    · -- The field that is put is marked, and it is a stored one
      rw [put] at hm
      simp only at hm
      -- It may have been marked before
      split at hm
      · exact ht.dirty m hm
      · rcases List.mem_append.1 hm with hm | hm
        · exact ht.dirty m hm
        · rw [List.mem_singleton.1 hm]
          exact hk
  modifySlot t k f ht :=
    ⟨ht.stored, fun m => (isSome_slot?_modifySlot t k m f).trans (ht.slot m), ht.dirty⟩
  retry t unsent ht := ⟨ht.stored, ht.slot, ht.dirty⟩
  clear t ht := ⟨ht.stored, ht.slot, nofun⟩

/-- A fresh tree has what the layout lists. -/
theorem housed_instantiate (hl : l.Sound) : Housed l (instantiate l) :=
  ⟨(coherent_instantiate hl).stored, (coherent_instantiate hl).slot, nofun⟩

/-- Which fields are unsent does not show in the containers. -/
theorem containerOf_unsent (l : Layout) (root : Schema) (t : Tree) (unsent : List FieldKey) :
    ({ t with unsent := unsent } : Tree).containerOf ⟨l.root, none, root⟩ =
      t.containerOf ⟨l.root, none, root⟩ :=
  containerAt_congr _ _ _ fun _ _ => ⟨rfl, rfl, rfl⟩

/-- Taking off all marks takes them off every container. -/
theorem toContainers_clear (l : Layout) (root : Schema) (t : Tree) (unsent : List FieldKey) :
    ({ t with dirty := [], unsent := unsent } : Tree).toContainers l root =
      ⟨(t.toContainers l root).root.clearMarks, unsent⟩ := by
  have hroots := (containerOf_unsent l root { t with dirty := [] } unsent).trans
    (clearMarks_containerAt t l.root none root).symm
  rw [toContainers, hroots]
  rfl

/-! ### The relation -/

/-- The operation on containers does what the operation on trees does. -/
def Mirrors (l : Layout) (root : Schema) (x : TreeM ε α) (y : ContainerTreeM ε α) : Prop :=
  ∀ t, Housed l t → Housed l (x.run t).2 ∧
    y.run (t.toContainers l root) = ((x.run t).1, (x.run t).2.toContainers l root)

/-- A result is the same result on both sides. -/
theorem mirrors_pure (a : α) : Mirrors l root (pure a : TreeM ε α) (pure a) :=
  fun _ ht => ⟨ht, rfl⟩

/-- A failure is the same failure on both sides. -/
theorem mirrors_throw (e : ε) : Mirrors l root (throw e : TreeM ε α) (throw e) :=
  fun _ ht => ⟨ht, rfl⟩

/-- Operations that mirror each other do so in sequence. -/
theorem Mirrors.bind {x : TreeM ε α} {y : ContainerTreeM ε α} {f : α → TreeM ε β}
    {g : α → ContainerTreeM ε β} (hx : Mirrors l root x y)
    (hf : ∀ a, Mirrors l root (f a) (g a)) : Mirrors l root (x >>= f) (y >>= g) := by
  intro t ht
  obtain ⟨ht', hrun⟩ := hx t ht
  rw [run_bind, run_bind, hrun]
  -- An error ends both sequences
  rcases h : x.run t with ⟨_ | a, t'⟩
  · rw [h] at ht'
    exact ⟨ht', rfl⟩
  · rw [h] at ht'
    exact hf a t' ht'

/-- Turning an error into another one is done alike on both sides. -/
theorem Mirrors.adapt {ε' : Type} {x : TreeM ε α} {y : ContainerTreeM ε α} (h : Mirrors l root x y)
    (f : ε → ε') : Mirrors l root (x.adapt f) (y.adapt f) := by
  intro t ht
  obtain ⟨ht', hrun⟩ := h t ht
  refine ⟨ht', ?_⟩
  rw [run_adapt, run_adapt, hrun]

/-- Operations that give the same on every tree can be taken for each other. -/
theorem Mirrors.of_run_eq {x x' : TreeM ε α} {y : ContainerTreeM ε α} (h : Mirrors l root x y)
    (heq : ∀ t, x'.run t = x.run t) : Mirrors l root x' y := by
  intro t ht
  rw [heq]
  exact h t ht

/-! ### Finding -/

section Compiled

variable (hroot : root.Built) (hl : Layout.compile root = .ok l)

include hroot hl

/-- Walking down from the root finds the container that the layout has at the path. -/
theorem container_toContainers (t : Tree) (path : String) :
    (t.toContainers l root).container path =
      match l.container? path with
      | some c => .ok (t.containerOf c)
      | none => .error (.unknownContainer path) := by
  rw [ContainerTree.container, toContainers]
  simp only
  rw [find?_root hroot hl]
  cases l.container? path <;> rfl

/-- The slot that is found for a computed field is that of the tree. -/
theorem slot_toContainers {s : Slot} (hk : l.isComputed k = true) (hs : t.slot? k = some s) :
    (t.toContainers l root).slot k = .ok s := by
  have hsound := Layout.compile_sound hroot hl
  obtain ⟨c, hc⟩ := Option.isSome_iff_exists.1 (isSome_container?_of_isComputed hsound hk)
  have hfound : (t.toContainers l root).container k.path = .ok (t.containerOf c) := by
    rw [container_toContainers hroot hl, hc]
  refine ContainerTree.slot_eq_ok hfound ?_
  rw [slot?_containerOf, Layout.path_of_findContainer? hc]
  exact hs

/-- The slot of a computed field is changed where it is. -/
theorem mirrors_modifySlot (f : Slot → Slot) (hk : l.isComputed k = true) :
    Mirrors l root (modify fun t => t.modifySlot k f) (ContainerTree.modifySlot k f) := by
  intro t ht
  obtain ⟨s, hs⟩ := Option.isSome_iff_exists.1 ((ht.slot k).trans hk)
  refine ⟨(invariant_housed l).modifySlot t k f ht, ?_⟩
  rw [ContainerTree.run_modifySlot, slot_toContainers hroot hl hk hs, TreeM.run_modify,
    toContainers, toContainers, containerOf_modifySlot hroot hl f hk]
  rfl

/-! ### Reading -/

/-- The cache of a computed field is looked at alike. -/
theorem mirrors_cachedOr {x : TreeM EvalError Value} {y : ContainerTreeM StateError Value}
    (hk : l.isComputed k = true) (h : Mirrors l root (x.adapt (.eval k)) y) :
    Mirrors l root ((known k x).adapt (.eval k)) (ContainerTree.cachedOr k y) := by
  have hsound := Layout.compile_sound hroot hl
  intro t ht
  obtain ⟨s, hs⟩ := Option.isSome_iff_exists.1 ((ht.slot k).trans hk)
  -- A computed field has a slot and no stored value
  rw [run_adapt, run_known, stored?_eq_none hsound ht.stored hk, hs, ContainerTree.run_cachedOr,
    slot_toContainers hroot hl hk hs]
  simp only
  cases s.cached with
  | some v => exact ⟨ht, rfl⟩
  | none => exact h t ht

/-- A field is looked for among the containers as it is in the tree. -/
theorem getWith_toContainers (computed : FieldKey → ContainerTreeM StateError Value) (k : FieldKey)
    (t : Tree) : (ContainerTree.getWith computed k).run (t.toContainers l root) =
      if (l.container? k.path).isNone then
        (.error (.unknownContainer k.path), t.toContainers l root)
      else
        match t.stored? k, t.slot? k with
        | some v, _ => (.ok v, t.toContainers l root)
        | none, some _ => (computed k).run (t.toContainers l root)
        | none, none => (.error (.unknownField k), t.toContainers l root) := by
  rw [ContainerTree.run_getWith, container_toContainers hroot hl]
  -- Without a container neither side has anything under the key
  cases hc : l.container? k.path with
  | none => rfl
  | some c =>
    simp only [Option.isNone_some, Bool.false_eq_true, if_false, value?_containerOf,
      slot?_containerOf, Layout.path_of_findContainer? hc]
    -- The container has the value and the slot that the tree has under the key
    cases t.stored? k <;> cases t.slot? k <;> rfl

/-- A reading inside an evaluation, if readings one level further down mirror each other. -/
theorem mirrors_getWith {depth : Nat} (h : l.isComputed k = true → Mirrors l root
      ((read l depth k).adapt (.eval k)) (ContainerTree.computedValue l depth k)) :
    Mirrors l root (read l depth k)
      ((ContainerTree.getWith (ContainerTree.computedValue l depth) k).adapt
        (ContainerTree.told k)) := by
  have hsound := Layout.compile_sound hroot hl
  have hknown : ∃ evaluate, read l depth k = known k evaluate := by
    cases depth <;> exact ⟨_, rfl⟩
  intro t ht
  rw [run_adapt, getWith_toContainers hroot hl]
  by_cases hk : l.isComputed k = true
  · obtain ⟨s, hs⟩ := Option.isSome_iff_exists.1 ((ht.slot k).trans hk)
    have hcontainer := isSome_container?_of_isComputed hsound hk
    obtain ⟨ht', hrun⟩ := h hk t ht
    rw [if_neg (by rw [← Option.not_isSome, hcontainer]; decide),
      stored?_eq_none hsound ht.stored hk, hs]
    simp only [hrun, run_adapt]
    refine ⟨ht', ?_⟩
    -- An evaluation is told the error of the one inside it
    cases ((read l depth k).run t).1 <;> rfl
  · -- Not computed: what is stored is given, and nothing is evaluated
    obtain ⟨evaluate, hread⟩ := hknown
    have hs : t.slot? k = none := by simpa [hk] using ht.slot k
    rw [hread, run_known, hs]
    cases hv : t.stored? k with
    | some v =>
      have hfield : (l.field? k).isSome = true := by rw [← ht.stored k, hv]; rfl
      have hcontainer := isSome_container?_of_field? hfield
      rw [if_neg (by rw [← Option.not_isSome, hcontainer]; decide)]
      exact ⟨ht, rfl⟩
    | none =>
      refine ⟨ht, ?_⟩
      -- Whether the container is missing or the field, an evaluation is told the same
      by_cases hcontainer : (l.container? k.path).isNone = true
      · rw [if_pos hcontainer]
        rfl
      · rw [if_neg hcontainer]
        rfl

/-- A computed field is evaluated among the containers as in the tree, by induction on how deep
evaluations may be nested. -/
theorem mirrors_read {depth : Nat} (hk : l.isComputed k = true) :
    Mirrors l root ((read l depth k).adapt (.eval k)) (ContainerTree.computedValue l depth k) := by
  induction depth generalizing k with
  | zero => exact mirrors_cachedOr hroot hl hk (mirrors_throw _)
  | succ depth ih =>
    rw [read, ContainerTree.computedValue]
    refine mirrors_cachedOr hroot hl hk ?_
    obtain ⟨e, he⟩ := Option.isSome_iff_exists.1 hk
    rw [he]
    have heval : Mirrors l root (e.eval (read l depth)) (e.eval fun d =>
        (ContainerTree.getWith (ContainerTree.computedValue l depth) d).adapt
          (ContainerTree.told d)) :=
      Expr.eval_related mirrors_pure mirrors_throw (fun hx hf => hx.bind hf) fun d _ =>
        mirrors_getWith hroot hl ih
    -- The value is stored in the slot on both sides
    have hstore : ∀ v, Mirrors l root
        (do modify fun t => t.modifySlot k (·.store v); return v : TreeM StateError Value)
        (do ContainerTree.modifySlot k (·.store v); return v) := fun v =>
      (mirrors_modifySlot hroot hl _ hk).bind fun _ => mirrors_pure v
    -- The tree names the field in the error at the end, the containers before they store the value
    refine ((heval.adapt (.eval k)).bind hstore).of_run_eq fun t => ?_
    rw [run_adapt, run_bind, run_bind, run_adapt]
    rcases (e.eval (read l depth)).run t with ⟨_ | v, t'⟩ <;> rfl

/-- Evaluating a computed field at full depth. -/
theorem mirrors_computedValue (hk : l.isComputed k = true) : Mirrors l root (computedValue l k)
    (ContainerTree.computedValue l l.computedCount k) :=
  mirrors_read hroot hl hk

/-- Reading any key, also one that is not there. -/
theorem mirrors_get (k : FieldKey) : Mirrors l root (Tree.get l k) (ContainerTree.get l k) := by
  intro t ht
  rw [ContainerTree.get, getWith_toContainers hroot hl, run_get]
  by_cases hcontainer : (l.container? k.path).isNone = true
  · rw [if_pos hcontainer, if_pos hcontainer]
    exact ⟨ht, rfl⟩
  · rw [if_neg hcontainer, if_neg hcontainer]
    -- What has a slot is a computed field
    have hslot := ht.slot k
    cases t.stored? k with
    | some v => exact ⟨ht, rfl⟩
    | none =>
      cases hs : t.slot? k with
      | none => exact ⟨ht, rfl⟩
      | some s =>
        rw [hs] at hslot
        exact mirrors_computedValue hroot hl hslot.symm t ht

/-! ### Writing -/

/-- Assigning a stored field puts the value into its container and empties the slots of what depends
on it. -/
theorem toContainers_assign (ht : Housed l t) (hk : (l.field? k).isSome = true) (v : Value) :
    (t.assign l k v).toContainers l root = (l.graph.affected [k]).foldl ContainerTree.invalidate
      ⟨(t.containerOf ⟨l.root, none, root⟩).modifyAt k.path (·.assign k.field v), t.unsent⟩ := by
  have hsound := Layout.compile_sound hroot hl
  -- Emptying slots one by one is the same on both sides, by induction on the list
  have hfold : ∀ ds : List FieldKey, (∀ d ∈ ds, l.isComputed d = true) → ∀ t : Tree,
      (ds.foldl (fun t d => t.modifySlot d Slot.invalidate) t).toContainers l root =
        ds.foldl ContainerTree.invalidate (t.toContainers l root) := by
    intro ds
    induction ds with
    | nil => exact fun _ _ => rfl
    | cons d ds ih =>
      intro hds t
      obtain ⟨hd, hds⟩ := List.forall_mem_cons.1 hds
      rw [List.foldl_cons, List.foldl_cons, ih hds, ContainerTree.invalidate, toContainers,
        toContainers, containerOf_modifySlot hroot hl _ hd]
      rfl
  -- Whatever depends on a field is computed, so all these slots are there
  have hcomputed : ∀ d ∈ l.graph.affected [k], l.isComputed d = true := fun d hd => by
    obtain ⟨m, hreads, -⟩ := Relation.TransGen.head'_iff.1 ((hsound.mem_affected d k).1 hd)
    exact hreads.isComputed
  rw [assign_eq, hfold _ hcomputed, toContainers,
    containerOf_put hroot hl v hk ((ht.stored k).trans hk)]
  rfl

/-- Assigning any value to any key, with each way to be refused. -/
theorem mirrors_set (k : FieldKey) (v : Value) :
    Mirrors l root (Tree.set l k v) (ContainerTree.set l k v) := by
  intro t ht
  rw [Tree.set, run_bind_ok (TreeM.run_get t), ContainerTree.set]
  cases hk : l.field? k with
  | none => exact ⟨ht, rfl⟩
  | some decl =>
    simp only
    -- The value is coerced by the declaration, which both sides look at
    cases hv : decl.type.coerce v with
    | none => exact ⟨ht, rfl⟩
    | some w =>
      -- From here on nothing can fail: the field is declared, so its container and its value are
      -- there
      have hfield : (l.field? k).isSome = true := by rw [hk]; rfl
      have hstored : (t.stored? k).isSome = true := (ht.stored k).trans hfield
      obtain ⟨c, hc⟩ := Option.isSome_iff_exists.1 (isSome_container?_of_field? hfield)
      have hvalue : ((t.containerOf c).value? k.field).isSome = true := by
        rw [value?_containerOf, Layout.path_of_findContainer? hc]
        exact hstored
      simp only [hstored, if_true]
      refine ⟨(invariant_housed l).assign ht hfield w, ?_⟩
      rw [ContainerTree.run_get_bind, container_toContainers hroot hl, hc]
      simp only [hvalue, if_true]
      have hassign := toContainers_assign hroot hl ht hfield w
      exact congrArg (Prod.mk (Except.ok ())) hassign.symm

/-- A reading and then an assignment. -/
theorem mirrors_modifyField (k : FieldKey) (f : Value → Value) :
    Mirrors l root (Tree.modifyField l k f) (ContainerTree.modifyField l k f) :=
  (mirrors_get hroot hl k).bind fun v => mirrors_set hroot hl k (f v)

/-! ### Starting and snapshots -/

/-- Evaluating computed fields one after another. -/
theorem mirrors_syncAll {ks : List FieldKey} (hks : ∀ k ∈ ks, l.isComputed k = true) :
    Mirrors l root (Tree.syncAll l ks) (ContainerTree.syncAll l ks) := by
  induction ks with
  | nil => exact mirrors_pure ()
  | cons k ks ih =>
    obtain ⟨hk, hks⟩ := List.forall_mem_cons.1 hks
    exact (mirrors_computedValue hroot hl hk).bind fun v =>
      (mirrors_modifySlot hroot hl _ hk).bind fun _ => ih hks

/-- Fresh containers are those of the fresh tree. -/
theorem start_toContainers :
    ContainerTree.start l = (Tree.start l).map (toContainers l root) := by
  have hsound := Layout.compile_sound hroot hl
  -- Before anything is evaluated the two correspond
  have hfresh : (instantiate l).toContainers l root = ⟨.instantiate l.root none root, []⟩ := by
    rw [toContainers, containerOf_instantiate hroot hl]
    rfl
  -- Both sides evaluate the same fields from fresh states that correspond
  obtain ⟨-, hrun⟩ := mirrors_syncAll hroot hl (fun k hk => (hsound.mem_order k).1 hk) _
    (housed_instantiate hsound)
  rw [ContainerTree.start, container?_root hroot hl]
  simp only
  rw [← hfresh, hrun, Tree.start]
  rcases (Tree.syncAll l l.order).run (instantiate l) with ⟨_ | _, t⟩ <;> rfl

/-- Collecting values for a snapshot. -/
theorem mirrors_collect (ks : List FieldKey) (delta : Delta) :
    Mirrors l root (Tree.collect l ks delta) (ContainerTree.collect l ks delta) := by
  induction ks generalizing delta with
  | nil => exact mirrors_pure delta
  | cons k ks ih =>
    refine (mirrors_get hroot hl k).bind fun v => ?_
    -- A computed field is noted as told in its slot
    by_cases hk : l.isComputed k = true
    · simp only [hk, if_true]
      exact (mirrors_modifySlot hroot hl _ hk).bind fun _ => ih _
    · simp only [hk, Bool.false_eq_true, if_false]
      exact (mirrors_pure PUnit.unit).bind fun _ => ih _

/-- Taking a snapshot. -/
theorem mirrors_snapshot : Mirrors l root (Tree.snapshot l) (ContainerTree.snapshot l) := by
  have hretry : Mirrors l root (modify fun t => { t with unsent := [] } : TreeM StateError PUnit)
      (modify fun c => { c with unsent := [] }) := by
    intro t ht
    have hroots := containerOf_unsent l root t []
    refine ⟨(invariant_housed l).retry t [] ht, ?_⟩
    exact congrArg (fun r => (Except.ok PUnit.unit, ContainerTree.mk r [])) hroots.symm
  exact (mirrors_collect hroot hl _ _).bind fun delta => hretry.bind fun _ => mirrors_pure delta

end Compiled

/-! ### Flushing -/

/-- The flush of the containers has collected what the flush of the tree has. -/
structure FlushState.Mirrors (l : Layout) (root : Schema) (s : FlushState)
    (s' : ContainerTree.FlushState) : Prop where
  housed : Housed l s.tree
  tree : s'.tree = s.tree.toContainers l root
  delta : s'.delta = s.delta
  failures : s'.failures = s.failures
  unsent : s'.unsent = s.unsent
  mem_changed : ∀ k, k ∈ s'.changed ↔ k ∈ s.changed

section Compiled

variable (hroot : root.Built) (hl : Layout.compile root = .ok l)

include hroot hl

omit hroot in
/-- The marks in all containers are those of the tree. -/
theorem mem_dirtyKeys (ht : Housed l t) :
    k ∈ (t.toContainers l root).dirtyKeys ↔ k ∈ t.dirty := by
  rw [ContainerTree.dirtyKeys, toContainers, nodes_root hl]
  simp only [List.mem_flatMap, List.mem_map, exists_exists_and_eq_and, dirty_containerOf,
    path_containerOf]
  constructor
  · rintro ⟨c, -, name, hname, rfl⟩
    exact mem_dirtyFields.1 hname
  · intro hk
    -- Only fields that are declared are marked, and those have a container
    obtain ⟨c, hc⟩ := Option.isSome_iff_exists.1 (isSome_container?_of_field? (ht.dirty k hk))
    have hpath := Layout.path_of_findContainer? hc
    refine ⟨c, Layout.mem_of_findContainer? hc, k.field, ?_, by rw [hpath]⟩
    rw [hpath]
    exact mem_dirtyFields.2 hk

/-- Looking up the assigned fields among the containers changes nothing and never fails. -/
theorem foldl_tellStored (ht : Housed l t) {ks : List FieldKey}
    (hks : ∀ k ∈ ks, (l.field? k).isSome = true) (s : ContainerTree.FlushState)
    (hs : s.tree = t.toContainers l root) : ks.foldl (ContainerTree.tellStored l) s =
      { s with delta := ks.foldl (Tree.tellStored l t) s.delta } := by
  induction ks generalizing s with
  | nil => rfl
  | cons k ks ih =>
    obtain ⟨hk, hks⟩ := List.forall_mem_cons.1 hks
    obtain ⟨v, hv⟩ := Option.isSome_iff_exists.1 ((ht.stored k).trans hk)
    have hcontainer := isSome_container?_of_field? hk
    -- The value is there, so reading it changes nothing
    have hget : (ContainerTree.get l k).run s.tree = (.ok v, s.tree) := by
      rw [hs, ContainerTree.get, getWith_toContainers hroot hl, hv,
        if_neg (by rw [← Option.not_isSome, hcontainer]; decide)]
    have htell : ContainerTree.tellStored l s k =
        { s with delta := Tree.tellStored l t s.delta k } := by
      rw [ContainerTree.tellStored, hget, Tree.tellStored, hv]
      split <;> rfl
    rw [List.foldl_cons, List.foldl_cons, htell,
      ih hks { s with delta := Tree.tellStored l t s.delta k } hs]

/-- Evaluating a computed field afresh. -/
theorem mirrors_refresh (hk : l.isComputed k = true) :
    Mirrors l root (Tree.refresh l k) (ContainerTree.refresh l k) := by
  refine (mirrors_modifySlot hroot hl _ hk).bind fun _ => (mirrors_get hroot hl k).bind fun v => ?_
  intro t ht
  -- Reading leaves the slot in its place, so it is found afterwards
  obtain ⟨s, hs⟩ := Option.isSome_iff_exists.1 ((ht.slot k).trans hk)
  have hsync : Mirrors l root
      (do sync k v; return if s.differs v then some v else none : TreeM StateError (Option Value))
      (do ContainerTree.modifySlot k (·.sync v); return if s.differs v then some v else none) :=
    (mirrors_modifySlot hroot hl _ hk).bind fun _ => mirrors_pure _
  rw [run_bind_ok (TreeM.run_get t), ContainerTree.run_get_bind, hs,
    slot_toContainers hroot hl hk hs]
  exact hsync t ht

namespace FlushState.Mirrors

variable {s : FlushState} {s' : ContainerTree.FlushState}

/-- One field of a round, whether it fails, gives news or has none. -/
theorem refreshInto (h : s.Mirrors l root s') (hk : l.isComputed k = true) :
    (Tree.refreshInto l s k).Mirrors l root (ContainerTree.refreshInto l s' k) := by
  obtain ⟨hhoused, hrun⟩ := mirrors_refresh hroot hl hk s.tree h.housed
  rw [← h.tree] at hrun
  unfold Tree.refreshInto ContainerTree.refreshInto
  rw [hrun]
  -- A failure, no news, or a new value
  rcases hrefresh : (refresh l k).run s.tree with ⟨e | _ | v, t⟩ <;> rw [hrefresh] at hhoused
  · exact ⟨hhoused, rfl, h.delta, congrArg (· ++ [e]) h.failures,
      congrArg (KeySet.insert k) h.unsent,
      h.mem_changed⟩
  · exact ⟨hhoused, rfl, h.delta, h.failures, h.unsent, h.mem_changed⟩
  · exact ⟨hhoused, rfl, congrArg (·.insert k.path k.field v) h.delta, h.failures, h.unsent,
      by simp [h.mem_changed]⟩

/-- All fields of a round. -/
theorem foldl (h : s.Mirrors l root s') {ks : List FieldKey}
    (hks : ∀ k ∈ ks, l.isComputed k = true) : (ks.foldl (Tree.refreshInto l) s).Mirrors l root
      (ks.foldl (ContainerTree.refreshInto l) s') := by
  induction ks generalizing s s' with
  | nil => exact h
  | cons k ks ih =>
    obtain ⟨hk, hks⟩ := List.forall_mem_cons.1 hks
    exact ih (h.refreshInto hroot hl hk) hks

/-- Every round takes up the same fields, and the rounds end together. -/
theorem settle (h : s.Mirrors l root s') (rounds : Nat) (retry : List FieldKey) :
    (Tree.settle l rounds retry s).Mirrors l root (ContainerTree.settle l rounds retry s') := by
  have hsound := Layout.compile_sound hroot hl
  -- Induction on the rounds. What is stale depends on the changed fields only, and not on their
  -- order
  induction rounds generalizing retry s s' with
  | zero =>
    have hstale := stale_congr (l := l) h.mem_changed retry
    rw [Tree.settle.eq_def, ContainerTree.settle.eq_def]
    simp only [hstale]
    cases stale l s.changed retry with
    | nil => exact h
    | cons k ks => exact { h with failures := congrArg (· ++ _) h.failures }
  | succ rounds ih =>
    have hstale := stale_congr (l := l) h.mem_changed retry
    rw [Tree.settle.eq_def, ContainerTree.settle.eq_def]
    simp only [hstale]
    -- Nothing is due on either side, or the same fields are
    cases hks : stale l s.changed retry with
    | nil => exact h
    | cons k ks =>
      have hcomputed : ∀ d ∈ k :: ks, l.isComputed d = true := fun d hd =>
        ((mem_stale hsound).1 (hks ▸ hd)).1
      have hround : FlushState.Mirrors l root { s with changed := [] } { s' with changed := [] } :=
        { h with mem_changed := fun _ => Iff.rfl }
      exact ih (hround.foldl hroot hl hcomputed) []

end FlushState.Mirrors

/-- A flush begins with the same on both sides: the order of the marks makes no difference. -/
theorem mirrors_beginning (ht : Housed l t) : (beginning l t).Mirrors l root
    ((t.toContainers l root).dirtyKeys.foldl (ContainerTree.tellStored l)
      { tree := t.toContainers l root, delta := .empty, failures := [], unsent := [],
        changed := (t.toContainers l root).dirtyKeys }) := by
  -- The containers list their marks container by container
  have hmem : ∀ k, k ∈ (t.toContainers l root).dirtyKeys ↔ k ∈ t.dirty := fun k =>
    mem_dirtyKeys hl ht
  have hdelta : dirtyDelta l { t with dirty := (t.toContainers l root).dirtyKeys } =
      dirtyDelta l t := dirtyDelta_congr (fun k _ => hmem k) fun k _ => rfl
  rw [foldl_tellStored hroot hl ht (fun k hk => ht.dirty k ((hmem k).1 hk)) _ rfl]
  exact ⟨ht, rfl, hdelta, rfl, rfl, hmem⟩

/-- The rounds of a whole flush. -/
theorem mirrors_settled (ht : Housed l t) :
    (settled l t).Mirrors l root ((t.toContainers l root).settled l) :=
  (mirrors_beginning hroot hl ht).settle hroot hl l.computedCount t.unsent

/-- A flush of the containers tells what a flush of the tree tells, and fails where it fails. -/
theorem flush_toContainers (ht : Housed l t) : (t.toContainers l root).flush l =
    ((Tree.flush l t).1, (Tree.flush l t).2.toContainers l root) := by
  have h := mirrors_settled hroot hl ht
  have hcleared := toContainers_clear l root (settled l t).tree (settled l t).unsent
  unfold ContainerTree.flush
  simp only [h.failures, h.delta, h.unsent, h.tree]
  rw [flush_eq_finish, FlushState.finish]
  simp only
  -- Both report the first failure, if there is one
  rw [hcleared]
  cases (settled l t).failures <;> rfl

end Compiled

end Tree

end ReactiveState
