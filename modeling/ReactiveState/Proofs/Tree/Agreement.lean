import ReactiveState.Proofs.Expr.Unknown
import ReactiveState.Proofs.Tree.Simulation
import ReactiveState.Proofs.Tree.Typed

/-!
# Layouts and trees agree

A layout lists the containers of a schema by path, and a tree has them inside each other.  However
long a tree is used, the two agree (`Agrees`): a path leads to a container in both or in neither,
and it is the same one; it holds what is declared of it, and every stored value is of its type.

So the operations of a tree, which go from the root to a container and from there to a field or a
slot, find what they look for (`Finds`).  They fail for the reasons that they are given to fail: a
key that is not that of a stored field, a value of another type, or an evaluation without a result.
-/

namespace ReactiveState

/-- The evaluation of a field failed, and not because a field was missing. -/
def StateError.IsEval (e : StateError) : Prop :=
  ∃ k source, e = .eval k source ∧ ∀ d, source ≠ .unknownField d

namespace Tree

variable {l : Layout} {t : Tree} {k : FieldKey} {root : Schema}

/-- The tree has what the layout describes, and both have it under the same paths. -/
structure Agrees (l : Layout) (t : Tree) : Prop where
  /-- A path leads to a container of the tree iff it leads to one of the layout, and that has the
  same path, parent, and names of stored fields, computed fields and children. -/
  container : ∀ p, (t.container l p).map Container.outline = match l.container? p with
    | some c => .ok c.outline
    | none => .error (.unknownContainer p)
  /-- From the root down there are the containers of the layout, and no two have one path. -/
  nodes : ∃ r, t.root? l = some r ∧
    r.nodes.map Container.outline = l.containers.map ContainerInfo.outline ∧
    (r.nodes.map Container.path).Nodup
  /-- No two members have one address. -/
  nodup_addresses : (l.members.map FieldKey.address).Nodup
  /-- A handler is found under its address, at its container, and nothing else is. -/
  handler : ∀ p c h, l.container? p = some c → isIdentifier h = true →
    l.resolveHandler? (FieldKey.address ⟨p, h⟩) =
      (c.schema.handler? h).map fun handler => (p, handler)
  /-- The client storage has every binding that a stored field declares, and no other. -/
  storage : ∀ key storage, l.clientStorage.Binds key storage ↔ ∃ c ∈ l.containers,
    ∃ decl ∈ c.schema.fields, decl.storage = some storage ∧
      key = FieldKey.address ⟨c.path, decl.name⟩
  /-- Every stored value is taken as it is by the type of its field. -/
  value : ∀ p c n v, t.container l p = .ok c → c.value? n = some v →
    ∃ decl, l.field? ⟨p, n⟩ = some decl ∧ decl.type.coerce v = some v

/-- The operations on the containers of a tree do what the operations of the tree do, and find what
they look for. -/
structure Finds (l : Layout) (root : Schema) (t : Tree) : Prop where
  container : ∀ p, (t.toContainers l root).container p = t.container l p
  /-- Starting fails only where the evaluation of a field does. -/
  start : ContainerTree.start l = (Tree.start l).map (toContainers l root)
  start_error : ∀ e, ContainerTree.start l = .error e → e.IsEval
  get : ∀ k, (ContainerTree.get l k).run (t.toContainers l root) =
    (((Tree.get l k).run t).1, ((Tree.get l k).run t).2.toContainers l root)
  set : ∀ k v, (ContainerTree.set l k v).run (t.toContainers l root) =
    (((Tree.set l k v).run t).1, ((Tree.set l k v).run t).2.toContainers l root)
  /-- Assigning fails only for a key that is not that of a stored field, and for a value of another
  type. -/
  set_error : ∀ k v e, ((ContainerTree.set l k v).run (t.toContainers l root)).1 = .error e →
    l.field? k = none ∧ e = notStored l k ∨
      ∃ decl, l.field? k = some decl ∧ decl.type.coerce v = none ∧
        e = .fieldTypeMismatch k.path k.field decl.type v.kind
  modifyField : ∀ k f, (ContainerTree.modifyField l k f).run (t.toContainers l root) =
    (((Tree.modifyField l k f).run t).1, ((Tree.modifyField l k f).run t).2.toContainers l root)
  snapshot : (ContainerTree.snapshot l).run (t.toContainers l root) =
    (((Tree.snapshot l).run t).1, ((Tree.snapshot l).run t).2.toContainers l root)
  flush : (t.toContainers l root).flush l =
    ((Tree.flush l t).1, (Tree.flush l t).2.toContainers l root)
  /-- A flush fails only where the evaluation of a field does, the failures that it does not report
  included. -/
  flush_error : ∀ e ∈ ((t.toContainers l root).settled l).failures, e.IsEval
  /-- The container that a handler is given is there. -/
  scope : ∀ address p h, l.resolveHandler? address = some (p, h) → ∃ c, t.container l p = .ok c

/-! ### Evaluations know their fields -/

/-- A field that is there is not reported as unknown, and neither is what it reads: by induction on
the rank. -/
theorem known_scratch (hl : l.Sound) (hstored : ∀ k, (t.stored? k).isSome = (l.field? k).isSome)
    (hk : (l.field? k).isSome = true ∨ l.isComputed k = true) : Known (t.scratch l k) := by
  induction hrank : l.rank k using Nat.strongRecOn generalizing k with
  | _ rank ih =>
    subst hrank
    cases hs : t.stored? k with
    | some v =>
      rw [scratch_stored hl hs]
      trivial
    | none =>
      -- What is not stored is computed
      have hcomp : l.isComputed k = true := hk.resolve_left (by rw [← hstored k, hs]; decide)
      obtain ⟨e, he⟩ := Option.isSome_iff_exists.1 hcomp
      rw [scratch_computed hl hs he]
      refine Expr.known_evalWith fun d hd => ?_
      have hreads : l.Reads k d := ⟨e, he, hd⟩
      exact ih _ (hl.rank_lt hreads) (hl.reads_known k d hreads) rfl

theorem isEval_of_scratch {source : EvalError} (hl : l.Sound)
    (hstored : ∀ k, (t.stored? k).isSome = (l.field? k).isSome) (hk : l.isComputed k = true)
    (h : t.scratch l k = .error source) : (StateError.eval k source).IsEval :=
  ⟨k, source, rfl, fun d heq =>
    (known_scratch hl hstored (.inr hk)).ne d (h.trans (congrArg Except.error heq))⟩

/-- Bringing the notes up to date fails with an error of an evaluation, as all the fields that are
evaluated are there. -/
theorem isEval_of_syncAll {ks : List FieldKey} (hl : l.Sound)
    (hks : ∀ k ∈ ks, l.isComputed k = true) (ht : t.Coherent l) {e : StateError}
    (h : ((syncAll l ks).run t).1 = .error e) : e.IsEval := by
  induction ks generalizing t with
  | nil => cases h
  | cons k ks ih =>
    obtain ⟨hk, hks⟩ := List.forall_mem_cons.1 hks
    obtain ⟨t', hrun, -, ht'⟩ := computedValue_run hl ht k
    rw [syncAll] at h
    cases hv : t.scratch l k with
    | error source =>
      rw [hv] at hrun
      rw [run_bind_error hrun] at h
      obtain rfl := Except.error.inj h
      exact isEval_of_scratch hl ht.stored hk hv
    | ok v =>
      rw [hv] at hrun
      rw [run_bind_ok hrun] at h
      exact ih hks (ht'.sync v) h

/-! ### Reachable trees -/

section Compiled

variable (hroot : root.Built) (hl : Layout.compile root = .ok l)

include hroot hl

/-- A tree that cannot be started reports an evaluation that failed. -/
theorem isEval_of_start {e : StateError} (h : ContainerTree.start l = .error e) : e.IsEval := by
  have hsound := Layout.compile_sound hroot hl
  rw [start_toContainers hroot hl, Tree.start] at h
  have hrun := isEval_of_syncAll hsound (fun k hk => (hsound.mem_order k).1 hk)
    (coherent_instantiate hsound) (e := e)
  -- Starting is bringing the notes of all computed fields up to date
  rcases hs : (syncAll l l.order).run (instantiate l) with ⟨e' | _, t⟩
  · rw [hs] at h hrun
    obtain rfl := Except.error.inj h
    exact hrun rfl
  · rw [hs] at h
    cases h

/-- Why an assignment fails. -/
theorem set_error (ht : Housed l t) {v : Value} {e : StateError}
    (h : ((ContainerTree.set l k v).run (t.toContainers l root)).1 = .error e) :
    l.field? k = none ∧ e = notStored l k ∨
      ∃ decl, l.field? k = some decl ∧ decl.type.coerce v = none ∧
        e = .fieldTypeMismatch k.path k.field decl.type v.kind := by
  -- The assignment in the containers is the one in the flat tree, whose errors are known
  obtain ⟨-, hrun⟩ := mirrors_set hroot hl k v t ht
  rw [hrun, Tree.set, run_bind_ok (TreeM.run_get t)] at h
  cases hk : l.field? k with
  | none =>
    rw [hk] at h
    exact .inl ⟨rfl, (Except.error.inj h).symm⟩
  | some decl =>
    rw [hk] at h
    simp only at h
    cases hv : decl.type.coerce v with
    | none =>
      rw [hv] at h
      exact .inr ⟨decl, rfl, hv, (Except.error.inj h).symm⟩
    | some w =>
      -- The field has its place, so there is nothing left to fail
      have hstored : (t.stored? k).isSome = true := by rw [ht.stored k, hk]; rfl
      simp only [hv, hstored, if_true] at h
      cases h

/-- The operations on the containers do in every reachable tree what they do in the flat one. -/
theorem Reachable.finds (ht : Reachable l t) : Finds l root t := by
  have hsound := Layout.compile_sound hroot hl
  have hhoused : Housed l t := ht.of_invariant (invariant_housed l) (housed_instantiate hsound)
  have hcontainer : ∀ p, (t.toContainers l root).container p = t.container l p := fun p =>
    (container_toContainers hroot hl t p).trans (container_eq hroot hl t p).symm
  refine ⟨hcontainer, start_toContainers hroot hl, fun e => isEval_of_start hroot hl,
    fun k => (mirrors_get hroot hl k t hhoused).2,
    fun k v => (mirrors_set hroot hl k v t hhoused).2,
    fun k v e => set_error hroot hl hhoused,
    fun k f => (mirrors_modifyField hroot hl k f t hhoused).2,
    (mirrors_snapshot hroot hl t hhoused).2,
    flush_toContainers hroot hl hhoused, fun e he => ?_, fun address p h hresolve => ?_⟩
  · -- A failure that a flush records belongs to a field that is there, so it comes from an
    -- evaluation
    have hcoherent := ht.coherent hsound
    rw [(mirrors_settled hroot hl hhoused).failures] at he
    have hrecorded := recorded_settled hsound hcoherent
    obtain ⟨k, source, rfl, hk, hscratch⟩ := hrecorded.failures e he
    exact isEval_of_scratch hsound hcoherent.stored (hrecorded.unsent k hk).1 hscratch
  · -- A handler that was resolved belongs to a container of the layout
    obtain ⟨c, hc⟩ := Layout.exists_container?_of_resolveHandler? hresolve
    exact ⟨t.containerOf c, by rw [container_eq hroot hl, hc]⟩

/-- The layout of a schema that was built and compiled agrees with every tree that it leads to, for
ever, and the operations find in the tree what they look for. -/
theorem Reachable.agrees (ht : Reachable l t) : Agrees l t ∧ Finds l root t := by
  have hsound := Layout.compile_sound hroot hl
  obtain ⟨hcontainers, -⟩ := Layout.compile_cases hl
  have hpaths := hsound.nodup_paths
  have hw : ∀ c ∈ l.containers, c.schema.WellNamed := by
    rw [hcontainers]
    exact fun c hc => (Schema.built_of_mem_containersAt _ _ root hroot c hc).wellNamed
  -- The invariants that every reachable tree has: its shape, its caches and the types of what is
  -- stored
  have hshaped : Shaped l t := ht.of_invariant (invariant_shaped l) (shaped_instantiate hpaths)
  have hcoherent := ht.coherent hsound
  have htyped := ht.storedTyped hsound fun k decl => Layout.accepts_default hroot hl
  refine ⟨⟨fun p => ?_, ⟨_, root?_eq hroot hl t, ?_, ?_⟩, Layout.nodup_addresses hpaths hw,
    fun p c h hc hid => ?_, fun key storage => Layout.binds_clientStorage hpaths hw,
    fun p c n v hc hv => ?_⟩, ht.finds hroot hl⟩
  · rw [container_eq hroot hl]
    cases hc : l.container? p with
    | none => rfl
    | some c =>
      exact congrArg Except.ok (outline_containerOf hshaped (Layout.mem_of_findContainer? hc))
  · rw [nodes_root hl, List.map_map]
    exact List.map_congr_left fun c hc => outline_containerOf hshaped hc
  · rw [nodes_root hl, List.map_map]
    simpa [Function.comp_def] using hpaths
  · rw [FieldKey.address, Layout.resolveHandler?_address l p (isSegment_of_isIdentifier hid), hc]
    rfl
  · rw [container_eq hroot hl] at hc
    cases hinfo : l.container? p with
    | none =>
      rw [hinfo] at hc
      cases hc
    | some info =>
      rw [hinfo] at hc
      obtain rfl := Except.ok.inj hc
      rw [value?_containerOf, Layout.path_of_findContainer? hinfo] at hv
      -- A value that is stored has a declaration, whose type it has
      have hfield := hcoherent.stored ⟨p, n⟩
      rw [hv] at hfield
      obtain ⟨decl, hdecl⟩ := Option.isSome_iff_exists.1 hfield.symm
      exact ⟨decl, hdecl, htyped _ decl v hdecl hv⟩

end Compiled

end Tree

/-! ### A sample -/

namespace Schema

/-- Sets the price to nothing. -/
def giveAway : Handler :=
  ⟨false, fun path _ => .set ⟨path, "price"⟩ (.int 0) fun _ => .done (.ok [])⟩

/-- A price that the client keeps, and a handler that gives the item away. -/
def item : Schema :=
  .mk "item" [⟨"price", .int, .int 3, false, some (.session {})⟩] [] [("free", giveAway)] [] []

/-- Two items under names of which one begins with the other, and the price of both. -/
def shop : Schema :=
  .mk "app" [] [("total", .binary .add (.field ⟨"app.item", "price"⟩ .int)
    (.field ⟨"app.items", "price"⟩ .int) .int)] [] [("item", item), ("items", item)] []

theorem built_item : item.Built := by
  have hstart : Built (.mk "item" [] [] [] [] []) := .start (show start "item" = _ from rfl)
  have hprice := hstart.declare
    (show declare _ ⟨"price", .int, .int 3, false, some (.session {})⟩ = _ from rfl)
  exact hprice.declareHandler (show declareHandler _ "free" giveAway = _ from rfl)

theorem built_shop : shop.Built := by
  have hstart : Built (.mk "app" [] [] [] [] []) := .start (show start "app" = _ from rfl)
  have hitem := hstart.declareChild built_item (show declareChild _ "item" item = _ from rfl)
  have hitems := hitem.declareChild built_item (show declareChild _ "items" item = _ from rfl)
  exact hitems.declareComputed (show declareComputed _ "total"
    (.binary .add (.field ⟨"app.item", "price"⟩ .int) (.field ⟨"app.items", "price"⟩ .int) .int) = _
      from rfl)

end Schema

/-- The layout of the shop. -/
def Layout.shop : Layout := (Layout.compile Schema.shop).toOption.get rfl

theorem Layout.compile_shop : Layout.compile Schema.shop = .ok Layout.shop := rfl

namespace Tree

/-- After the price of the second item was set, both items are there and a beginning of their names
is not, the handler of the first is found, and a flush of the containers tells the new price and the
new total. -/
theorem agrees_shop :
    let t := ((Tree.set Layout.shop ⟨"app.items", "price"⟩ (.int 5)).run
      ((Tree.start Layout.shop).toOption.get rfl)).2
    (t.container Layout.shop "app.items").map Container.outline =
        .ok ⟨"app.items", some "app", ["price"], [], []⟩ ∧
      (t.container Layout.shop "app.it").map Container.outline =
        .error (.unknownContainer "app.it") ∧
      Layout.shop.resolveHandler? "app.item.free" = some ("app.item", Schema.giveAway) ∧
      ((t.toContainers Layout.shop Schema.shop).flush Layout.shop).1 =
        .ok ((Delta.empty.insert "app" "total" (.int 8)).insert "app.items" "price" (.int 5)) := by
  intro t
  have ht : Reachable Layout.shop t := .set (.start rfl) _ _
  obtain ⟨hagrees, hfinds⟩ := ht.agrees Schema.built_shop Layout.compile_shop
  -- Each look-up is the one in the layout
  have hhandler := hagrees.handler "app.item" ⟨"app.item", some "app", Schema.item⟩ "free" rfl
    (by decide)
  refine ⟨(hagrees.container "app.items").trans rfl, (hagrees.container "app.it").trans rfl,
    hhandler.trans rfl, ?_⟩
  rw [hfinds.flush]
  rfl

end Tree

end ReactiveState
