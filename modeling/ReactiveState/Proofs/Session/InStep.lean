import ReactiveState.Proofs.Session.Chain

/-!
# A client in step

`InStep` relates a tree and the copy that a client has of it: the client holds every visible stored
field, and of each computed field what the tree notes as told.  In the middle of a handler this
holds up to the dirty fields (`Pending`).  A scoped handler leads from `InStep` to `Pending`, a
flush from there to `InStep` again, and so every chain of events ends in step, wherever it stops
(`inStep_chain`).
-/

namespace ReactiveState

/-- Every handler of the layout reads and assigns only. -/
def Layout.HandlersScoped (l : Layout) : Prop :=
  ∀ c ∈ l.containers, ∀ h ∈ c.schema.handlers, ∀ path args, (h.2.run path args).IsScoped

/-- The client holds what it was told, and its stored fields are current up to the dirty ones. -/
structure Pending (l : Layout) (vs : List Value) (copy : Delta) (t : Tree) : Prop where
  tracked : t.Tracked l
  stored : ∀ k, l.isComputed k = false → k ∉ t.dirty ∨ l.isBackend k = true →
    copy.get? k.path k.field = if l.isBackend k then none else t.stored? k
  computed : ∀ k, l.isComputed k = true → copy.get? k.path k.field = t.synced? k
  synced : ∀ k w, t.synced? k = some w → w ∈ vs

/-- The client holds everything that it may see, as far as it has a value. -/
structure InStep (l : Layout) (vs : List Value) (copy : Delta) (t : Tree) : Prop
    extends Pending l vs copy t where
  dirty : t.dirty = []
  upToDate : t.UpToDate l

variable {l : Layout} {vs : List Value} {copy : Delta} {t t' : Tree} {k : FieldKey}

/-- The client keeps in step where nothing was assigned and nothing told. -/
theorem Pending.of_synced_eq (h : Pending l vs copy t) (ht' : Tree.Refreshed l t t')
    (hsynced : ∀ k, t'.synced? k = t.synced? k) : Pending l vs copy t' where
  tracked := h.tracked.of_synced_eq ht' hsynced
  stored k hk hm := by
    rw [ht'.stored?_eq]
    exact h.stored k hk (ht'.dirty ▸ hm)
  computed k hk := by rw [hsynced, h.computed k hk]
  synced k w hw := h.synced k w (hsynced k ▸ hw)

theorem Pending.get (hl : l.Sound) (h : Pending l vs copy t) (k : FieldKey) :
    Pending l vs copy ((Tree.get l k).run t).2 := by
  obtain ⟨hbare, ht'⟩ := Tree.get_keeps hl h.tracked.coherent k
  exact h.of_synced_eq (Tree.refreshed_of_bare_eq hbare ht') (Tree.synced?_of_bare_eq hbare)

/-- Assigning keeps a copy that waits for the next flush: what changed is dirty now. -/
theorem Pending.set (hl : l.Sound) (h : Pending l vs copy t) (k : FieldKey) (v : Value) :
    Pending l vs copy ((Tree.set l k v).run t).2 := by
  rcases Tree.set_cases l k v t with ⟨e, hrun⟩ | ⟨decl, w, hk, _, hrun⟩
  · rw [hrun]
    exact h
  · rw [hrun]
    have hfield : (l.field? k).isSome = true := by rw [hk]; rfl
    refine ⟨h.tracked.assign hl hfield w, fun m hm hclean => ?_, fun m hm => ?_, fun m u hu => ?_⟩
    · -- A field that is not dirty afterwards is not the one that was assigned
      by_cases hb : l.isBackend m = true
      · rw [h.stored m hm (.inr hb), if_pos hb, if_pos hb]
      · have hnot := hclean.resolve_right hb
        rw [Tree.mem_dirty_assign, not_or] at hnot
        rw [h.stored m hm (.inl hnot.2), Tree.stored?_assign, if_neg hnot.1]
    · exact (h.computed m hm).trans (Tree.synced?_assign l k m w t).symm
    · exact h.synced m u (Tree.synced?_assign l k m w t ▸ hu)

/-- After a scoped program only dirty fields are pending. -/
theorem Pending.run (hl : l.Sound) (h : Pending l vs copy t) {α : Type} {p : Program α}
    (hp : p.IsScoped) : Pending l vs copy (p.treeAfter l t) :=
  hp.run_keeps (fun k _ ht => ht.get hl k) (fun k v _ ht => ht.set hl k v) h

/-- A flush brings the client in step. -/
theorem Pending.flush (hl : l.Sound) (h : Pending l vs copy t) (hexact : Value.ExactOn vs)
    (hvalues : t.computedValues l ⊆ vs) :
    InStep l vs (copy.merge (Tree.delivered (t.flush l).1)) (t.flush l).2 ∧
      (Tree.delivered (t.flush l).1).Sorted := by
  have hf := Tree.flush_spec hl h.tracked
    ⟨hexact, h.synced, fun k v hk hv => hvalues (Tree.mem_computedValues hl hk hv)⟩
  -- The copy is the old one with the delta over it, for stored and for computed fields
  refine ⟨⟨⟨hf.tracked, fun k hk _ => ?_, fun k hk => ?_, fun k w hw => ?_⟩, hf.dirty,
    hf.upToDate⟩, hf.sorted⟩
  · rw [Delta.get?_merge _ hf.sorted, hf.delta_stored k hk]
    have hstored : (t.flush l).2.stored? k = t.stored? k := by
      rw [Tree.stored?, Tree.stored?, hf.values]
    rw [hstored]
    -- A dirty field comes with the delta unless it is kept on the server; others are current
    by_cases hmem : k ∈ t.dirty
    · cases hb : l.isBackend k with
      | true => simp [h.stored k hk (.inr hb), hb]
      | false =>
        obtain ⟨v, hv⟩ := Option.isSome_iff_exists.1
          ((h.tracked.coherent.stored k).trans (h.tracked.dirty_stored k hmem))
        simp [hmem, hv]
    · simp [hmem, h.stored k hk (.inl hmem)]
  · -- For a computed field the delta holds what the note has changed to
    rw [Delta.get?_merge _ hf.sorted, h.computed k hk, hf.synced k hk]
  · have hk := Tree.isComputed_of_synced hf.tracked.coherent hw
    rcases Option.or_eq_some_iff.1 ((hf.synced k hk).symm.trans hw) with hw | ⟨_, hw⟩
    · exact hvalues (Tree.mem_computedValues hl hk ((hf.delta_computed k w hk).1 hw).1)
    · exact h.synced k w hw

/-- A snapshot that fails leaves the client in step with what it has. -/
theorem InStep.of_refreshed (h : InStep l vs copy t) (ht' : Tree.Refreshed l t t') :
    InStep l vs copy t' := by
  -- In step everything was told already, so the snapshot told nothing new
  have hsynced : ∀ k, t'.synced? k = t.synced? k := fun k => by
    rcases ht'.synced k with hk | ⟨v, hv, hk⟩
    · exact hk
    · rw [hk, h.upToDate k v (Tree.isComputed_of_synced ht'.coherent hk) hv]
  refine ⟨h.toPending.of_synced_eq ht' hsynced, ht'.dirty.trans h.dirty, fun k v hk hv => ?_⟩
  rw [ht'.scratch_eq] at hv
  rw [hsynced, h.upToDate k v hk hv]

/-- Of the fields that are not computed the client sees the stored ones that are not kept on the
server. -/
theorem clientKeys_stored (hl : l.Sound) (ht : t.Coherent l) (hk : l.isComputed k = false) :
    (if k ∈ l.clientKeys then (t.scratch l k).toOption else none) =
      if l.isBackend k then none else t.stored? k := by
  have hmem : k ∈ l.clientKeys ↔ l.IsVisible k := by
    rw [hl.mem_clientKeys, hk]
    simp
  have hstored := ht.stored k
  -- A field that is not declared is not stored either
  cases hfield : l.field? k with
  | none =>
    have hnone : t.stored? k = none := by simpa [hfield] using hstored
    simp [hmem, Layout.IsVisible, Layout.isBackend, hfield, hnone]
  | some decl =>
    obtain ⟨v, hv⟩ := Option.isSome_iff_exists.1 (hstored.trans (by rw [hfield]; rfl))
    cases hb : decl.backend <;>
      simp [hmem, Layout.IsVisible, Layout.isBackend, hfield, hb, hv, Tree.scratch_stored hl hv,
        Except.toOption]

/-- A snapshot that succeeds is a copy in step.  It only fails if some field does. -/
theorem inStep_snapshot (hl : l.Sound) (hexact : Value.ExactOn vs) (ht : t.Coherent l)
    (hdirty : t.dirty = []) (hsynced : ∀ k w, t.synced? k = some w → w ∈ vs)
    (hvalues : t.computedValues l ⊆ vs) :
    (∃ e t', (Tree.snapshot l).run t = (.error e, t') ∧ Tree.Refreshed l t t' ∧
        ∃ k ∈ l.clientKeys, ∃ e, t.scratch l k = .error e) ∨
      ∃ delta t', (Tree.snapshot l).run t = (.ok delta, t') ∧ InStep l vs delta t' ∧
        ∀ k, l.isComputed k = true → (delta.get? k.path k.field).isSome = true := by
  have hc : Tree.Comparable l t vs :=
    ⟨hexact, hsynced, fun k v hk hv => hvalues (Tree.mem_computedValues hl hk hv)⟩
  obtain ⟨t', ht', ⟨⟨e, hrun⟩, hfail⟩ | ⟨delta, hrun, -, htold, hget⟩⟩ :=
    Tree.snapshot_run hl ht hc
  · exact .inl ⟨e, t', hrun, ht', hfail⟩
  · -- The delta of a snapshot holds for each computed field what is noted for it
    have hcomputed : ∀ k, l.isComputed k = true →
        delta.get? k.path k.field = t'.synced? k := fun k hk => by
      obtain ⟨v, hv, hheld⟩ := htold k hk
      rw [ht'.scratch_eq] at hv
      rw [hget, if_pos ((hl.mem_clientKeys k).2 (.inr hk)), hv, hheld]
      rfl
    -- The snapshot has told every computed field
    have hup : Tree.UpToDate l t' := fun k v hk hv => by
      obtain ⟨w, hw, hheld⟩ := htold k hk
      rw [hheld, Except.ok.inj (hw.symm.trans hv)]
    have htracked : Tree.Tracked l { t' with unsent := [] } :=
      Tree.tracked_of_told hl (ht'.coherent.marks _ _)
        (fun k hk => by rw [show t'.dirty = [] from ht'.dirty.trans hdirty] at hk; cases hk)
        htold
    refine .inr ⟨delta, _, hrun, ⟨⟨htracked, fun k hk _ => ?_, hcomputed,
      (hc.refreshed ht').synced⟩, ht'.dirty.trans hdirty, hup⟩, fun k hk => ?_⟩
    · rw [hget, clientKeys_stored hl ht hk]
      change _ = if l.isBackend k = true then none else t'.stored? k
      rw [ht'.stored?_eq]
    · obtain ⟨w, hw⟩ := Tree.exists_synced ht'.coherent hk
      rw [hcomputed k hk, hw]
      rfl

/-! ### Chains -/

theorem scoped_of_resolveHandler? (h : l.HandlersScoped) {path container : String}
    {handler : Handler} (hr : l.resolveHandler? path = some (container, handler))
    (args : List Value) : (handler.run container args).IsScoped := by
  unfold Layout.resolveHandler? at hr
  simp only [Option.bind_eq_bind, Option.bind_eq_some_iff, Option.pure_def] at hr
  obtain ⟨⟨container', name⟩, _, info, hinfo, handler', hhandler, heq⟩ := hr
  obtain ⟨rfl, rfl⟩ := Prod.mk.inj (Option.some.inj heq)
  exact h info (Layout.mem_of_findContainer? hinfo) _ (KeyMap.mem_of_find? hhandler) _ args

/-- The copy after updates were folded in. -/
def foldUpdates (copy : Delta) (us : List StateUpdate) : Delta :=
  us.foldl (fun copy u => copy.merge u.delta) copy

/-- What a program gives leaves a client in step that was in step before. -/
def KeepsInStep (l : Layout) (vs : List Value) (p : Program (List StateUpdate)) : Prop :=
  ∀ copy t, InStep l vs copy t → (∀ u ∈ p.trees l t, u.computedValues l ⊆ vs) →
    InStep l vs (foldUpdates copy (p.result l t)) (p.treeAfter l t) ∧
      ∀ u ∈ p.result l t, u.delta.Sorted

/-- The rest of a chain after a flush whose delta the client has yet to fold in. -/
theorem inStep_afterFlush {limit left : Nat} {e : Event} {queue : List Event}
    (hrest : ∀ queue, KeepsInStep l vs (EventLoop.chain l limit left queue))
    {o : Delta × Except HandlerError (List Event)} (h : InStep l vs (copy.merge o.1) t)
    (hsorted : o.1.Sorted)
    (hvalues : ∀ u ∈ (afterFlush l limit left e queue o).trees l t, u.computedValues l ⊆ vs) :
    InStep l vs (foldUpdates copy ((afterFlush l limit left e queue o).result l t))
        ((afterFlush l limit left e queue o).treeAfter l t) ∧
      ∀ u ∈ (afterFlush l limit left e queue o).result l t, u.delta.Sorted := by
  obtain ⟨delta, _ | followUps⟩ := o
  · -- The event failed, and the chain ends with its update
    exact ⟨h, fun u hu => List.mem_singleton.1 hu ▸ hsorted⟩
  · obtain ⟨hstep, hall⟩ := hrest (queue ++ followUps) _ t h fun u hu =>
      hvalues u (Program.mem_trees_bind_left _ _ t hu)
    rw [afterFlush, Program.result_bind, Program.treeAfter_bind]
    exact ⟨hstep, List.forall_mem_cons.2 ⟨hsorted, hall⟩⟩

/-- A chain ends in step, whether it runs out of events, an event fails, or the limit stops it. -/
theorem inStep_chain (hl : l.Sound) (hscoped : l.HandlersScoped) (hexact : Value.ExactOn vs)
    (limit left : Nat) (queue : List Event) :
    KeepsInStep l vs (EventLoop.chain l limit left queue) := by
  induction left generalizing queue with
  | zero =>
    intro copy t h _
    -- The limit is reached: events that are left are reported with an empty delta
    cases queue with
    | nil => exact ⟨h, nofun⟩
    | cons e queue => exact ⟨h, fun u hu => List.mem_singleton.1 hu ▸ Delta.sorted_empty⟩
  | succ left ih =>
    intro copy t h hvalues
    cases queue with
    | nil => exact ⟨h, nofun⟩
    | cons e queue =>
      -- A handler that is not found stops the chain before the tree is touched
      cases hr : l.resolveHandler? e.handler with
      | none =>
        simp only [EventLoop.chain, hr]
        exact ⟨h, fun u hu => List.mem_singleton.1 hu ▸ Delta.sorted_empty⟩
      | some found =>
        obtain ⟨path, handler⟩ := found
        rw [chain_cons hr] at hvalues ⊢
        have htrees := fun u hu => hvalues u (Program.mem_trees_bind_right _ _ t hu)
        rw [Program.result_bind, Program.treeAfter_bind]
        -- The handler leaves dirty fields behind, the flush delivers them
        have hpending := h.toPending.run hl (scoped_of_resolveHandler? hscoped hr e.args)
        generalize (handler.run path e.args).result l t = handled at htrees ⊢
        generalize (handler.run path e.args).treeAfter l t = t₁ at htrees hpending ⊢
        obtain ⟨hstep, hsorted⟩ := hpending.flush hl hexact (htrees t₁ List.mem_cons_self)
        rw [← outcome_fst handled] at hstep hsorted
        exact inStep_afterFlush ih hstep hsorted fun u hu =>
          htrees u (List.mem_cons_of_mem t₁ hu)

end ReactiveState
