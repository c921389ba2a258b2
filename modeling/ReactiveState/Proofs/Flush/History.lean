import ReactiveState.Proofs.Flush.Settle

/-!
# Histories of a tree

A `History` is a tree together with what happened to it since it was started: what the client was
sent, which stored fields were assigned since the last flush, and which values the computed fields
have had.  None of this is looked at by the tree itself.

`flush_eq_diff` states a flush by the history alone: its delta is the difference between the tree
and what the client was sent.  It follows from `flush_spec` and the invariant `History.Sound`, which
every call keeps (`Reached.sound`).
-/

namespace ReactiveState

namespace Tree

/-- A call on a tree. -/
inductive Call where
  | get (k : FieldKey)
  | set (k : FieldKey) (v : Value)
  | modifyField (k : FieldKey) (f : Value → Value)
  | flush
  | snapshot

/-- A tree with its history. -/
structure History where
  tree : Tree
  /-- What the client was sent, later values in place of earlier ones. -/
  sent : Delta
  /-- The stored fields assigned since the last flush. -/
  assigned : List FieldKey
  /-- The values that computed fields have had. -/
  occurred : List Value

namespace History

/-- A started tree, whose client was sent the initial state. -/
def start (l : Layout) : Except StateError History := do
  let t ← Tree.start l
  let delta ← initialState l
  return ⟨t, delta, [], t.computedValues l⟩

/-- The history after the tree was left by a call. -/
def moved (l : Layout) (h : History) (t : Tree) : History :=
  { h with tree := t, occurred := h.occurred ++ t.computedValues l }

/-- The history after an assignment, or an attempt. -/
def assigning (l : Layout) (h : History) (k : FieldKey) : Except StateError Unit × Tree → History
  | (.ok (), t) => { h.moved l t with assigned := k :: h.assigned }
  | (.error _, t) => h.moved l t

/-- The history after a call. -/
def call (l : Layout) (h : History) : Call → History
  | .get k => h.moved l ((Tree.get l k).run h.tree).2
  | .set k v => h.assigning l k ((Tree.set l k v).run h.tree)
  | .modifyField k f => h.assigning l k ((Tree.modifyField l k f).run h.tree)
  | .flush =>
    { h.moved l (Tree.flush l h.tree).2 with
      sent := h.sent.merge (delivered (Tree.flush l h.tree).1)
      assigned := [] }
  | .snapshot =>
    match (Tree.snapshot l).run h.tree with
    | (.ok delta, t) => { h.moved l t with sent := h.sent.merge delta }
    | (.error _, t) => h.moved l t

/-- The histories of calls after a start, in which every snapshot succeeds. -/
inductive Reached (l : Layout) : History → Prop where
  | start {h : History} (hs : start l = .ok h) : Reached l h
  | call {h : History} (hh : Reached l h) (c : Call)
    (hc : c = .snapshot → ∃ delta, ((Tree.snapshot l).run h.tree).1 = .ok delta) :
    Reached l (h.call l c)

/-- What the tree knows of its history. -/
structure Sound (l : Layout) (h : History) : Prop where
  tracked : h.tree.Tracked l
  mem_dirty : ∀ k, k ∈ h.tree.dirty ↔ k ∈ h.assigned
  sent : ∀ k, l.isComputed k = true → h.sent.get? k.path k.field = h.tree.synced? k
  comparable : Comparable l h.tree (.null :: h.occurred)

variable {l : Layout} {h : History} {t : Tree} {k : FieldKey} {vs : List Value}

/-! ### Calls that assign nothing -/

/-- Only caches were filled. -/
theorem Sound.refill (hh : h.Sound l) (hbare : t.bare = h.tree.bare) (ht : t.Coherent l) :
    ({ h with tree := t } : History).Sound l := by
  have hrefreshed := refreshed_of_bare_eq hbare ht
  have hsynced := synced?_of_bare_eq hbare
  refine ⟨hh.tracked.of_synced_eq hrefreshed hsynced, fun k => ?_, fun k hk => ?_,
    hh.comparable.refreshed hrefreshed⟩
  · rw [← hh.mem_dirty, ← hrefreshed.dirty]
  · rw [hsynced, ← hh.sent k hk]

/-- More values may have occurred. -/
theorem Sound.extend (hh : h.Sound l) (hexact : Value.ExactOn (h.occurred ++ vs)) :
    ({ h with occurred := h.occurred ++ vs } : History).Sound l where
  tracked := hh.tracked
  mem_dirty := hh.mem_dirty
  sent := hh.sent
  comparable :=
    { exact := hexact.cons_null
      synced := fun k w hw => List.cons_subset_cons _ (List.subset_append_left _ _)
        (hh.comparable.synced k w hw)
      scratch := fun k v hk hv => List.cons_subset_cons _ (List.subset_append_left _ _)
        (hh.comparable.scratch k v hk hv) }

/-- Reading a field keeps the history sound. -/
theorem Sound.get (hl : l.Sound) (hh : h.Sound l) (k : FieldKey)
    (hexact : Value.ExactOn (h.call l (.get k)).occurred) : (h.call l (.get k)).Sound l := by
  obtain ⟨hbare, ht⟩ := get_keeps hl hh.tracked.coherent k
  exact (hh.refill hbare ht).extend hexact

/-! ### Assignments -/

/-- The values of the new tree may be compared, if they are among those that occurred. -/
theorem comparable_moved (hl : l.Sound)
    (hsynced : ∀ k w, t.synced? k = some w → w ∈ Value.null :: h.occurred)
    (hexact : Value.ExactOn (h.moved l t).occurred) :
    Comparable l t (.null :: (h.moved l t).occurred) where
  exact := hexact.cons_null
  synced k w hw := List.cons_subset_cons _ (List.subset_append_left _ _) (hsynced k w hw)
  scratch _ _ hk hv :=
    List.mem_cons_of_mem _ (List.mem_append_right _ (mem_computedValues hl hk hv))

/-- So does an assignment, which is the one change that lets sent values fall behind. -/
theorem Sound.assign (hl : l.Sound) (hh : h.Sound l) (hk : (l.field? k).isSome = true) (v : Value)
    (hexact : Value.ExactOn (h.moved l (h.tree.assign l k v)).occurred) :
    ({ h.moved l (h.tree.assign l k v) with assigned := k :: h.assigned } : History).Sound l where
  tracked := hh.tracked.assign hl hk v
  mem_dirty m := (mem_dirty_assign l k m v h.tree).trans <| by
    rw [List.mem_cons, ← hh.mem_dirty]
  sent m hm := (hh.sent m hm).trans (synced?_assign l k m v h.tree).symm
  comparable := comparable_moved hl
    (fun m w hw => hh.comparable.synced m w (synced?_assign l k m v h.tree ▸ hw)) hexact

/-- So does setting a field, whether or not the value is accepted. -/
theorem Sound.set (hl : l.Sound) (hh : h.Sound l) (k : FieldKey) (v : Value)
    (hexact : Value.ExactOn (h.assigning l k ((Tree.set l k v).run h.tree)).occurred) :
    (h.assigning l k ((Tree.set l k v).run h.tree)).Sound l := by
  rcases set_cases l k v h.tree with ⟨e, hrun⟩ | ⟨decl, w, hk, _, hrun⟩
  · rw [hrun] at hexact ⊢
    exact hh.extend hexact
  · rw [hrun] at hexact ⊢
    exact hh.assign hl (by rw [hk]; rfl) w hexact

/-- So does changing it by a function. -/
theorem Sound.modifyField (hl : l.Sound) (hh : h.Sound l) (k : FieldKey) (f : Value → Value)
    (hexact : Value.ExactOn (h.call l (.modifyField k f)).occurred) :
    (h.call l (.modifyField k f)).Sound l := by
  obtain ⟨hbare, ht⟩ := get_keeps hl hh.tracked.coherent k
  simp only [call, Tree.modifyField, run_bind] at hexact ⊢
  rcases hrun : (Tree.get l k).run h.tree with ⟨_ | v, t⟩
  · -- The field could not be read, so nothing is assigned
    rw [hrun] at hbare ht hexact
    exact (hh.refill hbare ht).extend hexact
  · rw [hrun] at hbare ht hexact
    exact (hh.refill hbare ht).set hl k (f v) hexact

/-! ### Flushes and snapshots -/

/-- So does a flush: what it tells is what had changed. -/
theorem Sound.flush (hl : l.Sound) (hh : h.Sound l)
    (hexact : Value.ExactOn (h.call l .flush).occurred) : (h.call l .flush).Sound l := by
  have hf := flush_spec hl hh.tracked hh.comparable
  -- Marks are gone, and the merge of the delta is what the slots have as sent
  refine ⟨hf.tracked, fun k => ?_, fun k hk => ?_, comparable_moved hl (fun k w hw => ?_) hexact⟩
  · change k ∈ (Tree.flush l h.tree).2.dirty ↔ k ∈ []
    rw [hf.dirty]
  · change (h.sent.merge _).get? k.path k.field = (Tree.flush l h.tree).2.synced? k
    rw [Delta.get?_merge _ hf.sorted, hh.sent k hk, hf.synced k hk]
  · -- What the client holds now was told in this flush or held before
    have hk := isComputed_of_synced hf.tracked.coherent hw
    rcases Option.or_eq_some_iff.1 ((hf.synced k hk).symm.trans hw) with hw | ⟨_, hw⟩
    · exact hh.comparable.scratch k w hk ((hf.delta_computed k w hk).1 hw).1
    · exact hh.comparable.synced k w hw

/-- So does a snapshot that succeeds, after which everything was sent. -/
theorem Sound.snapshot (hl : l.Sound) (hh : h.Sound l)
    (hok : ∃ delta, ((Tree.snapshot l).run h.tree).1 = .ok delta)
    (hexact : Value.ExactOn (h.call l .snapshot).occurred) : (h.call l .snapshot).Sound l := by
  obtain ⟨t', ht', ⟨⟨e, hrun⟩, _⟩ | ⟨delta, hrun, hsorted, htold, hget⟩⟩ :=
    snapshot_run hl hh.tracked.coherent hh.comparable
  · obtain ⟨delta, hdelta⟩ := hok
    rw [hrun] at hdelta
    cases hdelta
  · simp only [call, hrun] at hexact ⊢
    -- A snapshot tells every field, so what was sent before does not matter
    refine ⟨tracked_of_told hl (ht'.coherent.marks _ _) (fun k hk => ?_) htold, fun k => ?_,
      fun k hk => ?_, comparable_moved hl (hh.comparable.refreshed ht').synced hexact⟩
    · exact hh.tracked.dirty_stored k (ht'.dirty ▸ hk)
    · change k ∈ t'.dirty ↔ k ∈ h.assigned
      rw [ht'.dirty, hh.mem_dirty]
    · obtain ⟨v, hv, hheld⟩ := htold k hk
      rw [ht'.scratch_eq] at hv
      rw [Delta.get?_merge _ hsorted, hget, if_pos ((hl.mem_clientKeys k).2 (.inr hk)), hv]
      exact hheld.symm

/-- The initial state is a snapshot of the started tree, and has everything that the client may
see. -/
theorem initialState_eq (hl : l.Sound) (ht : Tree.start l = .ok t)
    (hexact : Value.ExactOn (t.computedValues l)) :
    ∃ delta, initialState l = .ok delta ∧ ∀ k, delta.get? k.path k.field =
      if k ∈ l.clientKeys then (t.scratch l k).toOption else none := by
  obtain ⟨htold, -, -⟩ := told_start hl ht hexact
  have hcoh := coherent_start hl ht
  have hcomparable := comparable_of_told hl hcoh htold hexact (List.Subset.refl _)
  have hinitial : initialState l = ((Tree.snapshot l).run t).1 := by
    unfold initialState
    rw [ht]
    rfl
  obtain ⟨t', ht', ⟨_, k, hk, e, he⟩ | ⟨delta, hrun, _, _, hget⟩⟩ :=
    snapshot_run hl hcoh hcomparable
  · -- Every field was told, so none of them fails
    obtain ⟨v, hv⟩ := exists_scratch_of_told hl hcoh htold hk
    cases he.symm.trans hv
  · exact ⟨delta, by rw [hinitial, hrun], hget⟩

/-- Every tree that starts has a history. -/
theorem exists_start (hl : l.Sound) (ht : Tree.start l = .ok t)
    (hexact : Value.ExactOn (t.computedValues l)) :
    ∃ h, History.start l = .ok h ∧ h.tree = t := by
  obtain ⟨delta, hdelta, -⟩ := initialState_eq hl ht hexact
  exact ⟨⟨t, delta, [], t.computedValues l⟩, by rw [History.start, ht, hdelta]; rfl, rfl⟩

/-- The history of a started tree is sound. -/
theorem sound_start (hl : l.Sound) (hs : History.start l = .ok h)
    (hexact : Value.ExactOn h.occurred) : h.Sound l := by
  unfold History.start at hs
  obtain ⟨t, ht, hs⟩ := bind_eq_ok hs
  obtain ⟨delta, hdelta, hs⟩ := bind_eq_ok hs
  obtain rfl := Except.ok.inj hs
  obtain ⟨htold, hdirty, -⟩ := told_start hl ht hexact
  have hcoh := coherent_start hl ht
  have hcomparable : Comparable l t (.null :: t.computedValues l) :=
    comparable_of_told hl hcoh htold hexact.cons_null (List.subset_cons_self _ _)
  -- The initial state tells every field
  refine ⟨tracked_of_told hl hcoh (by rw [hdirty]; exact fun _ => nofun) htold, fun k => ?_,
    fun k hk => ?_, hcomparable⟩
  · rw [hdirty]
  · obtain ⟨delta', hdelta', hget⟩ := initialState_eq hl ht hexact
    obtain rfl := Except.ok.inj (hdelta.symm.trans hdelta')
    obtain ⟨v, hv, hheld⟩ := htold k hk
    rw [hget, if_pos ((hl.mem_clientKeys k).2 (.inr hk)), hv, hheld]
    rfl

/-! ### All calls -/

/-- What occurred stays. -/
theorem occurred_subset_call (l : Layout) (h : History) (c : Call) :
    h.occurred ⊆ (h.call l c).occurred := by
  -- Whatever comes of an assignment, values are added only
  have hassigning : ∀ k r, h.occurred ⊆ (h.assigning l k r).occurred := by
    rintro k ⟨_ | _, t⟩ <;> exact List.subset_append_left _ _
  cases c with
  | get k => exact List.subset_append_left _ _
  | set k v => exact hassigning _ _
  | modifyField k f => exact hassigning _ _
  | flush => exact List.subset_append_left _ _
  | snapshot =>
    simp only [call]
    split <;> exact List.subset_append_left _ _

/-- Every history is sound, by induction on its calls. -/
theorem Reached.sound (hl : l.Sound) (hh : Reached l h) (hexact : Value.ExactOn h.occurred) :
    h.Sound l := by
  induction hh with
  | start hs => exact sound_start hl hs hexact
  | @call h hh c hc ih =>
    -- Values that occurred before this call still occur, so the assumption covers the earlier
    -- calls
    have hsound := ih (hexact.mono (occurred_subset_call l h c))
    cases c with
    | get k => exact hsound.get hl k hexact
    | set k v => exact hsound.set hl k v hexact
    | modifyField k f => exact hsound.modifyField hl k f hexact
    | flush => exact hsound.flush hl hexact
    | snapshot => exact hsound.snapshot hl (hc rfl) hexact

/-- The delta of a flush is the difference between the tree and what the client was sent: the
visible stored fields that were assigned, with their values, and the computed fields whose value
from scratch is not the one sent last.  It makes no difference whether the flush reports a
failure. -/
theorem Reached.flush_eq_diff {root : Schema} (hroot : root.Built)
    (hl : Layout.compile root = .ok l) (hh : Reached l h) (hexact : Value.ExactOn h.occurred)
    (k : FieldKey) (v : Value) :
    (delivered (Tree.flush l h.tree).1).get? k.path k.field = some v ↔
      (k ∈ h.assigned ∧ l.isBackend k = false ∧ h.tree.stored? k = some v) ∨
        (l.isComputed k = true ∧ h.tree.scratch l k = .ok v ∧
          h.sent.get? k.path k.field ≠ some v) := by
  have hsound := Layout.compile_sound hroot hl
  have hh' := hh.sound hsound hexact
  have hf := flush_spec hsound hh'.tracked hh'.comparable
  cases hk : l.isComputed k with
  | false =>
    -- Of a stored field it only matters whether it was assigned
    rw [hf.delta_stored k hk]
    simp [← hh'.mem_dirty, and_assoc]
  | true =>
    have hstored := hh'.tracked.coherent.stored?_eq_none hsound hk
    -- What the tree notes as told is what the client was sent last
    rw [hf.delta_computed k v hk, hh'.sent k hk, hstored]
    simp

/-- The started counter, set to seven. -/
def counterAtSeven : History :=
  ((start Layout.counter).toOption.get rfl).call Layout.counter (.set ⟨"app", "count"⟩ (.int 7))

/-- The double of the counter is told when the counter was set to seven, since two was sent last. -/
theorem flush_eq_diff_counter :
    (delivered (Tree.flush Layout.counter counterAtSeven.tree).1).get? "app" "double" =
      some (.int 14) := by
  have hreached : Reached Layout.counter counterAtSeven := .call (.start rfl) _ nofun
  have hexact : Value.ExactOn counterAtSeven.occurred := Value.exactOn_ints [2, 7, 14, 19]
  -- The client was sent the double of one at the start
  have hsent : counterAtSeven.sent.get? "app" "double" = some (.int 2) := rfl
  refine (hreached.flush_eq_diff Schema.built_counter Layout.compile_counter hexact
    ⟨"app", "double"⟩ (.int 14)).2 (.inr ⟨rfl, rfl, ?_⟩)
  rw [hsent]
  exact fun heq => absurd (Value.int.inj (Option.some.inj heq)) (by decide)

end History

end Tree

end ReactiveState
