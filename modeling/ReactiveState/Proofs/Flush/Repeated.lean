import ReactiveState.Proofs.Flush.Settle
import ReactiveState.Proofs.Tree.Access

/-!
# Flushing again

A flush of a tree without marks has only the fields of the last flush's failures to try again.  As
long as nothing is assigned these fail again, and a field that fails tells nothing, so the flush is
over after one round (`Rounds.quiet`).  Values are compared nowhere on this way, so it makes no
difference which of them are equal to themselves.
-/

namespace ReactiveState

namespace Tree

variable {l : Layout} {t t' : Tree} {k : FieldKey} {s s' : FlushState}
  {retry ks : List FieldKey} {n : Nat}

/-- The second state comes from the first one by refreshing fields that all failed. -/
structure Quiet (l : Layout) (s : FlushState) (ks : List FieldKey) (s' : FlushState) : Prop where
  refreshed : Refreshed l s.tree s'.tree
  synced : ∀ m, s'.tree.synced? m = s.tree.synced? m
  delta : s'.delta = s.delta
  changed : s'.changed = s.changed
  mem_unsent : ∀ m, m ∈ s'.unsent ↔ m ∈ s.unsent ∨ m ∈ ks

/-! ### Fields that fail -/

theorem quiet_refl (hs : s.tree.Coherent l) : Quiet l s [] s where
  refreshed := .refl hs
  synced _ := rfl
  delta := rfl
  changed := rfl
  mem_unsent m := by simp

theorem Quiet.trans {ks' : List FieldKey} {s'' : FlushState} (h : Quiet l s ks s')
    (h' : Quiet l s' ks' s'') : Quiet l s (ks ++ ks') s'' where
  refreshed := h.refreshed.trans h'.refreshed
  synced m := (h'.synced m).trans (h.synced m)
  delta := h'.delta.trans h.delta
  changed := h'.changed.trans h.changed
  mem_unsent m := by rw [h'.mem_unsent, h.mem_unsent, List.mem_append, or_assoc]

/-- A field that fails is noted as such, and nothing is told. -/
theorem quiet_refreshInto (hl : l.Sound) (hs : s.tree.Coherent l) (hk : l.isComputed k = true)
    {e : EvalError} (he : s.tree.scratch l k = .error e) :
    Quiet l s [k] (refreshInto l s k) := by
  obtain ⟨t', hrun, ht', hsynced⟩ := refreshInto_run hl hs hk
  have hnews : news l s.tree k = .error e := news_of_error he
  rw [hnews] at hrun hsynced
  rw [hrun]
  refine ⟨ht', fun m => ?_, rfl, rfl, fun m => ?_⟩
  · -- An error tells the client nothing, so it holds what it held
    have hm := hsynced m
    split at hm
    · next heq => rw [heq] at hm ⊢; exact hm
    · exact hm
  · -- The field is entered among those to be tried again
    rw [List.mem_singleton, or_comm]
    exact KeySet.mem_insert

theorem quiet_foldl (hl : l.Sound) (hs : s.tree.Coherent l)
    (hks : ∀ k ∈ ks, l.isComputed k = true ∧ ∃ e, s.tree.scratch l k = .error e) :
    Quiet l s ks (ks.foldl (refreshInto l) s) := by
  induction ks generalizing s with
  | nil => exact quiet_refl hs
  | cons k ks ih =>
    obtain ⟨⟨hk, e, he⟩, hks⟩ := List.forall_mem_cons.1 hks
    have h := quiet_refreshInto hl hs hk he
    -- The others fail as before, since no stored value has changed
    rw [← h.refreshed.scratch_eq] at hks
    exact h.trans (ih h.refreshed.coherent hks)

/-! ### One round and no more -/

/-- A round in which every field fails is the last one. -/
theorem Rounds.quiet (hl : l.Sound) (hs : s.tree.Coherent l) (hchanged : s.changed = [])
    (hretry : ∀ k ∈ retry, l.isComputed k = true ∧ ∃ e, s.tree.scratch l k = .error e)
    (h : Rounds l n retry s s') : Quiet l s retry s' := by
  -- Without changes only what is tried again is due
  have hdue : ∀ k, k ∈ stale l s.changed retry ↔ k ∈ retry := by
    intro k
    rw [mem_stale hl, hchanged]
    exact ⟨fun hk => hk.2.resolve_right nofun, fun hk => ⟨(hretry k hk).1, .inl hk⟩⟩
  cases h with
  | done hnil =>
    -- Nothing is due, so nothing was to be tried again
    have hempty : retry = [] := List.eq_nil_iff_forall_not_mem.2 fun k hk => by
      rw [← hdue, hnil] at hk
      cases hk
    rw [hempty]
    exact quiet_refl hs
  | round hne hrest =>
    have hfold := quiet_foldl (s := { s with changed := [] }) hl hs
      fun k hk => hretry k ((hdue k).1 hk)
    -- Nothing changed in this round, so nothing is due in the next one
    have hnil : ∀ s₁ : FlushState, s₁.changed = [] → stale l s₁.changed [] = [] := by
      intro s₁ hs₁
      refine List.eq_nil_iff_forall_not_mem.2 fun k hk => ?_
      rw [mem_stale hl, hs₁] at hk
      exact hk.2.elim nofun nofun
    cases hrest with
    | done _ =>
      exact
        { refreshed := hfold.refreshed
          synced := hfold.synced
          delta := hfold.delta
          changed := hfold.changed.trans hchanged.symm
          mem_unsent := fun m => by rw [hfold.mem_unsent, hdue] }
    | round hne' _ => exact absurd (hnil _ hfold.changed) hne'

/-! ### The flush -/

/-- A flush succeeds exactly when it leaves nothing to be tried again. -/
theorem isOk_flush_iff (hl : l.Sound) (ht : t.Coherent l) :
    (flush l t).1.isOk = true ↔ (flush l t).2.unsent = [] := by
  have hrecorded := recorded_settled hl ht
  rw [flush_eq_finish]
  simp only [FlushState.finish]
  -- What is left to be tried again is what has failed
  rw [← hrecorded.failures_eq_nil_iff]
  cases (settled l t).failures with
  | nil => exact ⟨fun _ => rfl, fun _ => rfl⟩
  | cons e es =>
    exact ⟨fun h => absurd h Bool.false_ne_true, fun h => absurd h (List.cons_ne_nil e es)⟩

/-- A flush of a tree without marks, whose fields to be tried again all fail, delivers nothing and
changes nothing but caches. -/
theorem flush_of_failing (hl : l.Sound) (ht : t.Coherent l) (hdirty : t.dirty = [])
    (hsorted : KeySet.Sorted t.unsent)
    (hunsent : ∀ k ∈ t.unsent, l.isComputed k = true ∧ ∃ e, t.scratch l k = .error e) :
    delivered (flush l t).1 = .empty ∧ (∀ k, (flush l t).2.synced? k = t.synced? k) ∧
      (flush l t).2.unsent = t.unsent := by
  obtain ⟨n, -, hrounds⟩ := rounds_settled hl t
  have hquiet := hrounds.quiet hl ht hdirty hunsent
  rw [delivered_flush, flush_snd]
  refine ⟨?_, hquiet.synced, ?_⟩
  · -- Without marks no stored field is told, and no computed one has a value
    have hdelta : dirtyDelta l t = .empty := by rw [dirtyDelta, hdirty]; rfl
    rw [hquiet.delta]
    exact hdelta
  · -- Both are in order, and have the same members
    refine KeySet.ext_of_sorted (recorded_settled hl ht).sorted hsorted fun k => ?_
    rw [hquiet.mem_unsent]
    exact ⟨fun hk => hk.resolve_left List.not_mem_nil, .inr⟩

/-- After a flush, whether it failed or not, and any number of readings, another flush delivers
nothing, succeeds exactly if the first one did, and leaves what the client holds and what is to be
tried again as it was. -/
theorem Reachable.flush_idempotent {root : Schema} (hroot : root.Built)
    (hl : Layout.compile root = .ok l) (ht : Reachable l t) (ks : List FieldKey) :
    let t₁ := Access.afterAll l (ks.map .get) (Tree.flush l t).2
    delivered (Tree.flush l t₁).1 = .empty ∧
      (Tree.flush l t₁).1.isOk = (Tree.flush l t).1.isOk ∧
      (∀ k, (Tree.flush l t₁).2.synced? k = (Tree.flush l t).2.synced? k) ∧
      (Tree.flush l t₁).2.unsent = (Tree.flush l t).2.unsent := by
  intro t₁
  have hsound := Layout.compile_sound hroot hl
  have hcoherent := ht.coherent hsound
  have hrecorded := recorded_settled hsound hcoherent
  obtain ⟨hbare, ht₁⟩ := bare_afterAll_get hsound (hcoherent.flush hsound) ks
  -- The readings have kept the stored values, so what failed fails still
  have hvalues : t₁.values = t.values := by
    rw [values_of_bare_eq hbare, flush_snd]
    exact hrecorded.refreshed.values
  have hunsent : t₁.unsent = (settled l t).unsent := by
    rw [unsent_of_bare_eq hbare, flush_snd]
  have hdirty : t₁.dirty = [] := by
    rw [dirty_of_bare_eq hbare, flush_snd]
  obtain ⟨hempty, hsynced, hretry⟩ := flush_of_failing hsound ht₁ hdirty
    (hunsent ▸ hrecorded.sorted) fun k hk => by
      rw [scratch_eq_of_values_eq hvalues]
      exact hrecorded.unsent k (hunsent ▸ hk)
  have hsame : (Tree.flush l t₁).2.unsent = (Tree.flush l t).2.unsent := by
    rw [hretry, unsent_of_bare_eq hbare]
  -- Both flushes succeed exactly if they leave nothing, and they leave the same
  refine ⟨hempty, ?_, fun k => ?_, hsame⟩
  · rw [Bool.eq_iff_iff, isOk_flush_iff hsound ht₁, isOk_flush_iff hsound hcoherent, hsame]
  · rw [hsynced, synced?_of_bare_eq hbare]

/-- The flush after one that failed by a division by zero, with the failed fields read in
between. -/
theorem flush_idempotent_undivided :
    let t₁ := Access.afterAll Layout.quotient
      ([⟨"app", "c"⟩, ⟨"app", "a"⟩].map .get) (Tree.flush Layout.quotient undivided).2
    t₁.unsent = [⟨"app", "b"⟩, ⟨"app", "c"⟩] ∧
      delivered (Tree.flush Layout.quotient t₁).1 = .empty :=
  ⟨by decide +kernel, (reachable_undivided.flush_idempotent Schema.built_quotient
    Layout.compile_quotient [⟨"app", "c"⟩, ⟨"app", "a"⟩]).1⟩

end Tree

end ReactiveState
