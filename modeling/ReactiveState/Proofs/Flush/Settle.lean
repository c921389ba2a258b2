import ReactiveState.Proofs.Delta
import ReactiveState.Proofs.Flush.Held
import ReactiveState.Proofs.Flush.Rounds

/-!
# What a flush delivers

`flush_spec` says what a flush does to a tree that is `Tracked`: the client is up to date
afterwards, and the delta, whether the flush fails or not, has exactly the dirty fields that the
client may see and the computed fields whose value from scratch the client did not hold (`Flushed`).

The invariant of the rounds is `Settling`.  Every computed field is still due to be refreshed,
failed in this flush, was told its value, or is undisturbed; a field that is told a new value makes
those that read it due in the next round.  When the rounds end, nothing is due (`Settling.rounds`).
-/

namespace ReactiveState

namespace Tree

variable {l : Layout} {t : Tree} {k : FieldKey} {vs : List Value}

/-- What is kept between flushes: a field can only be out of step if a field it reads is dirty or if
it failed in the last flush. -/
structure Tracked (l : Layout) (t : Tree) : Prop where
  coherent : t.Coherent l
  dirty_stored : ∀ k ∈ t.dirty, (l.field? k).isSome = true
  undisturbed : ∀ k, l.isComputed k = true → k ∉ t.unsent → (∀ d ∈ t.dirty, ¬ l.Reads k d) →
    Undisturbed l t k

/-- A tree stays tracked while the client is told nothing new. -/
theorem Tracked.of_synced_eq {t' : Tree} (ht : t.Tracked l) (h : Refreshed l t t')
    (hsynced : ∀ k, t'.synced? k = t.synced? k) : t'.Tracked l := by
  refine ⟨h.coherent, fun k hk => ht.dirty_stored k (h.dirty ▸ hk), fun k hk hunsent hdirty => ?_⟩
  rw [h.unsent] at hunsent
  rw [h.dirty] at hdirty
  exact (ht.undisturbed k hk hunsent hdirty).congr (h.stored?_eq k) (hsynced k)
    fun d _ => held_congr (h.stored?_eq d) (hsynced d)

/-- Assigning a stored field keeps track of what the client holds. -/
theorem Tracked.assign (hl : l.Sound) (ht : t.Tracked l) (hk : (l.field? k).isSome = true)
    (v : Value) : (t.assign l k v).Tracked l := by
  refine ⟨ht.coherent.assign hl hk v, fun m hm => ?_, fun m hm hunsent hreads => ?_⟩
  · rcases (mem_dirty_assign l k m v t).1 hm with rfl | hm
    · exact hk
    · exact ht.dirty_stored m hm
  · -- What does not read the assigned field is held as before
    rw [unsent_assign] at hunsent
    have hmk : m ≠ k := by
      rintro rfl
      rw [hl.field?_of_isComputed m hm] at hk
      cases hk
    refine (ht.undisturbed m hm hunsent fun d hd =>
      hreads d ((mem_dirty_assign l k d v t).2 (.inr hd))).congr ?_ (synced?_assign l k m v t)
      fun d hd => ?_
    · rw [stored?_assign, if_neg hmk]
    · have hdk : d ≠ k := fun heq => hreads d ((mem_dirty_assign l k d v t).2 (.inl heq)) hd
      exact held_congr (by rw [stored?_assign, if_neg hdk]) (synced?_assign l k d v t)

/-! ### Dirty fields -/

theorem get?_tellStored (l : Layout) (t : Tree) (delta : Delta) (m k : FieldKey) :
    (tellStored l t delta m).get? k.path k.field =
      if k = m ∧ l.isBackend k = false then (t.stored? k).or (delta.get? k.path k.field)
      else delta.get? k.path k.field := by
  unfold tellStored
  by_cases hm : k = m
  · subst hm
    cases l.isBackend k <;> cases t.stored? k <;> simp [Delta.get?_insert_key]
  · cases l.isBackend m <;> cases t.stored? m <;> simp [Delta.get?_insert_key, hm]

/-- The dirty fields that the client may see, with their values. -/
theorem get?_dirtyDelta (l : Layout) (t : Tree) (k : FieldKey) :
    (dirtyDelta l t).get? k.path k.field =
      if k ∈ t.dirty ∧ l.isBackend k = false then t.stored? k else none := by
  suffices ∀ (ks : List FieldKey) (delta : Delta),
      (ks.foldl (tellStored l t) delta).get? k.path k.field =
        (if k ∈ ks ∧ l.isBackend k = false then t.stored? k else none).or
          (delta.get? k.path k.field) by
    rw [dirtyDelta, this, Delta.get?_empty, Option.or_none]
  intro ks
  induction ks with
  | nil => simp
  | cons m ks ih =>
    intro delta
    rw [List.foldl_cons, ih, get?_tellStored]
    by_cases hm : k = m
    · subst hm
      -- A field that is told twice is told the same
      cases hb : l.isBackend k <;> by_cases hk : k ∈ ks <;> cases hs : t.stored? k <;>
        simp [hk]
    · simp [hm]

theorem canonical_tellStored (l : Layout) (t : Tree) {delta : Delta} (h : delta.Canonical)
    (m : FieldKey) : (tellStored l t delta m).Canonical := by
  unfold tellStored
  split
  · exact h
  · split
    · exact h.insert _ _ _
    · exact h

theorem canonical_dirtyDelta (l : Layout) (t : Tree) : (dirtyDelta l t).Canonical :=
  List.foldlRecOn t.dirty (tellStored l t) Delta.canonical_empty
    fun _ h m _ => canonical_tellStored l t h m

/-- The delta has the dirty fields in its own order, and fields that are kept on the server do not
count. -/
theorem dirtyDelta_congr (hdirty : ∀ k, l.isBackend k = false → (k ∈ t.dirty ↔ k ∈ t'.dirty))
    (hstored : ∀ k, l.isBackend k = false → t.stored? k = t'.stored? k) :
    dirtyDelta l t = dirtyDelta l t' := by
  refine (canonical_dirtyDelta l t).ext (canonical_dirtyDelta l t') fun path field => ?_
  -- Deltas in canonical form are the same if their entries are
  have hget := get?_dirtyDelta l t ⟨path, field⟩
  have hget' := get?_dirtyDelta l t' ⟨path, field⟩
  simp only at hget hget'
  rw [hget, hget']
  cases hb : l.isBackend ⟨path, field⟩ with
  | true => simp
  | false => simp [hdirty _ hb, hstored _ hb]

/-! ### One refresh -/

/-- A refresh in a round fails, finds the value that the client holds, or tells a new one. -/
theorem refreshInto_cases (hl : l.Sound) {s : FlushState} (hs : s.tree.Coherent l)
    (hc : Comparable l s.tree vs) (hk : l.isComputed k = true) :
    (∃ e t', s.tree.scratch l k = .error e ∧ Refreshed l s.tree t' ∧
        (∀ m, t'.synced? m = s.tree.synced? m) ∧ refreshInto l s k =
          { s with
            tree := t'
            failures := s.failures ++ [.eval k e]
            unsent := KeySet.insert k s.unsent }) ∨
      (∃ v t', s.tree.scratch l k = .ok v ∧ s.tree.synced? k = some v ∧ Refreshed l s.tree t' ∧
        (∀ m, t'.synced? m = s.tree.synced? m) ∧ refreshInto l s k = { s with tree := t' }) ∨
      ∃ v t', s.tree.scratch l k = .ok v ∧ s.tree.synced? k ≠ some v ∧ Refreshed l s.tree t' ∧
        t'.synced? k = some v ∧ (∀ m, m ≠ k → t'.synced? m = s.tree.synced? m) ∧
        refreshInto l s k =
          { s with
            tree := t'
            delta := s.delta.insert k.path k.field v
            changed := s.changed ++ [k] } := by
  obtain ⟨t', hrun, ht', hsynced⟩ := refreshInto_run hl hs hk
  have hother : ∀ m, m ≠ k → t'.synced? m = s.tree.synced? m := fun m hm => by
    rw [hsynced, if_neg hm]
  -- Whether the field's own value is sent anew or not, no other one is
  have hsame : t'.synced? k = s.tree.synced? k → ∀ m, t'.synced? m = s.tree.synced? m :=
    fun hheld m => if hm : m = k then hm ▸ hheld else hother m hm
  have hheld := hsynced k
  rw [if_pos rfl] at hheld
  rw [hrun]
  cases hscratch : s.tree.scratch l k with
  | error e =>
    rw [news_of_error hscratch] at hheld ⊢
    exact .inl ⟨e, t', rfl, ht', hsame hheld, rfl⟩
  | ok v =>
    -- The value is the one that the client holds, or a new one
    rcases hc.news_cases hs hk hscratch with ⟨hold, hnews⟩ | ⟨hdiffer, hnews⟩
    · rw [hnews] at hheld ⊢
      exact .inr (.inl ⟨v, t', rfl, hold, ht', hsame hheld, rfl⟩)
    · rw [hnews] at hheld ⊢
      exact .inr (.inr ⟨v, t', rfl, hdiffer, ht', hheld, hother, rfl⟩)

/-! ### The invariant of the rounds -/

/-- What holds in the middle of a flush of `t`, with the fields of `todo` left for this round. -/
structure Settling (l : Layout) (t : Tree) (todo : List FieldKey) (s : FlushState) : Prop where
  refreshed : Refreshed l t s.tree
  settled : ∀ k, l.isComputed k = true → (k ∈ todo ∨ ∃ d ∈ s.changed, l.Reads k d) ∨
    (k ∈ s.unsent ∧ ∃ e, t.scratch l k = .error e) ∨ Told l s.tree k ∨ Undisturbed l s.tree k
  sorted : s.delta.Sorted
  delta_stored : ∀ k, l.isComputed k = false →
    s.delta.get? k.path k.field = (dirtyDelta l t).get? k.path k.field
  delta_computed : ∀ k v, l.isComputed k = true →
    (s.delta.get? k.path k.field = some v ↔ s.tree.synced? k = some v ∧ t.synced? k ≠ some v)

variable {todo retry ks : List FieldKey} {s : FlushState}

/-- Before the first round the fields of the last flush's failures are left, and those that read a
dirty field. -/
theorem settling_start (ht : t.Tracked l) (hl : l.Sound) :
    Settling l t t.unsent (beginning l t) where
  refreshed := .refl ht.coherent
  settled k hk := by
    by_cases hunsent : k ∈ t.unsent
    · exact .inl (.inl hunsent)
    · -- What reads no dirty field was left undisturbed by the last flush
      by_cases hdirty : ∃ d ∈ t.dirty, l.Reads k d
      · exact .inl (.inr hdirty)
      · exact .inr (.inr (.inr (ht.undisturbed k hk hunsent fun d hd hr => hdirty ⟨d, hd, hr⟩)))
  sorted := (canonical_dirtyDelta l t).sorted
  delta_stored _ _ := rfl
  delta_computed k v hk := by
    -- Only stored fields are dirty, so the delta starts without computed ones
    have hdirty : k ∉ t.dirty := fun hmem => by
      have hstored := ht.dirty_stored k hmem
      rw [hl.field?_of_isComputed k hk] at hstored
      cases hstored
    simp only [beginning, get?_dirtyDelta, hdirty, false_and, if_false]
    exact ⟨nofun, fun h => absurd h.1 h.2⟩

/-- A round takes up everything that is due. -/
theorem Settling.startRound (h : Settling l t retry s) (hl : l.Sound) :
    Settling l t (stale l s.changed retry) { s with changed := [] } where
  refreshed := h.refreshed
  settled k hk := (h.settled k hk).imp (fun hdue => .inl ((mem_stale hl).2 ⟨hk, hdue⟩)) id
  sorted := h.sorted
  delta_stored := h.delta_stored
  delta_computed := h.delta_computed

/-- Fields that were told nothing keep their state. -/
theorem Settling.of_synced_eq (h : Settling l t (k :: ks) s) {s' : FlushState}
    (hrefreshed : Refreshed l s.tree s'.tree)
    (hsynced : ∀ m, s'.tree.synced? m = s.tree.synced? m) (hdelta : s'.delta = s.delta)
    (hchanged : s'.changed = s.changed) (hunsent : ∀ m ∈ s.unsent, m ∈ s'.unsent)
    (hk : (k ∈ s'.unsent ∧ ∃ e, t.scratch l k = .error e) ∨ Told l s'.tree k) :
    Settling l t ks s' where
  refreshed := h.refreshed.trans hrefreshed
  settled m hm := by
    have hheld : ∀ d, s'.tree.held d = s.tree.held d := fun d =>
      held_congr (hrefreshed.stored?_eq d) (hsynced d)
    -- The field is done; for the others the cases are those before the refresh
    by_cases hmk : m = k
    · rw [hmk]
      exact .inr (hk.imp id .inl)
    · rw [hchanged]
      rcases h.settled m hm with (hmem | hreads) | ⟨hfail, he⟩ | ⟨v, hv, hheldv⟩ | hundisturbed
      · exact .inl (.inl ((List.mem_cons.1 hmem).resolve_left hmk))
      · exact .inl (.inr hreads)
      · exact .inr (.inl ⟨hunsent m hfail, he⟩)
      · exact .inr (.inr (.inl ⟨v, by rw [hrefreshed.scratch_eq, hv], by rw [hsynced, hheldv]⟩))
      · exact .inr (.inr (.inr (hundisturbed.congr (hrefreshed.stored?_eq m) (hsynced m)
          fun d _ => hheld d)))
  sorted := hdelta ▸ h.sorted
  delta_stored := hdelta ▸ h.delta_stored
  delta_computed m v hm := by
    rw [hdelta, hsynced]
    exact h.delta_computed m v hm

/-- A value that the client does not hold yet it did not hold when the flush began. -/
theorem Settling.not_told (h : Settling l t todo s) {v : Value}
    (hv : s.tree.scratch l k = .ok v) (hdiffer : s.tree.synced? k ≠ some v) :
    t.synced? k ≠ some v := by
  -- Had the client held `v` from the start, it would hold it still
  intro hold
  rcases h.refreshed.synced k with hsame | ⟨u, hu, hnew⟩
  · exact hdiffer (hsame.trans hold)
  · rw [h.refreshed.scratch_eq, hu, Except.ok.injEq] at hv
    exact hdiffer (hv ▸ hnew)

/-- A field that is told a new value goes to the delta, and makes those that read it due in the next
round. -/
theorem Settling.tell (h : Settling l t (k :: ks) s) (hk : l.isComputed k = true) {v : Value}
    {t' : Tree} (hv : s.tree.scratch l k = .ok v) (hdiffer : s.tree.synced? k ≠ some v)
    (ht' : Refreshed l s.tree t') (hheld : t'.synced? k = some v)
    (hother : ∀ m, m ≠ k → t'.synced? m = s.tree.synced? m) :
    Settling l t ks
      { s with
        tree := t'
        delta := s.delta.insert k.path k.field v
        changed := s.changed ++ [k] } where
  refreshed := h.refreshed.trans ht'
  settled m hm := by
    by_cases hmk : m = k
    · rw [hmk]
      exact .inr (.inr (.inl ⟨v, by rw [ht'.scratch_eq, hv], hheld⟩))
    · -- A field that reads this one is due in the next round
      by_cases hreads : l.Reads m k
      · exact .inl (.inr ⟨k, by simp, hreads⟩)
      · rcases h.settled m hm with (hmem | ⟨d, hd, hr⟩) | hfail | ⟨w, hw, hheldw⟩ | hundisturbed
        · exact .inl (.inl ((List.mem_cons.1 hmem).resolve_left hmk))
        · exact .inl (.inr ⟨d, by simp [hd], hr⟩)
        · exact .inr (.inl hfail)
        · exact .inr (.inr (.inl ⟨w, by rw [ht'.scratch_eq, hw], by rw [hother m hmk, hheldw]⟩))
        · refine .inr (.inr (.inr (hundisturbed.congr (ht'.stored?_eq m) (hother m hmk)
            fun d hd => held_congr (ht'.stored?_eq d) (hother d ?_))))
          -- It would read this field, which was excluded
          rintro rfl
          exact hreads hd
  sorted := Delta.sorted_insert h.sorted _ _ _
  delta_stored m hm := by
    have hmk : m ≠ k := fun heq => by rw [heq, hk] at hm; cases hm
    simp only [Delta.get?_insert_key, if_neg hmk]
    exact h.delta_stored m hm
  delta_computed m w hm := by
    simp only [Delta.get?_insert_key]
    by_cases hmk : m = k
    · subst hmk
      rw [if_pos rfl, hheld, Option.some.injEq]
      -- The delta has the value that is held now, and only a new value is told
      refine ⟨fun hvw => ⟨hvw, ?_⟩, fun hvw => hvw.1⟩
      rw [← hvw]
      exact h.not_told hv hdiffer
    · rw [if_neg hmk, hother m hmk]
      exact h.delta_computed m w hm

/-- A refresh keeps the invariant, with one field less to do. -/
theorem Settling.refreshInto (h : Settling l t (k :: ks) s) (hl : l.Sound)
    (hc : Comparable l t vs) (hk : l.isComputed k = true) :
    Settling l t ks (refreshInto l s k) := by
  rcases refreshInto_cases hl h.refreshed.coherent (hc.refreshed h.refreshed) hk with
    ⟨e, t', he, ht', hsynced, heq⟩ | ⟨v, t', hv, hheld, ht', hsynced, heq⟩ |
    ⟨v, t', hv, hdiffer, ht', hheld, hother, heq⟩
  · -- A failure is kept for the next flush
    rw [heq]
    refine h.of_synced_eq ht' hsynced rfl rfl (fun m hm => KeySet.mem_insert.2 (.inr hm))
      (.inl ⟨KeySet.mem_insert.2 (.inl rfl), e, ?_⟩)
    rw [← h.refreshed.scratch_eq, he]
  · rw [heq]
    exact h.of_synced_eq ht' hsynced rfl rfl (fun m hm => hm)
      (.inr ⟨v, by rw [ht'.scratch_eq, hv], by rw [hsynced, hheld]⟩)
  · rw [heq]
    exact h.tell hk hv hdiffer ht' hheld hother

theorem Settling.foldl (h : Settling l t ks s) (hl : l.Sound) (hc : Comparable l t vs)
    (hks : ∀ k ∈ ks, l.isComputed k = true) :
    Settling l t [] (ks.foldl (Tree.refreshInto l) s) := by
  induction ks generalizing s with
  | nil => exact h
  | cons k ks ih =>
    obtain ⟨hk, hks⟩ := List.forall_mem_cons.1 hks
    exact ih (h.refreshInto hl hc hk) hks

/-- The rounds end with nothing left to refresh. -/
theorem Settling.rounds (h : Settling l t retry s) (hl : l.Sound) (hc : Comparable l t vs) {n : Nat}
    {s' : FlushState} (hrounds : Rounds l n retry s s') :
    ∃ retry', Settling l t retry' s' ∧ stale l s'.changed retry' = [] := by
  induction hrounds with
  | @done retry _ hnil => exact ⟨retry, h, hnil⟩
  | round _ _ ih =>
    exact ih ((h.startRound hl).foldl hl hc fun k hk => ((mem_stale hl).1 hk).1)

/-! ### The flush -/

/-- The delta of a flush, which a failed one carries in its error. -/
def delivered : Except FlushError Delta → Delta
  | .ok delta => delta
  | .error e => e.delta

theorem delivered_flush (l : Layout) (t : Tree) :
    delivered (flush l t).1 = (settled l t).delta := by
  rw [flush_eq_finish, FlushState.finish]
  cases (settled l t).failures <;> rfl

/-- What a flush achieves: the tree afterwards, and the delta. -/
structure Flushed (l : Layout) (t : Tree) (delta : Delta) (t' : Tree) : Prop where
  tracked : t'.Tracked l
  values : t'.values = t.values
  dirty : t'.dirty = []
  upToDate : UpToDate l t'
  sorted : delta.Sorted
  delta_stored : ∀ k, l.isComputed k = false → delta.get? k.path k.field =
    if k ∈ t.dirty ∧ l.isBackend k = false then t.stored? k else none
  delta_computed : ∀ k v, l.isComputed k = true →
    (delta.get? k.path k.field = some v ↔ t.scratch l k = .ok v ∧ t.synced? k ≠ some v)
  synced : ∀ k, l.isComputed k = true →
    t'.synced? k = (delta.get? k.path k.field).or (t.synced? k)

/-- With nothing due every field failed, was told or is undisturbed. -/
theorem Settling.settled_of_stale_eq_nil (h : Settling l t retry s) (hl : l.Sound)
    (hnil : stale l s.changed retry = []) (hk : l.isComputed k = true) :
    (k ∈ s.unsent ∧ ∃ e, t.scratch l k = .error e) ∨ Told l s.tree k ∨ Undisturbed l s.tree k := by
  refine (h.settled k hk).resolve_left fun hdue => ?_
  have hmem : k ∈ stale l s.changed retry := (mem_stale hl).2 ⟨hk, hdue⟩
  rw [hnil] at hmem
  cases hmem

theorem Settling.upToDate (h : Settling l t retry s) (hl : l.Sound)
    (hnil : stale l s.changed retry = []) : UpToDate l s.tree := by
  refine upToDate_of_undisturbed hl h.refreshed.coherent fun k hk => ?_
  rw [h.refreshed.scratch_eq]
  exact (h.settled_of_stale_eq_nil hl hnil hk).imp (fun ⟨_, he⟩ => he) id

/-- Once the client is up to date, the delta has the values from scratch that it did not hold. -/
theorem Settling.delta_of_upToDate (h : Settling l t retry s) (hup : UpToDate l s.tree)
    (hk : l.isComputed k = true) (v : Value) :
    s.delta.get? k.path k.field = some v ↔ t.scratch l k = .ok v ∧ t.synced? k ≠ some v := by
  rw [h.delta_computed k v hk]
  refine and_congr_left fun hne => ⟨fun hheld => ?_, fun hv => ?_⟩
  · rcases h.refreshed.synced k with hsame | ⟨w, hw, hnew⟩
    · exact absurd (hsame ▸ hheld) hne
    · rw [hw, ← Option.some.inj (hnew.symm.trans hheld)]
  · exact hup k v hk (h.refreshed.scratch_eq ▸ hv)

/-- What the client holds is what the delta says, or what it held before. -/
theorem Settling.synced_eq (h : Settling l t retry s) (hk : l.isComputed k = true) :
    s.tree.synced? k = (s.delta.get? k.path k.field).or (t.synced? k) := by
  cases hd : s.delta.get? k.path k.field with
  | some v => exact ((h.delta_computed k v hk).1 hd).1
  | none =>
    obtain ⟨w, hw⟩ := exists_synced h.refreshed.coherent hk
    -- Had it been told a value, the delta would have that
    by_contra hne
    have := (h.delta_computed k w hk).2 ⟨hw, fun hold => hne (hw.trans hold.symm)⟩
    rw [hd] at this
    cases this

/-- A flush delivers what changed and nothing else. -/
theorem flush_spec (hl : l.Sound) (ht : t.Tracked l) (hc : Comparable l t vs) :
    Flushed l t (delivered (flush l t).1) (flush l t).2 := by
  obtain ⟨n, -, hrounds⟩ := rounds_settled hl t
  obtain ⟨retry', h, hnil⟩ := (settling_start ht hl).rounds hl hc hrounds
  rw [delivered_flush, flush_snd]
  generalize settled l t = s at h hnil
  have hup := h.upToDate hl hnil
  -- What a settled state gives for each part
  refine
    { tracked := ⟨h.refreshed.coherent.marks _ _, by simp, fun k hk hunsent _ => ?_⟩
      values := h.refreshed.values
      dirty := rfl
      upToDate := hup
      sorted := h.sorted
      delta_stored := fun k hk => by rw [h.delta_stored k hk, get?_dirtyDelta]
      delta_computed := fun k v hk => h.delta_of_upToDate hup hk v
      synced := fun k hk => h.synced_eq hk }
  -- A field that failed is unsent now
  rcases h.settled_of_stale_eq_nil hl hnil hk with ⟨hmem, _⟩ | htold | hundisturbed
  · exact absurd hmem hunsent
  · exact hup.undisturbed hl htold
  · exact hundisturbed

/-! ### Starts and snapshots -/

/-- A tree is tracked where the client was told everything. -/
theorem tracked_of_told (hl : l.Sound) (ht : t.Coherent l)
    (hdirty : ∀ k ∈ t.dirty, (l.field? k).isSome = true)
    (htold : ∀ k, l.isComputed k = true → Told l t k) : t.Tracked l := by
  have hup : UpToDate l t := fun k v hk hv => by
    obtain ⟨w, hw, hheld⟩ := htold k hk
    rw [hheld, Except.ok.inj (hw.symm.trans hv)]
  exact ⟨ht, hdirty, fun k hk _ _ => hup.undisturbed hl (htold k hk)⟩

/-- What was told may be compared where the values from scratch may. -/
theorem comparable_of_told (hl : l.Sound) (ht : t.Coherent l)
    (htold : ∀ k, l.isComputed k = true → Told l t k) (hexact : Value.ExactOn vs)
    (hvalues : t.computedValues l ⊆ vs) : Comparable l t vs where
  exact := hexact
  synced k w hw := by
    -- What was told is the value from scratch
    have hk := isComputed_of_synced ht hw
    obtain ⟨v, hv, hheld⟩ := htold k hk
    rw [hheld, Option.some.injEq] at hw
    exact hvalues (mem_computedValues hl hk (hw ▸ hv))
  scratch _ _ hk hv := hvalues (mem_computedValues hl hk hv)

/-- Where the client was told everything, nothing that it may see fails. -/
theorem exists_scratch_of_told (hl : l.Sound) (ht : t.Coherent l)
    (htold : ∀ k, l.isComputed k = true → Told l t k) (hk : k ∈ l.clientKeys) :
    ∃ v, t.scratch l k = .ok v := by
  rcases (hl.mem_clientKeys k).1 hk with ⟨decl, hdecl, -⟩ | hk
  · have hsome : (t.stored? k).isSome = true := by rw [ht.stored k, hdecl]; rfl
    obtain ⟨v, hv⟩ := Option.isSome_iff_exists.1 hsome
    exact ⟨v, scratch_stored hl hv⟩
  · obtain ⟨v, hv, _⟩ := htold k hk
    exact ⟨v, hv⟩

/-- A started tree tells the client of every computed field. -/
theorem told_start (hl : l.Sound) (ht : Tree.start l = .ok t)
    (hexact : Value.ExactOn (t.computedValues l)) :
    (∀ k, l.isComputed k = true → Told l t k) ∧ t.dirty = [] ∧ t.unsent = [] := by
  have hscratch : (instantiate l).scratch l = t.scratch l :=
    (scratch_eq_of_values_eq (values_start hl ht)).symm
  -- A slot starts with null, which may always be compared
  have hcomparable : Comparable l (instantiate l) (.null :: t.computedValues l) := by
    refine ⟨hexact.cons_null, fun k w hw => ?_, fun k v hk hv =>
      List.mem_cons_of_mem _ (mem_computedValues hl hk (hscratch ▸ hv))⟩
    rw [synced?, slot?_instantiate hl] at hw
    split at hw
    · exact Option.some.inj hw ▸ List.mem_cons_self
    · cases hw
  have horder : ∀ k ∈ l.order, l.isComputed k = true := fun k hk => (hl.mem_order k).1 hk
  obtain ⟨t', ht', hrun⟩ := syncAll_run hl horder (coherent_instantiate hl) hcomparable
  unfold Tree.start at ht
  -- An evaluation that fails is no start
  rcases hrun with ⟨e, hrun⟩ | ⟨hrun, hall⟩
  · rw [hrun] at ht
    cases ht
  · rw [hrun] at ht
    obtain rfl := Except.ok.inj ht
    refine ⟨fun k hk => ?_, ht'.dirty, ht'.unsent⟩
    obtain ⟨v, hv, hheld⟩ := hall k ((hl.mem_order k).2 hk)
    exact ⟨v, hscratch ▸ hv, hheld⟩

/-- A snapshot that succeeds has everything that the client may see, and the client was told all of
it. -/
theorem snapshot_run (hl : l.Sound) (ht : t.Coherent l) (hc : Comparable l t vs) :
    ∃ t', Refreshed l t t' ∧ (((∃ e, (snapshot l).run t = (.error e, t')) ∧
        ∃ k ∈ l.clientKeys, ∃ e, t.scratch l k = .error e) ∨
      ∃ delta, (snapshot l).run t = (.ok delta, { t' with unsent := [] }) ∧ delta.Sorted ∧
        (∀ k, l.isComputed k = true → Told l t' k) ∧
        ∀ k, delta.get? k.path k.field =
          if k ∈ l.clientKeys then (t.scratch l k).toOption else none) := by
  -- What the client may see is stored or computed
  have hks : ∀ k ∈ l.clientKeys, (l.field? k).isSome = true ∨ l.isComputed k = true :=
    fun k hk => ((hl.mem_clientKeys k).1 hk).imp (fun ⟨decl, hdecl, _⟩ => by rw [hdecl]; rfl) id
  obtain ⟨t', ht', ⟨⟨e, hrun⟩, hfail⟩ | ⟨delta, hrun, hsorted, htold, hget⟩⟩ :=
    collect_run hl hks ht hc Delta.sorted_empty
  · exact ⟨t', ht', .inl ⟨⟨e, run_bind_error hrun⟩, hfail⟩⟩
  · refine ⟨t', ht', .inr ⟨delta, run_bind_ok hrun, hsorted, fun k hk => ?_, hget⟩⟩
    obtain ⟨v, hv, hheld⟩ := htold k ((hl.mem_clientKeys k).2 (.inr hk))
    exact ⟨v, by rw [ht'.scratch_eq, hv], hheld hk⟩

end Tree

end ReactiveState
