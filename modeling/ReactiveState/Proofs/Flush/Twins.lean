import ReactiveState.Proofs.Flush.Settle
import ReactiveState.Proofs.Tree.Access

/-!
# What a flush depends on

A flush sees of a tree the stored values, what the client holds, which fields are marked, and which
are to be tried again; what is cached and in which order the marks were made does not matter.

`Alike` and `Twins` relate two flushes of trees that agree on this.  Every round refreshes the same
fields on both sides (`stale_congr`), and every refresh has the same to tell (`Alike.news_eq`), so
the rounds end alike (`Twins.rounds`).
-/

namespace ReactiveState

namespace Tree

variable {l : Layout} {t t' t₁ t₁' : Tree} {k : FieldKey} {s s' : FlushState}
  {retry ks : List FieldKey}

/-- Two trees that differ in caches and marks at most. -/
structure Alike (l : Layout) (t t' : Tree) : Prop where
  left : t.Coherent l
  right : t'.Coherent l
  stored : ∀ k, t.stored? k = t'.stored? k
  synced : ∀ k, t.synced? k = t'.synced? k

/-- Two flushes in the middle of a round that have come to the same. -/
structure Twins (l : Layout) (s s' : FlushState) : Prop where
  tree : Alike l s.tree s'.tree
  delta : s.delta = s'.delta
  failures : s.failures = s'.failures
  unsent : s.unsent = s'.unsent
  mem_changed : ∀ k, k ∈ s.changed ↔ k ∈ s'.changed

/-! ### One refresh -/

/-- The values from scratch are those of the stored fields. -/
theorem Alike.scratch_eq (h : Alike l t t') (k : FieldKey) : t.scratch l k = t'.scratch l k :=
  scratch_congr (h.stored k) fun d _ => h.stored d

theorem Alike.news_eq (h : Alike l t t') (k : FieldKey) : news l t k = news l t' k := by
  rw [news, news, h.scratch_eq, h.synced]

/-- Both sides tell the client the same. -/
theorem Alike.refreshed (h : Alike l t t') (ht : Refreshed l t t₁) (ht' : Refreshed l t' t₁')
    (hsynced : ∀ m, t₁.synced? m = t₁'.synced? m) : Alike l t₁ t₁' where
  left := ht.coherent
  right := ht'.coherent
  stored m := by rw [ht.stored?_eq, ht'.stored?_eq, h.stored]
  synced := hsynced

/-- What the step notes keeps two flushes alike, whether the field fails, is told or has no news. -/
theorem Twins.note (h : Twins l s s') (ht : Alike l t t') (o : Except EvalError (Option Value)) :
    Twins l (s.note k t o) (s'.note k t' o) := by
  cases o with
  | error e =>
    refine ⟨ht, h.delta, ?_, ?_, h.mem_changed⟩
    · -- Both note the failure, and the field to be tried again
      exact congrArg (· ++ [.eval k e]) h.failures
    · exact congrArg (KeySet.insert k) h.unsent
  | ok v? =>
    cases v? with
    | none => exact ⟨ht, h.delta, h.failures, h.unsent, h.mem_changed⟩
    | some v =>
      refine ⟨ht, ?_, h.failures, h.unsent, fun m => ?_⟩
      · -- Both tell the value and hold the field for changed
        exact congrArg (·.insert k.path k.field v) h.delta
      · simp only [FlushState.note, List.mem_append, h.mem_changed]

/-- Twins stay twins when both refresh the same field. -/
theorem Twins.refreshInto (hl : l.Sound) (h : Twins l s s') (hk : l.isComputed k = true) :
    Twins l (Tree.refreshInto l s k) (Tree.refreshInto l s' k) := by
  obtain ⟨t, hrun, ht, hsynced⟩ := refreshInto_run hl h.tree.left hk
  obtain ⟨t', hrun', ht', hsynced'⟩ := refreshInto_run hl h.tree.right hk
  have hnews := h.tree.news_eq k
  -- The same news leave both clients with the same
  have halike : Alike l t t' := h.tree.refreshed ht ht' fun m => by
    rw [hsynced, hsynced', hnews, h.tree.synced, h.tree.synced]
  rw [hrun, hrun', hnews]
  exact h.note halike (news l s'.tree k)

/-! ### One round after another -/

theorem Twins.foldl (hl : l.Sound) (h : Twins l s s') (hks : ∀ k ∈ ks, l.isComputed k = true) :
    Twins l (ks.foldl (Tree.refreshInto l) s) (ks.foldl (Tree.refreshInto l) s') := by
  induction ks generalizing s s' with
  | nil => exact h
  | cons k ks ih =>
    obtain ⟨hk, hks⟩ := List.forall_mem_cons.1 hks
    exact ih (h.refreshInto hl hk) hks

/-- What is due depends on which fields changed, not on the order in which they did. -/
theorem stale_congr {changed changed' : List FieldKey} (h : ∀ k, k ∈ changed ↔ k ∈ changed')
    (retry : List FieldKey) : stale l changed retry = stale l changed' retry := by
  have hdependents : ∀ k, k ∈ changed.flatMap l.graph.dependents ↔
      k ∈ changed'.flatMap l.graph.dependents := fun k => by
    simp only [List.mem_flatMap, h]
  simp only [stale, hdependents]

theorem Twins.stale_eq (h : Twins l s s') (retry : List FieldKey) :
    stale l s.changed retry = stale l s'.changed retry :=
  stale_congr h.mem_changed retry

theorem Twins.startRound (h : Twins l s s') :
    Twins l { s with changed := [] } { s' with changed := [] } :=
  { h with mem_changed := fun _ => Iff.rfl }

theorem Twins.rounds (hl : l.Sound) (h : Twins l s s') {n : Nat} {s₁ : FlushState}
    (hrounds : Rounds l n retry s s₁) : ∃ s₁', Rounds l n retry s' s₁' ∧ Twins l s₁ s₁' := by
  induction hrounds generalizing s' with
  | @done retry s hnil =>
    rw [h.stale_eq] at hnil
    exact ⟨s', .done hnil, h⟩
  | @round n retry s s₁ hne hrest ih =>
    -- Both flushes take up the same fields in this round
    have hcomputed : ∀ k ∈ stale l s.changed retry, l.isComputed k = true :=
      fun k hk => ((mem_stale hl).1 hk).1
    obtain ⟨s₁', hrest', htwins⟩ := ih (h.startRound.foldl hl hcomputed)
    rw [h.stale_eq] at hne hrest'
    exact ⟨s₁', .round hne hrest', htwins⟩

/-! ### The flush -/

/-- The delta of the dirty fields has them in its own order. -/
theorem Alike.dirtyDelta_eq (h : Alike l t t') (hdirty : ∀ k, k ∈ t.dirty ↔ k ∈ t'.dirty) :
    dirtyDelta l t = dirtyDelta l t' :=
  dirtyDelta_congr (fun k _ => hdirty k) fun k _ => h.stored k

theorem Alike.beginning (h : Alike l t t') (hdirty : ∀ k, k ∈ t.dirty ↔ k ∈ t'.dirty) :
    Twins l (Tree.beginning l t) (Tree.beginning l t') where
  tree := h
  delta := h.dirtyDelta_eq hdirty
  failures := rfl
  unsent := rfl
  mem_changed := hdirty

/-- Trees that differ in caches and the order of marks are flushed with the same result, and again
differ in caches at most. -/
theorem Alike.flush (hl : l.Sound) (h : Alike l t t')
    (hdirty : ∀ k, k ∈ t.dirty ↔ k ∈ t'.dirty) (hunsent : t.unsent = t'.unsent) :
    (Tree.flush l t).1 = (Tree.flush l t').1 ∧ Alike l (Tree.flush l t).2 (Tree.flush l t').2 ∧
      (Tree.flush l t).2.unsent = (Tree.flush l t').2.unsent := by
  obtain ⟨n, -, hrounds⟩ := rounds_settled hl t
  obtain ⟨m, -, hrounds'⟩ := rounds_settled hl t'
  obtain ⟨s, hs, htwins⟩ := (h.beginning hdirty).rounds hl hrounds
  -- The rounds of the second flush are those that the first one leads to
  rw [hunsent] at hs
  obtain rfl : s = settled l t' := hs.unique hrounds'
  rw [flush_eq_finish, flush_eq_finish]
  refine ⟨?_, ?_, htwins.unsent⟩
  · -- The result is made of the failures and the delta, which are the same
    simp only [FlushState.finish, htwins.failures, htwins.delta]
  · exact ⟨htwins.tree.left.marks _ _, htwins.tree.right.marks _ _, htwins.tree.stored,
      htwins.tree.synced⟩

/-- A flush depends on what was written, not on how: two sequences of calls, failing ones included,
that end with the same stored values and have assigned the same fields are followed by the same
flush. -/
theorem Reachable.flush_eq_of_same_writes {root : Schema} (hroot : root.Built)
    (hl : Layout.compile root = .ok l) (ht : Reachable l t) {as bs : List Access}
    (hstored : ∀ k, (Access.afterAll l as t).stored? k = (Access.afterAll l bs t).stored? k)
    (hassigned : ∀ k, k ∈ Access.assignedAll l as t ↔ k ∈ Access.assignedAll l bs t) :
    (Tree.flush l (Access.afterAll l as t)).1 = (Tree.flush l (Access.afterAll l bs t)).1 ∧
      (∀ k, (Tree.flush l (Access.afterAll l as t)).2.synced? k =
        (Tree.flush l (Access.afterAll l bs t)).2.synced? k) ∧
      (Tree.flush l (Access.afterAll l as t)).2.unsent =
        (Tree.flush l (Access.afterAll l bs t)).2.unsent := by
  have hsound := Layout.compile_sound hroot hl
  have hcoherent := ht.coherent hsound
  -- Neither sequence changes what the client holds or what is to be tried again
  have has := accessed_afterAll hsound hcoherent as
  have hbs := accessed_afterAll hsound hcoherent bs
  have halike : Alike l (Access.afterAll l as t) (Access.afterAll l bs t) :=
    ⟨has.coherent, hbs.coherent, hstored, fun k => (has.synced k).trans (hbs.synced k).symm⟩
  -- The marks are those of the fields that were assigned, in whatever order
  have hdirty : ∀ k, k ∈ (Access.afterAll l as t).dirty ↔ k ∈ (Access.afterAll l bs t).dirty := by
    intro k
    rw [has.mem_dirty, hbs.mem_dirty, hassigned]
  have hunsent := has.unsent.trans hbs.unsent.symm
  obtain ⟨hresult, hafter, hretry⟩ := halike.flush hsound hdirty hunsent
  exact ⟨hresult, hafter.synced, hretry⟩

/-- Sets the number to one unequal to itself, and the divisor to zero. -/
def Access.directly : List Access := [.set ⟨"app", "x"⟩ .nan, .set ⟨"app", "y"⟩ (.int 0)]

/-- Ends with the same values, after readings, a value that is overwritten and one that is
refused. -/
def Access.byDetours : List Access :=
  [.set ⟨"app", "y"⟩ (.int 5), .get ⟨"app", "c"⟩, .modifyField ⟨"app", "y"⟩ fun _ => .int 0,
    .set ⟨"app", "x"⟩ (.str "one"), .get ⟨"app", "b"⟩, .set ⟨"app", "x"⟩ .nan]

/-- The flush that fails by a division by zero is the same after both. -/
theorem flush_eq_of_same_writes_quotient :
    (Tree.flush Layout.quotient
        (Access.afterAll Layout.quotient Access.directly startedQuotient)).1 =
      (Tree.flush Layout.quotient
        (Access.afterAll Layout.quotient Access.byDetours startedQuotient)).1 := by
  have hstored : ∀ k,
      (Access.afterAll Layout.quotient Access.directly startedQuotient).stored? k =
        (Access.afterAll Layout.quotient Access.byDetours startedQuotient).stored? k := by
    intro k
    -- Both ways end with the same two values stored
    have hdirectly : (Access.afterAll Layout.quotient Access.directly startedQuotient).values =
        [(⟨"app", "x"⟩, .nan), (⟨"app", "y"⟩, .int 0)] := rfl
    have hdetours : (Access.afterAll Layout.quotient Access.byDetours startedQuotient).values =
        [(⟨"app", "x"⟩, .nan), (⟨"app", "y"⟩, .int 0)] := rfl
    rw [stored?, stored?, hdirectly, hdetours]
  have hdirectly : Access.assignedAll Layout.quotient Access.directly startedQuotient =
      [⟨"app", "x"⟩, ⟨"app", "y"⟩] := by
    decide +kernel
  have hdetours : Access.assignedAll Layout.quotient Access.byDetours startedQuotient =
      [⟨"app", "y"⟩, ⟨"app", "y"⟩, ⟨"app", "x"⟩] := by
    decide +kernel
  refine (reachable_startedQuotient.flush_eq_of_same_writes Schema.built_quotient
    Layout.compile_quotient hstored fun k => ?_).1
  rw [hdirectly, hdetours]
  -- One way has assigned a field twice, which leaves the same set
  grind

end Tree

end ReactiveState
