import ReactiveState.Proofs.Tree.Refresh

/-!
# The rounds of a flush

`Rounds l n retry s s'` is the loop of a flush without its bound: `n` rounds lead from `s` to `s'`,
where nothing is left to refresh.  A round only takes up fields that come later in the order than
some field of the round before, so the rounds of a flush come to an end before its bound does
(`rounds_settled`), whatever the values are and however often a field is refreshed.

What goes wrong on the way is `Recorded`: the failures of a flush are those of the fields it leaves
to be tried again, and these are fields that fail from scratch.
-/

namespace ReactiveState

namespace Tree

variable {l : Layout} {t t' : Tree} {k : FieldKey} {s s' : FlushState}
  {retry ks : List FieldKey} {n : Nat}

/-- The state in which a flush begins. -/
def beginning (l : Layout) (t : Tree) : FlushState :=
  { tree := t, delta := dirtyDelta l t, failures := [], unsent := [], changed := t.dirty }

/-- The rounds of a flush, as many as it takes until nothing is left to refresh. -/
inductive Rounds (l : Layout) : Nat → List FieldKey → FlushState → FlushState → Prop where
  | done {retry : List FieldKey} {s : FlushState} (h : stale l s.changed retry = []) :
    Rounds l 0 retry s s
  | round {n : Nat} {retry : List FieldKey} {s s' : FlushState}
    (h : stale l s.changed retry ≠ [])
    (hrest : Rounds l n []
      ((stale l s.changed retry).foldl (refreshInto l) { s with changed := [] }) s') :
    Rounds l (n + 1) retry s s'

/-! ### One round after another -/

/-- A computed field is due if it is to be tried again or reads what has changed. -/
theorem mem_stale (hl : l.Sound) {changed : List FieldKey} : k ∈ stale l changed retry ↔
    l.isComputed k = true ∧ (k ∈ retry ∨ ∃ d ∈ changed, l.Reads k d) := by
  simp only [stale, List.mem_filter, hl.mem_order, Bool.or_eq_true, decide_eq_true_eq,
    List.mem_flatMap, hl.mem_dependents]
  exact and_congr_right fun _ => or_comm

/-- Only refreshed fields count as changed. -/
theorem changed_foldl_refreshInto (ks : List FieldKey) (s : FlushState) :
    ∀ d ∈ (ks.foldl (refreshInto l) s).changed, d ∈ s.changed ∨ d ∈ ks := by
  induction ks generalizing s with
  | nil => exact fun d hd => .inl hd
  | cons k ks ih =>
    intro d hd
    rcases ih _ d hd with hd | hd
    · -- A refresh adds the field itself at most
      have hsub : d ∈ s.changed ∨ d = k := by
        unfold refreshInto at hd
        split at hd
        · simpa using hd
        · exact .inl hd
        · exact .inl hd
      exact hsub.imp id fun hdk => by rw [hdk]; exact List.mem_cons_self
    · exact .inr (List.mem_cons_of_mem _ hd)

/-- A field that is due after a round reads one that the round refreshed, and so comes later in the
order. -/
theorem exists_idxOf_lt_of_mem_stale (hl : l.Sound)
    (hk : k ∈ stale l ((stale l s.changed retry).foldl (refreshInto l)
      { s with changed := [] }).changed []) :
    ∃ d ∈ stale l s.changed retry, l.order.idxOf d < l.order.idxOf k := by
  obtain ⟨_, hnone | ⟨d, hd, hreads⟩⟩ := (mem_stale hl).1 hk
  · cases hnone
  · have hmem : d ∈ stale l s.changed retry :=
      (changed_foldl_refreshInto _ _ d hd).resolve_left (by simp)
    exact ⟨d, hmem, hl.idxOf_lt k d hreads ((mem_stale hl).1 hmem).1⟩

/-- A flush whose rounds are enough to go through the rest of the order never meets its bound. -/
theorem rounds_settle (hl : l.Sound) {rounds : Nat}
    (hbound : ∀ k ∈ stale l s.changed retry, l.computedCount ≤ rounds + l.order.idxOf k) :
    ∃ n ≤ rounds, Rounds l n retry s (settle l rounds retry s) := by
  induction rounds generalizing retry s with
  | zero =>
    -- A field that was due now would come after the end of the order
    have hnil : stale l s.changed retry = [] := by
      refine List.eq_nil_iff_forall_not_mem.2 fun k hk => ?_
      have hle := hbound k hk
      have hlt := List.idxOf_lt_length_of_mem ((hl.mem_order k).2 ((mem_stale hl).1 hk).1)
      rw [Layout.computedCount] at hle
      omega
    rw [settle_of_stale_eq_nil hnil]
    exact ⟨0, Nat.le_refl 0, .done hnil⟩
  | succ rounds ih =>
    by_cases hnil : stale l s.changed retry = []
    · rw [settle_of_stale_eq_nil hnil]
      exact ⟨0, Nat.zero_le _, .done hnil⟩
    · rw [settle_succ hnil]
      -- What is due next comes after something that is due now, so one round less is enough
      obtain ⟨n, hn, hrest⟩ := ih fun k hk => by
        obtain ⟨d, hd, hlt⟩ := exists_idxOf_lt_of_mem_stale hl hk
        have hle := hbound d hd
        omega
      exact ⟨n + 1, Nat.succ_le_succ hn, .round hnil hrest⟩

/-- A flush goes through at most as many rounds as there are computed fields, and ends because
nothing is left. -/
theorem rounds_settled (hl : l.Sound) (t : Tree) :
    ∃ n ≤ l.computedCount, Rounds l n t.unsent (beginning l t) (settled l t) :=
  rounds_settle hl fun _ _ => Nat.le_add_right _ _

/-- What every refresh of a computed field keeps, the rounds keep. -/
theorem Rounds.keeps {I : FlushState → Prop} (hl : l.Sound) (h : Rounds l n retry s s')
    (hstart : ∀ s, I s → I { s with changed := [] })
    (hrefresh : ∀ s k, l.isComputed k = true → I s → I (refreshInto l s k)) (hs : I s) : I s' := by
  induction h with
  | done => exact hs
  | @round _ retry s s' _ _ ih =>
    -- Within a round the invariant goes from one refresh to the next
    have hfold : ∀ ks : List FieldKey, (∀ k ∈ ks, l.isComputed k = true) → ∀ s, I s →
        I (ks.foldl (refreshInto l) s) := by
      intro ks
      induction ks with
      | nil => exact fun _ _ hs => hs
      | cons k ks ihks =>
        intro hks s hs
        obtain ⟨hk, hks⟩ := List.forall_mem_cons.1 hks
        exact ihks hks _ (hrefresh s k hk hs)
    exact ih (hfold _ (fun k hk => ((mem_stale hl).1 hk).1) _ (hstart s hs))

/-- There is one way through the rounds. -/
theorem Rounds.unique (h : Rounds l n retry s s') {m : Nat} {s'' : FlushState}
    (h' : Rounds l m retry s s'') : s' = s'' := by
  induction h generalizing m with
  | done hnil =>
    -- Whether something is due decides how both go on
    cases h' with
    | done _ => rfl
    | round hne _ => exact absurd hnil hne
  | round hne _ ih =>
    cases h' with
    | done hnil => exact absurd hnil hne
    | round _ hrest => exact ih hrest

/-! ### One refresh -/

/-- The state after a field was refreshed, by what there was to tell. -/
def FlushState.note (s : FlushState) (k : FieldKey) (t' : Tree) :
    Except EvalError (Option Value) → FlushState
  | .error e =>
    { s with
      tree := t'
      failures := s.failures ++ [.eval k e]
      unsent := KeySet.insert k s.unsent }
  | .ok none => { s with tree := t' }
  | .ok (some v) =>
    { s with
      tree := t'
      delta := s.delta.insert k.path k.field v
      changed := s.changed ++ [k] }

/-- A refresh of a computed field, by what there is to tell of it: its tree is refreshed there, and
only its own sent value may be another one. -/
theorem refreshInto_run (hl : l.Sound) (hs : s.tree.Coherent l) (hk : l.isComputed k = true) :
    ∃ t', refreshInto l s k = s.note k t' (news l s.tree k) ∧ Refreshed l s.tree t' ∧
      ∀ m, t'.synced? m = if m = k then (news l s.tree k).toOption.join.or (s.tree.synced? k)
        else s.tree.synced? m := by
  obtain ⟨t', hrun, ht', hsynced⟩ := refresh_run hl hs hk
  refine ⟨t', ?_, ht', hsynced⟩
  rw [refreshInto, hrun]
  rcases news l s.tree k with _ | _ | _ <;> rfl

/-! ### What goes wrong -/

/-- The failures so far are those of the fields that are left to be tried again. -/
structure Recorded (l : Layout) (t : Tree) (s : FlushState) : Prop where
  refreshed : Refreshed l t s.tree
  unsent : ∀ k ∈ s.unsent, l.isComputed k = true ∧ ∃ e, t.scratch l k = .error e
  sorted : KeySet.Sorted s.unsent
  failures : ∀ e ∈ s.failures, ∃ k source,
    e = .eval k source ∧ k ∈ s.unsent ∧ t.scratch l k = .error source
  failures_ne_nil : s.unsent ≠ [] → s.failures ≠ []

/-- At the beginning nothing is recorded. -/
theorem recorded_beginning (ht : t.Coherent l) : Recorded l t (beginning l t) where
  refreshed := .refl ht
  unsent := nofun
  sorted := List.Pairwise.nil
  failures := nofun
  failures_ne_nil h := absurd rfl h

/-- A refresh records what it does. -/
theorem Recorded.refreshInto (h : Recorded l t s) (hl : l.Sound) (hk : l.isComputed k = true) :
    Recorded l t (refreshInto l s k) := by
  obtain ⟨t', hrun, ht', -⟩ := refreshInto_run hl h.refreshed.coherent hk
  have hrefreshed := h.refreshed.trans ht'
  -- What there is to tell is known from the tree that the flush began with
  rw [hrun, news, h.refreshed.scratch_eq]
  cases hv : t.scratch l k with
  | error e =>
    refine ⟨hrefreshed, fun m hm => ?_, KeySet.sorted_insert h.sorted, fun f hf => ?_,
      fun _ => List.append_ne_nil_of_right_ne_nil _ (List.cons_ne_nil _ _)⟩
    · rcases KeySet.mem_insert.1 hm with rfl | hm
      · exact ⟨hk, e, hv⟩
      · exact h.unsent m hm
    · rcases List.mem_append.1 hf with hf | hf
      · obtain ⟨m, source, hf, hm, hscratch⟩ := h.failures f hf
        exact ⟨m, source, hf, KeySet.mem_insert.2 (.inr hm), hscratch⟩
      · exact ⟨k, e, List.mem_singleton.1 hf, KeySet.mem_insert.2 (.inl rfl), hv⟩
  | ok v =>
    -- A field that has a value leaves the record alone, told or not
    simp only [Except.map]
    split <;> exact ⟨hrefreshed, h.unsent, h.sorted, h.failures, h.failures_ne_nil⟩

/-- A flush records every failure. -/
theorem recorded_settled (hl : l.Sound) (ht : t.Coherent l) : Recorded l t (settled l t) := by
  obtain ⟨n, -, hrounds⟩ := rounds_settled hl t
  exact hrounds.keeps hl (fun s h => ⟨h.refreshed, h.unsent, h.sorted, h.failures,
    h.failures_ne_nil⟩) (fun s k hk h => h.refreshInto hl hk) (recorded_beginning ht)

/-- There is a failure exactly if something is left to be tried again. -/
theorem Recorded.failures_eq_nil_iff (h : Recorded l t s) : s.failures = [] ↔ s.unsent = [] := by
  refine ⟨fun hf => by_contra fun hu => h.failures_ne_nil hu hf, fun hu => ?_⟩
  refine List.eq_nil_iff_forall_not_mem.2 fun e he => ?_
  obtain ⟨k, -, -, hk, -⟩ := h.failures e he
  rw [hu] at hk
  cases hk

/-! ### The end -/

/-- What a flush gives and leaves when its rounds have ended in this state. -/
def FlushState.finish (s : FlushState) : Except FlushError Delta × Tree :=
  (match s.failures with
    | [] => .ok s.delta
    | e :: _ => .error ⟨s.delta, e⟩,
    { s.tree with dirty := [], unsent := s.unsent })

/-- A flush is the rounds, and then its result. -/
theorem flush_eq_finish (l : Layout) (t : Tree) : flush l t = (settled l t).finish := by
  change (match (settled l t).failures with
    | [] => _
    | e :: _ => _) = _
  rw [FlushState.finish]
  cases (settled l t).failures <;> rfl

/-- The error of a flush is that of a computed field, which is left to be tried again. -/
theorem eval_of_flush_eq_error (hl : l.Sound) (ht : t.Coherent l) {e : FlushError}
    (h : (flush l t).1 = .error e) :
    ∃ k source, e.error = .eval k source ∧ k ∈ (flush l t).2.unsent := by
  rw [flush_eq_finish] at h ⊢
  simp only [FlushState.finish] at h ⊢
  -- Without a failure there is no error; with one, the first of them is given
  split at h
  · cases h
  · next e' es hfailures =>
    obtain rfl := Except.error.inj h
    obtain ⟨k, source, heval, hk, -⟩ :=
      (recorded_settled hl ht).failures e' (by rw [hfailures]; exact List.mem_cons_self)
    exact ⟨k, source, heval, hk⟩

/-- The rounds of a flush always come to an end: after at most as many as there are computed fields
nothing is left to refresh, and what the flush gives is what these rounds have led to.  So no flush
ever reports that fields depend on each other in a circle. -/
theorem Reachable.flush_settles {root : Schema} (hroot : root.Built)
    (hl : Layout.compile root = .ok l) (ht : Reachable l t) :
    (∃ n ≤ l.computedCount, ∃ s, Rounds l n t.unsent (beginning l t) s ∧
        Tree.flush l t = s.finish) ∧
      ∀ delta cycle, (Tree.flush l t).1 ≠ .error ⟨delta, .cyclicComputedDependency cycle⟩ := by
  have hsound := Layout.compile_sound hroot hl
  obtain ⟨n, hn, hrounds⟩ := rounds_settled hsound t
  refine ⟨⟨n, hn, settled l t, hrounds, flush_eq_finish l t⟩, fun delta cycle h => ?_⟩
  -- The error of a flush comes from the evaluation of some field
  obtain ⟨k, source, heval, -⟩ := eval_of_flush_eq_error hsound (ht.coherent hsound) h
  cases heval

end Tree

/-! ### A sample -/

namespace Schema

/-- The sum of a number and one, ten divided by another number, and the sum of both. -/
def quotient : Schema :=
  .mk "app" [⟨"x", .float, .float 0.0, false, none⟩, ⟨"y", .int, .int 1, false, none⟩]
    [("a", .binary .add (.field (.relative "x") .float) (.literal (.int 1)) .float),
      ("b", .binary .floorDiv (.literal (.int 10)) (.field (.relative "y") .int) .int),
      ("c", .binary .add (.field (.relative "b") .int) (.field (.relative "a") .float) .float)]
    [] [] []

/-- The schema can be built. -/
theorem built_quotient : quotient.Built := by
  have hstart : Built (.mk "app" [] [] [] [] []) := .start (show start "app" = _ from rfl)
  have hx := hstart.declare (show declare _ ⟨"x", .float, .float 0.0, false, none⟩ = _ from rfl)
  have hy := hx.declare (show declare _ ⟨"y", .int, .int 1, false, none⟩ = _ from rfl)
  have ha := hy.declareComputed (show declareComputed _ "a"
    (.binary .add (.field (.relative "x") .float) (.literal (.int 1)) .float) = _ from rfl)
  have hb := ha.declareComputed (show declareComputed _ "b"
    (.binary .floorDiv (.literal (.int 10)) (.field (.relative "y") .int) .int) = _ from rfl)
  exact hb.declareComputed (show declareComputed _ "c"
    (.binary .add (.field (.relative "b") .int) (.field (.relative "a") .float) .float) = _
      from rfl)

end Schema

/-- The layout of the sums and the quotient. -/
def Layout.quotient : Layout := (Layout.compile Schema.quotient).toOption.get rfl

/-- It compiles to the layout. -/
theorem Layout.compile_quotient : Layout.compile Schema.quotient = .ok Layout.quotient := rfl

/-- Not a number, which is unequal to itself. -/
def Value.nan : Value := .float (0.0 / 0.0)

namespace Tree

/-- The started tree of the sample. -/
def startedQuotient : Tree := (Tree.start Layout.quotient).toOption.get rfl

/-- The tree that was started can be reached. -/
theorem reachable_startedQuotient : Reachable Layout.quotient startedQuotient := .start rfl

/-- A number was set that is unequal to itself, and a divisor of zero. -/
def undivided : Tree :=
  ((Tree.set Layout.quotient ⟨"app", "y"⟩ (.int 0)).run
    ((Tree.set Layout.quotient ⟨"app", "x"⟩ .nan).run startedQuotient).2).2

/-- So can the tree after the divisor was set to zero. -/
theorem reachable_undivided : Reachable Layout.quotient undivided :=
  .set (.set reachable_startedQuotient _ _) _ _

/-- The flush after a failed one ends, with the number unequal to itself assigned again and two
fields to be tried again. -/
theorem flush_settles_undivided :
    let t := ((Tree.set Layout.quotient ⟨"app", "x"⟩ .nan).run
      (Tree.flush Layout.quotient undivided).2).2
    t.unsent = [⟨"app", "b"⟩, ⟨"app", "c"⟩] ∧
      ∃ n ≤ Layout.quotient.computedCount, ∃ s,
        Rounds Layout.quotient n t.unsent (beginning Layout.quotient t) s ∧
          Tree.flush Layout.quotient t = s.finish := by
  have ht : Reachable Layout.quotient ((Tree.set Layout.quotient ⟨"app", "x"⟩ .nan).run
      (Tree.flush Layout.quotient undivided).2).2 := .set (.flush reachable_undivided) _ _
  exact ⟨by decide +kernel, (ht.flush_settles Schema.built_quotient Layout.compile_quotient).1⟩

end Tree

end ReactiveState
