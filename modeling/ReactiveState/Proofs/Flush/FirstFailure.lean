import ReactiveState.Proofs.Flush.Rounds

/-!
# The failure that a flush reports

A flush reports the first failure that it met.  It meets failures round by round, and within a
round in the order of the layout; so the field that it names comes first among the fields that
failed in the same round (`Reachable.named_first_in_round`), and first among all of them if each was
due in the first round.

A field that reads an assigned field directly may also read one that is due in a later round only,
and fail for that reason.  Then it is named, and the field that it waits for, which comes before it
in the order, is not (`flush_names_total`).
-/

namespace ReactiveState

namespace Tree

variable {l : Layout} {t : Tree} {k f g : FieldKey} {s s' : FlushState} {retry ks : List FieldKey}
  {n m : Nat}

/-! ### The rounds by number -/

/-- The fields to try again and the state before a round of a flush; the first round has the number
zero. -/
def beforeRound (l : Layout) (t : Tree) : Nat → List FieldKey × FlushState
  | 0 => (t.unsent, beginning l t)
  | n + 1 =>
    let (retry, s) := beforeRound l t n
    ([], (stale l s.changed retry).foldl (refreshInto l) { s with changed := [] })

/-- The fields that a round of a flush takes up, each after those it reads. -/
def due (l : Layout) (t : Tree) (n : Nat) : List FieldKey :=
  stale l (beforeRound l t n).2.changed (beforeRound l t n).1

/-- The fields that the rounds before this one take up, in the order in which they do. -/
def dueBefore (l : Layout) (t : Tree) (n : Nat) : List FieldKey :=
  (List.range n).flatMap (due l t)

/-- The failure of a field, if it has no value from scratch. -/
def failure? (l : Layout) (t : Tree) (k : FieldKey) : Option StateError :=
  match t.scratch l k with
  | .ok _ => none
  | .error e => some (.eval k e)

/-- A round refreshes what is due, after forgetting what the round before it has changed. -/
theorem beforeRound_succ (l : Layout) (t : Tree) (n : Nat) : (beforeRound l t (n + 1)).2 =
    (due l t n).foldl (refreshInto l) { (beforeRound l t n).2 with changed := [] } := rfl

/-- What has been due before a round, and what is due in it. -/
theorem dueBefore_succ (l : Layout) (t : Tree) (n : Nat) :
    dueBefore l t (n + 1) = dueBefore l t n ++ due l t n := by
  simp [dueBefore, List.range_succ]

/-- A field was due before a round if it was due in one of the earlier ones. -/
theorem mem_dueBefore : k ∈ dueBefore l t n ↔ ∃ m < n, k ∈ due l t m := by
  simp [dueBefore]

/-- Only computed fields are ever due. -/
theorem isComputed_of_mem_due (hl : l.Sound) (hk : k ∈ due l t n) : l.isComputed k = true :=
  ((mem_stale hl).1 hk).1

/-- In the first round a field is due that had failed before, or that reads an assigned one. -/
theorem mem_due_zero (hl : l.Sound) : k ∈ due l t 0 ↔
    l.isComputed k = true ∧ (k ∈ t.unsent ∨ ∃ d ∈ t.dirty, l.Reads k d) :=
  mem_stale hl

/-- A round takes up its fields in the order of the layout. -/
theorem due_pairwise (hl : l.Sound) (n : Nat) :
    (due l t n).Pairwise fun k k' => l.order.idxOf k < l.order.idxOf k' := by
  have horder : l.order.Pairwise fun k k' => l.order.idxOf k < l.order.idxOf k' := by
    rw [List.pairwise_iff_getElem]
    intro i j hi hj hij
    rwa [hl.order_nodup.idxOf_getElem, hl.order_nodup.idxOf_getElem]
  exact horder.filter _

/-- The rounds of a flush, from any of them on, lead through the numbered ones. -/
theorem Rounds.eq_beforeRound (h : Rounds l n retry s s')
    (hs : beforeRound l t m = (retry, s)) : s' = (beforeRound l t (m + n)).2 := by
  induction h generalizing m with
  | done => rw [Nat.add_zero, hs]
  | @round n retry s s' _ _ ih =>
    have hnext : beforeRound l t (m + 1) = ([], (stale l s.changed retry).foldl (refreshInto l)
        { s with changed := [] }) := by
      rw [beforeRound, hs]
    rw [ih hnext, Nat.add_assoc, Nat.add_comm 1 n]

/-- The flush comes to rest after some number of rounds. -/
theorem exists_settled_eq (hl : l.Sound) (t : Tree) : ∃ n, settled l t = (beforeRound l t n).2 := by
  obtain ⟨n, -, hrounds⟩ := rounds_settled hl t
  exact ⟨n, by rw [hrounds.eq_beforeRound (m := 0) rfl, Nat.zero_add]⟩

/-! ### The failures by number -/

/-- The fields refreshed so far, in this order, are the ones that were visited; each one that fails
is recorded. -/
structure Visited (l : Layout) (t : Tree) (ks : List FieldKey) (s : FlushState) : Prop where
  refreshed : Refreshed l t s.tree
  failures : s.failures = ks.filterMap (failure? l t)
  mem_unsent : ∀ k, k ∈ s.unsent ↔ k ∈ ks ∧ (failure? l t k).isSome = true

/-- Before the first round nothing was visited. -/
theorem visited_beginning (ht : t.Coherent l) : Visited l t [] (beginning l t) where
  refreshed := .refl ht
  failures := rfl
  mem_unsent k := by simp [beginning]

/-- The start of a round visits nothing. -/
theorem Visited.startRound (h : Visited l t ks s) : Visited l t ks { s with changed := [] } :=
  ⟨h.refreshed, h.failures, h.mem_unsent⟩

/-- Refreshing a field notes its failure, if it has one, behind the earlier ones. -/
theorem Visited.refreshInto (h : Visited l t ks s) (hl : l.Sound) (hk : l.isComputed k = true) :
    Visited l t (ks ++ [k]) (refreshInto l s k) := by
  -- The step of the flush, with its two outcomes
  obtain ⟨t', hrun, ht', -⟩ := refreshInto_run hl h.refreshed.coherent hk
  have hrefreshed := h.refreshed.trans ht'
  -- Whether the field fails is known from the tree that the flush began with
  rw [hrun, news, h.refreshed.scratch_eq]
  cases hv : t.scratch l k with
  | error e =>
    have hfailure : failure? l t k = some (.eval k e) := by rw [failure?, hv]
    refine ⟨hrefreshed, ?_, fun m => ?_⟩
    · rw [List.filterMap_append, ← h.failures, List.filterMap_cons_some hfailure]
      rfl
    · refine KeySet.mem_insert.trans ?_
      rw [h.mem_unsent, List.mem_append, List.mem_singleton]
      constructor
      · rintro (rfl | ⟨hm, hfails⟩)
        · exact ⟨.inr rfl, by rw [hfailure]; rfl⟩
        · exact ⟨.inl hm, hfails⟩
      · rintro ⟨hm | rfl, hfails⟩
        · exact .inr ⟨hm, hfails⟩
        · exact .inl rfl
  | ok v =>
    have hfailure : failure? l t k = none := by rw [failure?, hv]
    -- Neither the failures nor the fields to be tried again have changed
    have hfailures : s.failures = (ks ++ [k]).filterMap (failure? l t) := by
      rw [List.filterMap_append, ← h.failures, List.filterMap_cons_none hfailure]
      exact (List.append_nil _).symm
    have hunsent : ∀ m, m ∈ s.unsent ↔ m ∈ ks ++ [k] ∧ (failure? l t m).isSome = true := by
      intro m
      rw [h.mem_unsent, List.mem_append, List.mem_singleton]
      constructor
      · rintro ⟨hm, hfails⟩
        exact ⟨.inl hm, hfails⟩
      · rintro ⟨hm | rfl, hfails⟩
        · exact ⟨hm, hfails⟩
        · rw [hfailure] at hfails
          cases hfails
    -- A field that has a value leaves the record alone, told or not
    simp only [Except.map]
    by_cases hsame : (s.tree.synced? k).any (· == v) = true
    · rw [if_pos hsame]
      exact ⟨hrefreshed, hfailures, hunsent⟩
    · rw [if_neg hsame]
      exact ⟨hrefreshed, hfailures, hunsent⟩

/-- A round notes the failures of its fields in their order. -/
theorem Visited.foldl (h : Visited l t ks s) (hl : l.Sound) {ks' : List FieldKey}
    (hks' : ∀ k ∈ ks', l.isComputed k = true) :
    Visited l t (ks ++ ks') (ks'.foldl (Tree.refreshInto l) s) := by
  induction ks' generalizing ks s with
  | nil => rwa [List.append_nil]
  | cons k ks' ih =>
    obtain ⟨hk, hks'⟩ := List.forall_mem_cons.1 hks'
    rw [List.append_cons]
    exact ih (h.refreshInto hl hk) hks'

/-- The failures before a round are those of the fields that were due, round by round. -/
theorem visited_beforeRound (hl : l.Sound) (ht : t.Coherent l) (n : Nat) :
    Visited l t (dueBefore l t n) (beforeRound l t n).2 := by
  induction n with
  | zero => exact visited_beginning ht
  | succ n ih =>
    rw [dueBefore_succ, beforeRound_succ]
    exact ih.startRound.foldl hl fun k hk => isComputed_of_mem_due hl hk

/-! ### The first failure -/

/-- The first round in which a field fails is this one, and the field is the first one in the order
of the layout that fails in it. -/
structure FailsFirst (l : Layout) (t : Tree) (n : Nat) (f : FieldKey) : Prop where
  due : f ∈ due l t n
  unsent : f ∈ (flush l t).2.unsent
  /-- Every field that failed was due in this round or later, and in none before. -/
  exists_due : ∀ g ∈ (flush l t).2.unsent, ∃ m ≥ n, g ∈ Tree.due l t m
  notMem_due : ∀ g ∈ (flush l t).2.unsent, ∀ m < n, g ∉ Tree.due l t m
  idxOf_le : ∀ g ∈ (flush l t).2.unsent, g ∈ Tree.due l t n → l.order.idxOf f ≤ l.order.idxOf g

/-- A field fails with the error of its evaluation from scratch. -/
theorem failure?_eq_some {e : StateError} (h : failure? l t k = some e) :
    ∃ source, e = .eval k source ∧ t.scratch l k = .error source := by
  rw [failure?] at h
  cases hv : t.scratch l k with
  | ok v => rw [hv] at h; cases h
  | error source =>
    rw [hv] at h
    exact ⟨source, (Option.some.inj h).symm, rfl⟩

/-- The first of the failures of a list in order. -/
theorem exists_first_of_filterMap_eq_cons (hks : ks.Pairwise fun k k' => l.order.idxOf k <
    l.order.idxOf k') {e : StateError} {es : List StateError}
    (h : ks.filterMap (failure? l t) = e :: es) :
    ∃ f ∈ ks, failure? l t f = some e ∧
      ∀ g ∈ ks, (failure? l t g).isSome = true → l.order.idxOf f ≤ l.order.idxOf g := by
  -- The list is cut at the field whose failure comes first
  obtain ⟨ks₁, f, ks₂, rfl, hnone, hf, -⟩ := List.filterMap_eq_cons_iff.1 h
  refine ⟨f, by simp, hf, fun g hg hfails => ?_⟩
  rcases List.mem_append.1 hg with hg | hg
  · -- Nothing before it fails
    rw [hnone g hg] at hfails
    cases hfails
  · rcases List.mem_cons.1 hg with rfl | hg
    · exact Nat.le_refl _
    · -- What stands behind it comes later in the order
      obtain ⟨-, hks₂, -⟩ := List.pairwise_append.1 hks
      exact Nat.le_of_lt (List.rel_of_pairwise_cons hks₂ hg)

/-- The first of the failures of all rounds is the first one of the first round that has any, by
induction on the number of rounds. -/
theorem exists_first_round {e : StateError} {es : List StateError}
    (h : (dueBefore l t n).filterMap (failure? l t) = e :: es) :
    ∃ m < n, (dueBefore l t m).filterMap (failure? l t) = [] ∧
      ∃ es', (due l t m).filterMap (failure? l t) = e :: es' := by
  induction n generalizing es with
  | zero => cases h
  | succ n ih =>
    rw [dueBefore_succ, List.filterMap_append] at h
    -- Either an earlier round has failed, or all failures are of the last one
    cases hbefore : (dueBefore l t n).filterMap (failure? l t) with
    | nil =>
      rw [hbefore] at h
      exact ⟨n, Nat.lt_succ_self n, hbefore, es, h⟩
    | cons e' es' =>
      rw [hbefore] at h
      obtain ⟨rfl, -⟩ := List.cons.inj h
      obtain ⟨m, hm, hfirst⟩ := ih hbefore
      exact ⟨m, Nat.lt_succ_of_lt hm, hfirst⟩

/-- A flush with failures names the first of them. -/
theorem flush_eq_error_of_failures {e : StateError} {es : List StateError}
    (h : (settled l t).failures = e :: es) : (flush l t).1 = .error ⟨(settled l t).delta, e⟩ := by
  rw [flush_eq_finish, FlushState.finish, h]

/-- The failure that a flush reports is that of the first field to fail in the first round in which
one fails. -/
theorem failsFirst_of_flush_eq_error (hl : l.Sound) (ht : t.Coherent l) {delta : Delta}
    {e : StateError} (h : (flush l t).1 = .error ⟨delta, e⟩) :
    ∃ n f source, e = .eval f source ∧ t.scratch l f = .error source ∧ FailsFirst l t n f := by
  -- The flush has visited what was due in its rounds, one round after another
  obtain ⟨N, hN⟩ := exists_settled_eq hl t
  have hvisited := visited_beforeRound hl ht N
  rw [← hN] at hvisited
  have hunsent : ∀ g, g ∈ (flush l t).2.unsent ↔
      (∃ m < N, g ∈ due l t m) ∧ (failure? l t g).isSome = true := fun g => by
    rw [flush_snd, hvisited.mem_unsent, mem_dueBefore]
  -- The report is the first of the recorded failures
  obtain ⟨es, hes⟩ : ∃ es, (dueBefore l t N).filterMap (failure? l t) = e :: es := by
    rw [flush_eq_finish, FlushState.finish, hvisited.failures] at h
    cases hfailures : (dueBefore l t N).filterMap (failure? l t) with
    | nil => rw [hfailures] at h; cases h
    | cons e' es =>
      rw [hfailures] at h
      cases h
      exact ⟨es, rfl⟩
  -- It comes from the first round with a failure, and is the first there
  obtain ⟨n, hn, hbefore, es', hround⟩ := exists_first_round hes
  obtain ⟨f, hf, hfailure, hfirst⟩ := exists_first_of_filterMap_eq_cons (due_pairwise hl n) hround
  obtain ⟨source, rfl, hscratch⟩ := failure?_eq_some hfailure
  -- A field that is left to be tried again has failed, and no field did in an earlier round
  have hnot : ∀ g ∈ (flush l t).2.unsent, ∀ m < n, g ∉ due l t m := by
    intro g hg m hm hdue
    have hfails := ((hunsent g).1 hg).2
    rw [List.filterMap_eq_nil_iff.1 hbefore g (mem_dueBefore.2 ⟨m, hm, hdue⟩)] at hfails
    cases hfails
  refine ⟨n, f, source, rfl, hscratch, ?_⟩
  exact
    { due := hf
      unsent := (hunsent f).2 ⟨⟨n, hn, hf⟩, by rw [hfailure]; rfl⟩
      exists_due := fun g hg => by
        obtain ⟨⟨m, -, hdue⟩, -⟩ := (hunsent g).1 hg
        exact ⟨m, Nat.le_of_not_lt fun hm => hnot g hg m hm hdue, hdue⟩
      notMem_due := hnot
      idxOf_le := fun g hg hdue => hfirst g hdue ((hunsent g).1 hg).2 }

/-- The field that a failed flush names has the error from scratch, and it comes first in the order
of the layout among the fields that failed in the same round, which is the first round in which one
failed.  If every field that failed reads an assigned field directly or had failed in the last
flush, it comes first among all of them. -/
theorem Reachable.named_first_in_round {root : Schema} (hroot : root.Built)
    (hl : Layout.compile root = .ok l) (ht : Reachable l t) {delta : Delta} {source : EvalError}
    (h : (Tree.flush l t).1 = .error ⟨delta, .eval f source⟩) :
    t.scratch l f = .error source ∧ (∃ n, FailsFirst l t n f) ∧
      ((∀ g ∈ (Tree.flush l t).2.unsent, g ∈ t.unsent ∨ ∃ d ∈ t.dirty, l.Reads g d) →
        ∀ g ∈ (Tree.flush l t).2.unsent, l.order.idxOf f ≤ l.order.idxOf g) := by
  have hsound := Layout.compile_sound hroot hl
  have hcoherent := ht.coherent hsound
  obtain ⟨n, f', source', heq, hscratch, hfirst⟩ := failsFirst_of_flush_eq_error hsound hcoherent h
  obtain ⟨rfl, rfl⟩ := StateError.eval.inj heq
  refine ⟨hscratch, ⟨n, hfirst⟩, fun hdirect g hg => ?_⟩
  -- Each field that failed was due in the first round
  have hzero : ∀ g ∈ (Tree.flush l t).2.unsent, g ∈ due l t 0 := fun g hg =>
    (mem_due_zero hsound).2 ⟨((recorded_settled hsound hcoherent).unsent g
      (by rwa [flush_snd] at hg)).1, hdirect g hg⟩
  cases n with
  | zero => exact hfirst.idxOf_le g hg (hzero g hg)
  -- The named field failed in its round and was due in the first, where nothing has failed yet
  | succ n => exact absurd (hzero f hfirst.unsent) (hfirst.notMem_due f hfirst.unsent 0 n.succ_pos)

/-- What a flush leaves that has failed by a division by zero. -/
def stillUndivided : Tree := (Tree.flush Layout.quotient undivided).2

/-- What has failed is tried again, fails again, and the first of it in the order is named. -/
theorem named_first_in_round_undivided :
    (∃ delta, (Tree.flush Layout.quotient stillUndivided).1 =
        .error ⟨delta, .eval ⟨"app", "b"⟩ .divisionByZero⟩) ∧
      (Tree.flush Layout.quotient stillUndivided).2.unsent = [⟨"app", "b"⟩, ⟨"app", "c"⟩] ∧
      (∃ n, FailsFirst Layout.quotient stillUndivided n ⟨"app", "b"⟩) ∧
      ∀ g ∈ (Tree.flush Layout.quotient stillUndivided).2.unsent,
        Layout.quotient.order.idxOf ⟨"app", "b"⟩ ≤ Layout.quotient.order.idxOf g := by
  have hfailures : (settled Layout.quotient stillUndivided).failures =
      [.eval ⟨"app", "b"⟩ .divisionByZero, .eval ⟨"app", "c"⟩ .divisionByZero] := by
    decide +kernel
  have herror := flush_eq_error_of_failures hfailures
  have hunsent : (Tree.flush Layout.quotient stillUndivided).2.unsent =
      [⟨"app", "b"⟩, ⟨"app", "c"⟩] := by
    decide +kernel
  -- Both had failed before, so both are due in the first round
  have hbefore : stillUndivided.unsent = [⟨"app", "b"⟩, ⟨"app", "c"⟩] := by decide +kernel
  have ht : Reachable Layout.quotient stillUndivided := .flush reachable_undivided
  obtain ⟨-, hfirst, hall⟩ :=
    ht.named_first_in_round Schema.built_quotient Layout.compile_quotient herror
  refine ⟨⟨_, herror⟩, hunsent, hfirst, hall fun g hg => .inl ?_⟩
  rwa [hbefore, ← hunsent]

end Tree

/-! ### A field that waits for a later round -/

namespace Schema

/-- A number less one, ten shared by what is left, and the sum of the number and the share. -/
def leftover : Schema :=
  .mk "app" [⟨"x", .int, .int 2, false, none⟩]
    [("rest", .binary .sub (.field (.relative "x") .int) (.literal (.int 1)) .int),
      ("share", .binary .floorDiv (.literal (.int 10)) (.field (.relative "rest") .int) .int),
      ("total", .binary .add (.field (.relative "x") .int) (.field (.relative "share") .int) .int)]
    [] [] []

/-- The schema can be built. -/
theorem built_leftover : leftover.Built := by
  have hstart : Built (.mk "app" [] [] [] [] []) := .start (show start "app" = _ from rfl)
  have hx := hstart.declare (show declare _ ⟨"x", .int, .int 2, false, none⟩ = _ from rfl)
  have hrest := hx.declareComputed (show declareComputed _ "rest"
    (.binary .sub (.field (.relative "x") .int) (.literal (.int 1)) .int) = _ from rfl)
  have hshare := hrest.declareComputed (show declareComputed _ "share"
    (.binary .floorDiv (.literal (.int 10)) (.field (.relative "rest") .int) .int) = _ from rfl)
  exact hshare.declareComputed (show declareComputed _ "total"
    (.binary .add (.field (.relative "x") .int) (.field (.relative "share") .int) .int) = _
      from rfl)

end Schema

/-- The layout of the shares. -/
def Layout.leftover : Layout := (Layout.compile Schema.leftover).toOption.get rfl

/-- It compiles to the layout. -/
theorem Layout.compile_leftover : Layout.compile Schema.leftover = .ok Layout.leftover := rfl

namespace Tree

/-- After the number was set to one, nothing is left to share by. -/
def nothingLeft : Tree :=
  ((Tree.set Layout.leftover ⟨"app", "x"⟩ (.int 1)).run
    ((Tree.start Layout.leftover).toOption.getD (instantiate Layout.leftover))).2

/-- The flush names the total, which reads the number and so is due in the first round.  The share,
which the total reads and which comes before it in the order, fails as well. -/
theorem flush_names_total :
    Schema.leftover.Built ∧ Layout.compile Schema.leftover = .ok Layout.leftover ∧
      Reachable Layout.leftover nothingLeft ∧
      (∃ delta, (Tree.flush Layout.leftover nothingLeft).1 =
        .error ⟨delta, .eval ⟨"app", "total"⟩ .divisionByZero⟩) ∧
      (Tree.flush Layout.leftover nothingLeft).2.unsent = [⟨"app", "share"⟩, ⟨"app", "total"⟩] ∧
      Layout.leftover.order.idxOf ⟨"app", "share"⟩ <
        Layout.leftover.order.idxOf ⟨"app", "total"⟩ := by
  -- The total fails in the first round, the share in the second
  have hfailures : (settled Layout.leftover nothingLeft).failures =
      [.eval ⟨"app", "total"⟩ .divisionByZero, .eval ⟨"app", "share"⟩ .divisionByZero] := by
    decide +kernel
  exact ⟨Schema.built_leftover, Layout.compile_leftover, .set (.start rfl) _ _,
    ⟨_, flush_eq_error_of_failures hfailures⟩, by decide +kernel, by decide +kernel⟩

end Tree

end ReactiveState
