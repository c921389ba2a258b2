import ReactiveState.Proofs.Flush.History
import ReactiveState.Proofs.Tree.Secrets

/-!
# What the client is told of fields on the server

Two runs that differ in what is assigned to secrets tell the client the same
(`Indistinct.replies_eq`), and no run mentions a field that stays on the server
(`public_of_mem_replies`).

The first is about two runs: flushes and snapshots of indistinct trees give the same
(`Indistinct.flush`, `blind_snapshot`), so a call that is made in both runs keeps the trees
indistinct, and so does a call that concerns a secret, whatever it does in either run.  The second
is about what may be inserted into a delta.
-/

namespace ReactiveState

namespace Tree

variable {l : Layout} {t t' : Tree} {k : FieldKey} {s s' : FlushState} {retry ks : List FieldKey}

/-! ### Snapshots -/

/-- The client may see neither a field that stays on the server nor, all the more, a secret. -/
theorem isBackend_of_mem_clientKeys (hl : l.Sound) (hk : k ∈ l.clientKeys) :
    l.isBackend k = false := by
  unfold Layout.isBackend
  rcases (hl.mem_clientKeys k).1 hk with ⟨decl, hdecl, hvisible⟩ | hcomputed
  · simp only [hdecl, hvisible]
  · simp only [hl.field?_of_isComputed k hcomputed]

/-- A field the client may see is no secret. -/
theorem not_isSecret_of_isBackend (hk : l.isBackend k = false) : ¬ l.IsSecret k := by
  rintro ⟨hbackend, -⟩
  rw [hk] at hbackend
  cases hbackend

/-- Collecting fields that are no secrets is blind. -/
theorem blind_collect (hks : ∀ k ∈ ks, ¬ l.IsSecret k) (delta : Delta) :
    Blind l (collect l ks delta) := by
  induction ks generalizing delta with
  | nil => exact blind_pure delta
  | cons k ks ih =>
    obtain ⟨hk, hks⟩ := List.forall_mem_cons.1 hks
    refine (blind_get hk).bind fun v => ?_
    -- A computed field is noted as told besides
    split
    · exact (blind_sync k v).bind fun _ => ih hks _
    · exact (blind_pure ()).bind fun _ => ih hks _

/-- A snapshot is blind: it collects fields that the client may see. -/
theorem blind_snapshot (hl : l.Sound) : Blind l (snapshot l) := by
  have hkeys : ∀ k ∈ l.clientKeys, ¬ l.IsSecret k := fun k hk =>
    not_isSecret_of_isBackend (isBackend_of_mem_clientKeys hl hk)
  refine (blind_collect hkeys .empty).bind fun delta => ?_
  have hsent : Blind l (modify fun t => { t with unsent := [] } : TreeM StateError PUnit) :=
    blind_modify fun t t' h => { h with unsent := rfl }
  exact hsent.bind fun _ => blind_pure delta

/-! ### Flushes -/

/-- Two flushes in the middle of a round that have collected the same, on indistinct trees. -/
structure FlushState.Indistinct (l : Layout) (s s' : FlushState) : Prop where
  tree : Tree.Indistinct l s.tree s'.tree
  delta : s.delta = s'.delta
  failures : s.failures = s'.failures
  unsent : s.unsent = s'.unsent
  mem_changed : ∀ k, ¬ l.IsSecret k → (k ∈ s.changed ↔ k ∈ s'.changed)

/-- Refreshing a field that is no secret is blind. -/
theorem blind_refresh (hk : ¬ l.IsSecret k) : Blind l (refresh l k) := by
  refine (blind_modify fun _ _ h => h.modifySlot k _).bind fun _ => (blind_get hk).bind fun v => ?_
  refine blind_get_bind fun t t' h => ?_
  rw [h.slot?_eq k]
  cases t'.slot? k with
  | none => exact blind_throw _ h
  | some slot => exact ((blind_sync k v).bind fun _ => blind_pure _) h

namespace FlushState.Indistinct

/-- A refresh leads from flushes that look alike to flushes that look alike. -/
theorem refreshInto (h : FlushState.Indistinct l s s') (hk : ¬ l.IsSecret k) :
    FlushState.Indistinct l (Tree.refreshInto l s k) (Tree.refreshInto l s' k) := by
  obtain ⟨heq, htree⟩ := blind_refresh hk h.tree
  unfold Tree.refreshInto
  generalize (refresh l k).run s.tree = p at heq htree
  generalize (refresh l k).run s'.tree = p' at heq htree
  obtain ⟨r, t⟩ := p
  obtain ⟨r', t'⟩ := p'
  obtain rfl : r = r' := heq
  -- The refreshes had the same result, so they are entered in the same way: a failure, no
  -- change, or a new value
  rcases r with e | v | v
  · exact
      { h with
        tree := htree
        failures := congrArg (· ++ [e]) h.failures
        unsent := congrArg (KeySet.insert k) h.unsent }
  · exact { h with tree := htree }
  · exact
      { h with
        tree := htree
        delta := congrArg (·.insert k.path k.field v) h.delta
        mem_changed := fun m hm => by simp only [List.mem_append, h.mem_changed m hm] }

/-- So does a round of them. -/
theorem foldl (h : FlushState.Indistinct l s s') (hks : ∀ k ∈ ks, ¬ l.IsSecret k) :
    FlushState.Indistinct l (ks.foldl (Tree.refreshInto l) s)
      (ks.foldl (Tree.refreshInto l) s') := by
  induction ks generalizing s s' with
  | nil => exact h
  | cons k ks ih =>
    obtain ⟨hk, hks⟩ := List.forall_mem_cons.1 hks
    exact ih (h.refreshInto hk) hks

/-- The same fields are due: nothing reads a secret, so it makes no field due. -/
theorem stale_eq (h : FlushState.Indistinct l s s') (hl : l.Sound) (retry : List FieldKey) :
    stale l s.changed retry = stale l s'.changed retry := by
  -- What a field reads is no secret, so the runs agree on whether it has changed
  have hreads : ∀ k d, l.Reads k d → (d ∈ s.changed ↔ d ∈ s'.changed) :=
    fun k d hkd => h.mem_changed d fun hsecret => hsecret.2 k hkd
  have hdependents : ∀ k, k ∈ s.changed.flatMap l.graph.dependents ↔
      k ∈ s'.changed.flatMap l.graph.dependents := by
    intro k
    simp only [List.mem_flatMap, hl.mem_dependents]
    exact exists_congr fun d => and_congr_left (hreads k d)
  simp only [stale, hdependents]

/-- The rounds lead to the same, also where their bound is met. -/
theorem settle (h : FlushState.Indistinct l s s') (hl : l.Sound) (rounds : Nat)
    (retry : List FieldKey) :
    FlushState.Indistinct l (Tree.settle l rounds retry s) (Tree.settle l rounds retry s') := by
  induction rounds generalizing retry s s' with
  | zero =>
    have hstale := h.stale_eq hl retry
    rw [Tree.settle.eq_def, Tree.settle.eq_def l 0 retry s']
    simp only [hstale]
    cases stale l s'.changed retry with
    | nil => exact h
    -- The bound is met, and the same field is named
    | cons k ks => exact { h with failures := congrArg (· ++ _) h.failures }
  | succ rounds ih =>
    have hstale := h.stale_eq hl retry
    by_cases hnil : stale l s'.changed retry = []
    · -- Nothing is due in either run, so both end here
      rwa [settle_of_stale_eq_nil hnil, settle_of_stale_eq_nil (hstale.trans hnil)]
    · have hdue : ∀ k ∈ stale l s'.changed retry, ¬ l.IsSecret k := fun k hk =>
        not_isSecret_of_isComputed hl ((mem_stale hl).1 hk).1
      -- At the start of a round both have changed nothing
      have hstart : FlushState.Indistinct l { s with changed := [] } { s' with changed := [] } :=
        { h with mem_changed := fun _ _ => Iff.rfl }
      rw [settle_succ hnil, settle_succ (hstale ▸ hnil), hstale]
      exact ih (hstart.foldl hdue) []

end FlushState.Indistinct

/-- Marks of secrets add nothing to a delta. -/
theorem Indistinct.dirtyDelta_eq (h : Indistinct l t t') : dirtyDelta l t = dirtyDelta l t' :=
  dirtyDelta_congr (fun k hk => h.mem_dirty k (not_isSecret_of_isBackend hk))
    fun k hk => h.stored k (not_isSecret_of_isBackend hk)

/-- The flushes of trees that look alike begin alike. -/
theorem Indistinct.beginning (h : Indistinct l t t') :
    FlushState.Indistinct l (Tree.beginning l t) (Tree.beginning l t') where
  tree := h
  delta := h.dirtyDelta_eq
  failures := rfl
  unsent := rfl
  mem_changed := h.mem_dirty

/-- Indistinct trees are flushed with the same result and stay indistinct. -/
theorem Indistinct.flush (hl : l.Sound) (h : Indistinct l t t') :
    (Tree.flush l t).1 = (Tree.flush l t').1 ∧
      Indistinct l (Tree.flush l t).2 (Tree.flush l t').2 := by
  have hsettled : FlushState.Indistinct l (settled l t) (settled l t') := by
    -- Both flushes go through their rounds with the same fields to be tried again
    have hrounds := h.beginning.settle hl l.computedCount t.unsent
    rw [settled, settled, ← h.unsent]
    exact hrounds
  rw [flush_eq_finish, flush_eq_finish]
  refine ⟨?_, ?_⟩
  · simp only [FlushState.finish, hsettled.failures, hsettled.delta]
  · exact { hsettled.tree with mem_dirty := fun _ _ => Iff.rfl, unsent := hsettled.unsent }

/-! ### Two runs -/

/-- What the client is told by a call. -/
inductive Reply where
  | flushed (result : Except FlushError Delta)
  | snapshot (result : Except StateError Delta)

/-- The changes that a reply brings, which a failed flush carries in its error. -/
def Reply.delta : Reply → Delta
  | flushed result => delivered result
  | snapshot (.ok delta) => delta
  | snapshot (.error _) => .empty

namespace Call

/-- What a call tells the client, if anything, and the tree after it. -/
def run (l : Layout) (t : Tree) : Call → Option Reply × Tree
  | .get k => (none, ((Tree.get l k).run t).2)
  | .set k v => (none, ((Tree.set l k v).run t).2)
  | .modifyField k f => (none, ((Tree.modifyField l k f).run t).2)
  | .flush => (some (.flushed (Tree.flush l t).1), (Tree.flush l t).2)
  | .snapshot => (some (.snapshot ((Tree.snapshot l).run t).1), ((Tree.snapshot l).run t).2)

/-- All that the client is told in a run, whether calls fail or not. -/
def replies (l : Layout) : List Call → Tree → List Reply
  | [], _ => []
  | c :: cs, t => (c.run l t).1.toList ++ replies l cs (c.run l t).2

/-- The calls are the same, but for what is assigned to a secret. -/
inductive SameButSecret (l : Layout) : Call → Call → Prop where
  | same (c : Call) : SameButSecret l c c
  | set {k : FieldKey} (hk : l.IsSecret k) (v w : Value) : SameButSecret l (.set k v) (.set k w)
  | modifyField {k : FieldKey} (hk : l.IsSecret k) (f g : Value → Value) :
    SameButSecret l (.modifyField k f) (.modifyField k g)

end Call

variable {c c' : Call} {cs cs' : List Call}

/-- One call, made in both runs. -/
theorem Indistinct.run_same (hl : l.Sound) (h : Indistinct l t t') (c : Call) :
    (c.run l t).1 = (c.run l t').1 ∧ Indistinct l (c.run l t).2 (c.run l t').2 := by
  cases c with
  | get k =>
    refine ⟨rfl, ?_⟩
    -- A secret that is read is stored, and the tree is left alone
    by_cases hk : l.IsSecret k
    · obtain ⟨hleft, hright⟩ := h.secrets k hk
      simp only [Call.run, get_stored_snd hleft, get_stored_snd hright]
      exact h
    · exact (blind_get hk h).2
  | set k v =>
    refine ⟨rfl, ?_⟩
    -- A secret is set in the one tree and then in the other
    by_cases hk : l.IsSecret k
    · exact ((h.set_secret hl hk v).symm.set_secret hl hk v).symm
    · exact (blind_set hk v h).2
  | modifyField k f =>
    refine ⟨rfl, ?_⟩
    by_cases hk : l.IsSecret k
    · exact ((h.modifyField_secret hl hk f).symm.modifyField_secret hl hk f).symm
    · exact (blind_modifyField hk f h).2
  | flush =>
    obtain ⟨hresult, htree⟩ := h.flush hl
    exact ⟨congrArg (fun r => some (Reply.flushed r)) hresult, htree⟩
  | snapshot =>
    obtain ⟨hresult, htree⟩ := blind_snapshot hl h
    exact ⟨congrArg (fun r => some (Reply.snapshot r)) hresult, htree⟩

/-- Calls that are the same but for what is assigned to a secret keep the trees indistinct. -/
theorem Indistinct.run (hl : l.Sound) (h : Indistinct l t t') (hc : Call.SameButSecret l c c') :
    (c.run l t).1 = (c'.run l t').1 ∧ Indistinct l (c.run l t).2 (c'.run l t').2 := by
  cases hc with
  | same c => exact h.run_same hl c
  | set hk v w => exact ⟨rfl, ((h.set_secret hl hk v).symm.set_secret hl hk w).symm⟩
  | modifyField hk f g =>
    exact ⟨rfl, ((h.modifyField_secret hl hk f).symm.modifyField_secret hl hk g).symm⟩

/-- Runs that are the same but for what is assigned to secrets tell the same. -/
theorem Indistinct.replies_eq (hl : l.Sound) (h : Indistinct l t t')
    (hcs : List.Forall₂ (Call.SameButSecret l) cs cs') :
    Call.replies l cs t = Call.replies l cs' t' := by
  induction hcs generalizing t t' with
  | nil => rfl
  | cons hc _ ih =>
    obtain ⟨hreply, htree⟩ := h.run hl hc
    rw [Call.replies, Call.replies, hreply, ih htree]

/-! ### One run -/

/-- The delta mentions no field that stays on the server. -/
def Public (l : Layout) (delta : Delta) : Prop :=
  ∀ k ∈ delta.keys, l.isBackend k = false

/-- The empty delta tells nothing. -/
theorem public_empty (l : Layout) : Public l .empty := nofun

/-- A delta stays public by a field that the client may see. -/
theorem Public.insert {delta : Delta} (h : Public l delta) (hk : l.isBackend k = false)
    (v : Value) : Public l (delta.insert k.path k.field v) := by
  intro m hm
  rcases Delta.mem_keys_insert hm with rfl | hm
  · exact hk
  · exact h m hm

/-- The stored fields that are told are public. -/
theorem public_dirtyDelta (l : Layout) (t : Tree) : Public l (dirtyDelta l t) := by
  have htell : ∀ (ks : List FieldKey) (delta : Delta), Public l delta →
      Public l (ks.foldl (tellStored l t) delta) := by
    intro ks
    induction ks with
    | nil => exact fun _ h => h
    | cons k ks ih =>
      intro delta h
      refine ih _ ?_
      rw [tellStored]
      -- Backend fields are left out
      split
      · exact h
      · next hk =>
        cases t.stored? k with
        | none => exact h
        | some v => exact h.insert (Bool.eq_false_iff.2 hk) v
  exact htell _ _ (public_empty l)

/-- A refresh may only add a computed field. -/
theorem Public.refreshInto (hl : l.Sound) (hk : l.isComputed k = true) (h : Public l s.delta) :
    Public l (Tree.refreshInto l s k).delta := by
  -- A computed field is not stored, and only stored fields are kept on the server
  have hbackend : l.isBackend k = false := by
    unfold Layout.isBackend
    simp only [hl.field?_of_isComputed k hk]
  unfold Tree.refreshInto
  split
  · exact h.insert hbackend _
  · exact h
  · exact h

/-- What a flush delivers is public, also when it fails. -/
theorem public_flush (hl : l.Sound) (t : Tree) : Public l (delivered (flush l t).1) := by
  obtain ⟨n, -, hrounds⟩ := rounds_settled hl t
  rw [delivered_flush]
  exact hrounds.keeps hl (I := fun s => Public l s.delta) (fun _ h => h)
    (fun _ _ hk h => h.refreshInto hl hk) (public_dirtyDelta l t)

/-- What is collected is public if the fields are. -/
theorem public_collect (hks : ∀ k ∈ ks, l.isBackend k = false) {delta delta' : Delta}
    (h : Public l delta) (hrun : ((collect l ks delta).run t).1 = .ok delta') :
    Public l delta' := by
  induction ks generalizing delta t with
  | nil =>
    obtain rfl := Except.ok.inj hrun
    exact h
  | cons k ks ih =>
    obtain ⟨hk, hks⟩ := List.forall_mem_cons.1 hks
    rw [collect, run_bind] at hrun
    -- A field that fails ends the walk without a delta
    rcases hget : (get l k).run t with ⟨e | v, t₁⟩
    · rw [hget] at hrun
      cases hrun
    · rw [hget] at hrun
      -- Computed fields are noted as sent on the way, which tells nothing
      by_cases hcomputed : l.isComputed k = true
      · simp only [hcomputed, if_true] at hrun
        exact ih hks (h.insert hk v) hrun
      · simp only [hcomputed] at hrun
        exact ih hks (h.insert hk v) hrun

/-- A snapshot is public. -/
theorem public_snapshot (hl : l.Sound) {delta : Delta}
    (hrun : ((snapshot l).run t).1 = .ok delta) : Public l delta := by
  rw [snapshot, run_bind] at hrun
  rcases hcollect : (collect l l.clientKeys .empty).run t with ⟨e | delta', t₁⟩
  · rw [hcollect] at hrun
    cases hrun
  · rw [hcollect] at hrun
    obtain rfl := Except.ok.inj hrun
    refine public_collect (t := t) (fun k hk => isBackend_of_mem_clientKeys hl hk)
      (public_empty l) ?_
    rw [hcollect]

/-- Every reply is public, from whatever tree it came. -/
theorem public_of_mem_replies (hl : l.Sound) {r : Reply} (hr : r ∈ Call.replies l cs t) :
    Public l r.delta := by
  induction cs generalizing t with
  | nil => cases hr
  | cons c cs ih =>
    rw [Call.replies, List.mem_append, Option.mem_toList] at hr
    rcases hr with hr | hr
    · -- Only flushes and snapshots have a reply
      cases c with
      | get k => cases hr
      | set k v => cases hr
      | modifyField k f => cases hr
      | flush =>
        obtain rfl := Option.some.inj hr
        exact public_flush hl t
      | snapshot =>
        obtain rfl := Option.some.inj hr
        cases hrun : ((snapshot l).run t).1 with
        -- A snapshot that failed holds nothing
        | error e => exact public_empty l
        | ok delta => exact public_snapshot hl hrun
    · exact ih hr

/-- What is kept on the server does not get out.  Two runs from a fresh tree that are the same but
for what is assigned to fields that stay on the server and that no computed field reads tell the
client the same, errors included; and no run mentions a field that stays on the server. -/
theorem replies_keep_secrets {root : Schema} (hroot : root.Built) (hl : Layout.compile root = .ok l)
    (ht : start l = .ok t) :
    (∀ cs cs', List.Forall₂ (Call.SameButSecret l) cs cs' →
        Call.replies l cs t = Call.replies l cs' t) ∧
      ∀ cs, ∀ r ∈ Call.replies l cs t, ∀ k, l.isBackend k = true → k ∉ r.delta.keys := by
  have hsound := Layout.compile_sound hroot hl
  refine ⟨fun cs cs' hcs => ?_, fun cs r hr k hk hmem => ?_⟩
  · exact (indistinct_refl (coherent_start hsound ht)).replies_eq hsound hcs
  · -- A key in a reply is public, and this one is not
    have hpublic := public_of_mem_replies hsound hr k hmem
    rw [hk] at hpublic
    cases hpublic

end Tree

/-! ### A sample -/

namespace Schema

/-- A balance, a rate that is kept on the server, the interest, and a code that nothing reads. -/
def account : Schema :=
  .mk "app" [⟨"balance", .int, .int 1, false, none⟩, ⟨"rate", .int, .int 2, true, none⟩,
      ⟨"code", .int, .int 0, true, none⟩]
    [("interest", .binary .mul (.field (.relative "balance") .int) (.field (.relative "rate") .int)
      .int)] [] [] []

/-- The schema can be built. -/
theorem built_account : account.Built := by
  have hstart : Built (.mk "app" [] [] [] [] []) := .start (show start "app" = _ from rfl)
  have hbalance := hstart.declare
    (show declare _ ⟨"balance", .int, .int 1, false, none⟩ = _ from rfl)
  have hrate := hbalance.declare (show declare _ ⟨"rate", .int, .int 2, true, none⟩ = _ from rfl)
  have hcode := hrate.declare (show declare _ ⟨"code", .int, .int 0, true, none⟩ = _ from rfl)
  exact hcode.declareComputed (show declareComputed _ "interest"
    (.binary .mul (.field (.relative "balance") .int) (.field (.relative "rate") .int) .int) = _
      from rfl)

end Schema

/-- The layout of the account. -/
def Layout.account : Layout := (Layout.compile Schema.account).toOption.get rfl

/-- It compiles to the layout. -/
theorem Layout.compile_account : Layout.compile Schema.account = .ok Layout.account := rfl

namespace Tree

/-- Nothing reads the code, while the interest reads the rate. -/
theorem isSecret_code : Layout.account.IsSecret ⟨"app", "code"⟩ := by
  have hsound := Layout.compile_sound Schema.built_account Layout.compile_account
  refine ⟨rfl, fun c hreads => ?_⟩
  have hdependents : Layout.account.graph.dependents ⟨"app", "code"⟩ = [] := rfl
  have hmem := (hsound.mem_dependents c ⟨"app", "code"⟩).2 hreads
  rw [hdependents] at hmem
  cases hmem

/-- Whether the code is set to a number or to a text, which is refused, the interest is told, and
neither the rate nor the code. -/
theorem replies_keep_secrets_account :
    let t := (start Layout.account).toOption.getD (instantiate Layout.account)
    let later := [Call.set ⟨"app", "rate"⟩ (.int 3), .flush, .snapshot]
    Call.replies Layout.account (.set ⟨"app", "code"⟩ (.int 7) :: later) t =
        Call.replies Layout.account (.set ⟨"app", "code"⟩ (.str "seven") :: later) t ∧
      ∀ r ∈ Call.replies Layout.account (.set ⟨"app", "code"⟩ (.int 7) :: later) t,
        ⟨"app", "rate"⟩ ∉ r.delta.keys := by
  intro t later
  have hkeep := replies_keep_secrets Schema.built_account Layout.compile_account
    (show start Layout.account = .ok t from rfl)
  -- What follows is the same in both runs
  have hlater : List.Forall₂ (Call.SameButSecret Layout.account) later later :=
    List.forall₂_same.2 fun c _ => .same c
  exact ⟨hkeep.1 _ _ (.cons (.set isSecret_code _ _) hlater), fun r hr =>
    hkeep.2 _ r hr ⟨"app", "rate"⟩ rfl⟩

end Tree

end ReactiveState
