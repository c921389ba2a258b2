import ReactiveState.Proofs.Session.InStep
import ReactiveState.Proofs.Session.Jobs
import ReactiveState.Proofs.Tree.Reachable

/-!
# Replicas

A `Replica` is an app together with the copy that one of its clients keeps: each successful connect
replaces the copy, and each patch that an event sends is folded into it.  `Reached.copy_eq_shown`
says that whatever the handlers do, and whatever fails, after every call the copy shows the tree of
the session and nothing else.
-/

namespace ReactiveState

/-- An app and the copy that one client keeps of its session. -/
structure Replica where
  app : App
  /-- What the client holds. -/
  copy : Delta
  /-- Everything that was delivered to the client, in order. -/
  delivered : List Delta
  /-- The values that computed fields of the session have had. -/
  occurred : List Value

namespace Replica

/-- A call for the client's session. -/
inductive Call where
  | connect
  | process (e : Event)

/-- The trees of the session that a call passes through. -/
def passed (a : App) (id : String) : Call → List Tree
  | .connect =>
    match a.attach id with
    | .error _ => []
    | .ok (a, n) =>
      match a.sessions[n]? with
      | some s => (a.program s .connect).trees a.layout s.tree
      | none => []
  | .process e =>
    match a.session? id with
    | some s => (a.program s (.process e)).trees a.layout s.tree
    | none => []

/-- Notes the values of a call. -/
def record (r : Replica) (id : String) (c : Call) : Replica :=
  { r with
    occurred := r.occurred ++ (passed r.app id c).flatMap (Tree.computedValues r.app.layout) }

/-- The client starts over with a full state. -/
def restart (r : Replica) (delta : Delta) : Replica :=
  { r with copy := delta, delivered := r.delivered ++ [delta] }

/-- The client folds patches into its copy, one after another. -/
def fold (r : Replica) (patches : List Delta) : Replica :=
  { r with copy := patches.foldl Delta.merge r.copy, delivered := r.delivered ++ patches }

/-- The replica after a call. -/
def call (id : String) (r : Replica) (c : Call) : Replica :=
  let r := r.record id c
  match c with
  | .connect =>
    match r.app.connect id with
    | (a, some (.ok delta)) => { r.restart delta with app := a }
    | (a, _) => { r with app := a }
  | .process e =>
    match r.app.process ⟨e.handler, e.args, id⟩ with
    | (a, some (.ok ds)) => { r.fold (ds.map OutboundDelta.patch) with app := a }
    | (a, _) => { r with app := a }

/-- The replicas of calls for one id, from an app without sessions on. -/
inductive Reached (l : Layout) (config : Config) (id : String) : Replica → Prop where
  | create {a : App} (h : App.create l config = .ok a) : Reached l config id ⟨a, .empty, [], []⟩
  | call {r : Replica} (hr : Reached l config id r) (c : Call) : Reached l config id (r.call id c)

/-- The value of a field that was delivered last. -/
def lastDelivered (ds : List Delta) (k : FieldKey) : Option Value :=
  ds.foldl (fun last d => (d.get? k.path k.field).or last) none

/-- What a client should hold of a field: the value from scratch of a computed field, or the value
delivered last while it fails; the value of a stored field, unless it is kept on the server. -/
def shown (l : Layout) (t : Tree) (ds : List Delta) (k : FieldKey) : Option Value :=
  if l.isComputed k then
    match t.scratch l k with
    | .ok v => some v
    | .error _ => lastDelivered ds k
  else if l.isBackend k then none
  else t.stored? k

variable {l : Layout} {config : Config} {id : String} {r : Replica} {vs : List Value}

/-! ### Deliveries -/

theorem lastDelivered_append (ds : List Delta) (ds' : List Delta) (k : FieldKey) :
    lastDelivered (ds ++ ds') k =
      ds'.foldl (fun last d => (d.get? k.path k.field).or last) (lastDelivered ds k) := by
  rw [lastDelivered, List.foldl_append, lastDelivered]

/-- Folding patches into a copy keeps of each field the value that came last. -/
theorem get?_foldl_merge {ds : List Delta} (hds : ∀ d ∈ ds, d.Sorted) (copy : Delta)
    (k : FieldKey) : (ds.foldl Delta.merge copy).get? k.path k.field =
      ds.foldl (fun last d => (d.get? k.path k.field).or last) (copy.get? k.path k.field) := by
  induction ds generalizing copy with
  | nil => rfl
  | cons d ds ih =>
    obtain ⟨hd, hds⟩ := List.forall_mem_cons.1 hds
    rw [List.foldl_cons, ih hds, Delta.get?_merge _ hd, List.foldl_cons]

theorem foldl_merge_patches (copy : Delta) (us : List StateUpdate) :
    ((us.map (OutboundDelta.ofUpdate id)).map OutboundDelta.patch).foldl Delta.merge copy =
      foldUpdates copy us := by
  rw [List.map_map, List.foldl_map]
  rfl

/-! ### One job -/

/-- An event that is dispatched ends in step; one without a handler changes nothing. -/
theorem dispatch_cases (hl : l.Sound) (hscoped : l.HandlersScoped) (hexact : Value.ExactOn vs)
    (loop : EventLoop) (e : Event) {copy : Delta} {t : Tree} (h : InStep l vs copy t)
    (hvalues : ∀ u ∈ (loop.dispatch l e).trees l t, u.computedValues l ⊆ vs) :
    (∃ err, (loop.dispatch l e).result l t = .error err ∧
        (loop.dispatch l e).treeAfter l t = t) ∨
      ∃ us, (loop.dispatch l e).result l t = .ok us ∧
        InStep l vs (foldUpdates copy us) ((loop.dispatch l e).treeAfter l t) ∧
        ∀ u ∈ us, u.delta.Sorted := by
  -- Without a handler nothing is run
  cases hr : l.resolveHandler? e.handler with
  | none =>
    simp only [EventLoop.dispatch, hr]
    exact .inl ⟨_, rfl, rfl⟩
  | some found =>
    rw [EventLoop.dispatch_eq_chain loop hr] at hvalues ⊢
    rw [Program.result_bind, Program.treeAfter_bind]
    obtain ⟨hstep, hsorted⟩ := inStep_chain hl hscoped hexact _ _ _ copy t h fun u hu =>
      hvalues u (Program.mem_trees_bind_left _ _ t hu)
    exact .inr ⟨_, rfl, hstep, hsorted⟩

/-- What an event that is processed does on the tree of a session. -/
theorem process_cases {a : App} (ha : a.layout = l) (hl : l.Sound) (hscoped : l.HandlersScoped)
    (hexact : Value.ExactOn vs) (s : Session) (e : Event) {copy : Delta} {t : Tree}
    (h : InStep l vs copy t)
    (hvalues : ∀ u ∈ (a.program s (.process e)).trees l t, u.computedValues l ⊆ vs) :
    (∃ err, (a.program s (.process e)).result l t = .updates (.error err) ∧
        (a.program s (.process e)).treeAfter l t = t) ∨
      ∃ us, (a.program s (.process e)).result l t = .updates (.ok us) ∧
        InStep l vs (foldUpdates copy us) ((a.program s (.process e)).treeAfter l t) ∧
        ∀ u ∈ us, u.delta.Sorted := by
  have hprogram : a.program s (.process e) =
      (s.loop.dispatch l e).bind fun result => .done (.updates result) := by
    rw [← ha]
    rfl
  -- Processing is dispatching, with the result wrapped
  rw [hprogram] at hvalues ⊢
  rw [Program.result_bind, Program.treeAfter_bind]
  rcases dispatch_cases hl hscoped hexact s.loop e h fun u hu =>
      hvalues u (Program.mem_trees_bind_left _ _ t hu) with
    ⟨err, hout, htree⟩ | ⟨us, hout, hstep, hsorted⟩
  · rw [hout]
    exact .inl ⟨err, rfl, htree⟩
  · rw [hout]
    exact .inr ⟨us, rfl, hstep, hsorted⟩

/-- What a connect does on the tree of a session, by what its snapshot gives. -/
theorem connect_run (a : App) (s : Session) {o : Except StateError Delta} {t t' : Tree}
    (h : (Tree.snapshot l).run t = (o, t')) :
    (a.program s .connect).result l t = .state o ∧ (a.program s .connect).treeAfter l t = t' ∧
      (a.program s .connect).trees l t = [t, t'] := by
  have hprogram : a.program s .connect = .snapshot fun o => .done (.state o) := rfl
  rw [hprogram]
  simp only [Program.result, Program.treeAfter, Program.trees, Program.run, h, and_self]

/-! ### The invariant -/

/-- What every call keeps. -/
structure Serving (l : Layout) (vs : List Value) (id : String) (r : Replica) : Prop where
  layout : r.app.layout = l
  idle : r.app.IsIdle
  session : ∀ n, r.app.number? id = some n →
    ∃ s, r.app.sessions[n]? = some s ∧ s.connected = true ∧ InStep l vs r.copy s.tree
  last : ∀ k, l.isComputed k = true →
    lastDelivered r.delivered k = r.copy.get? k.path k.field

theorem serving_create {a : App} (h : App.create l config = .ok a) :
    Serving l vs id ⟨a, .empty, [], []⟩ := by
  unfold App.create at h
  obtain ⟨_, _, h⟩ := bind_eq_ok h
  obtain rfl := Except.ok.inj h
  exact ⟨rfl, nofun, nofun, fun _ _ => rfl⟩

/-- After a job whose deliveries leave the client in step. -/
theorem serving_afterJob {a : App} (hlayout : a.layout = l) (hidle : a.IsIdle) {n : Nat}
    {s : Session} {job : Job} (hn : a.number? id = some n) (hs : a.sessions[n]? = some s)
    (hc : s.connected = true) (happ : r.app = a.afterJob n s job)
    (hstep : InStep l vs r.copy ((a.program s job).treeAfter l s.tree))
    (hlast : ∀ k, l.isComputed k = true →
      lastDelivered r.delivered k = r.copy.get? k.path k.field) : Serving l vs id r where
  layout := by rw [happ]; exact hlayout
  idle := by rw [happ]; exact App.isIdle_afterJob hidle
  -- The identifier still has the same session, whose tree is the one after the job
  session m hm := by
    rw [happ] at hm ⊢
    obtain rfl : n = m := Option.some.inj (hn.symm.trans hm)
    exact ⟨_, App.sessions_afterJob hs, hc, by rw [hlayout]; exact hstep⟩
  last := hlast

/-- An event leaves the client in step, whether it is refused, fails or runs to its end. -/
theorem Serving.process (hl : l.Sound) (hscoped : l.HandlersScoped) (hexact : Value.ExactOn vs)
    (h : Serving l vs id r) (e : Event)
    (hvalues : ∀ u ∈ passed r.app id (.process e), u.computedValues l ⊆ vs) :
    Serving l vs id (r.call id (.process e)) := by
  cases hn : r.app.number? id with
  | none =>
    -- A client without a session gets an error and changes nothing
    have hcall : r.call id (.process e) = r.record id (.process e) := by
      simp only [call, App.process, record, hn]
    rw [hcall]
    exact ⟨h.layout, h.idle, h.session, h.last⟩
  | some n =>
    obtain ⟨s, hs, hc, hstep⟩ := h.session n hn
    have hvalues : ∀ u ∈ (r.app.program s (.process e)).trees l s.tree,
        u.computedValues l ⊆ vs := by
      simpa only [passed, App.session?, hn, Option.bind_some, hs, h.layout] using hvalues
    -- The one job of the call runs to its end and is answered
    have hreply := App.process_eq (e := ⟨e.handler, e.args, id⟩) h.idle hn hs
    simp only [InboundEvent.event, h.layout] at hreply
    rcases process_cases h.layout hl hscoped hexact s e hstep hvalues with
      ⟨err, hout, htree⟩ | ⟨us, hout, hstep', hsorted⟩
    · -- The event was refused
      have hcall : r.call id (.process e) =
          { r.record id (.process e) with app := r.app.afterJob n s (.process e) } := by
        simp only [call, record, hreply, hout, App.address]
      rw [hcall]
      exact serving_afterJob h.layout h.idle hn hs hc rfl (htree.symm ▸ hstep) h.last
    · have hcall : r.call id (.process e) =
          { (r.record id (.process e)).fold
              ((us.map (OutboundDelta.ofUpdate s.id)).map OutboundDelta.patch) with
            app := r.app.afterJob n s (.process e) } := by
        simp only [call, record, hreply, hout, App.address, hc, if_true]
      -- Every delta that is sent is in order, so the copy is folded key by key
      have hpatches : ∀ d ∈ (us.map (OutboundDelta.ofUpdate s.id)).map OutboundDelta.patch,
          d.Sorted := by
        simpa [OutboundDelta.ofUpdate] using hsorted
      rw [hcall]
      refine serving_afterJob h.layout h.idle hn hs hc rfl ?_ fun k hk => ?_
      · simp only [fold, record, foldl_merge_patches]
        exact hstep'
      · simp only [fold, record]
        rw [lastDelivered_append, get?_foldl_merge hpatches, h.last k hk]

/-- The session that a client attaches to is one that was served, or a started one. -/
theorem Serving.attach (h : Serving l vs id r) {a : App} {n : Nat}
    (hattach : r.app.attach id = .ok (a, n)) :
    a.layout = l ∧ a.IsIdle ∧ a.number? id = some n ∧
      ∃ s, a.sessions[n]? = some s ∧ s.connected = true ∧
        (InStep l vs r.copy s.tree ∨ Tree.start l = .ok s.tree) := by
  unfold App.attach at hattach
  -- Back to the session that was served, or a new tree
  cases hn : r.app.number? id with
  | some m =>
    rw [hn] at hattach
    obtain ⟨rfl, rfl⟩ := Prod.mk.inj (Except.ok.inj hattach)
    obtain ⟨s, hs, hc, hstep⟩ := h.session m hn
    exact ⟨h.layout, h.idle, hn, { s with connected := true },
      by simp [App.modifySession, hs], rfl, .inl hstep⟩
  | none =>
    rw [hn, h.layout] at hattach
    obtain ⟨t, ht, hattach⟩ := bind_eq_ok hattach
    obtain ⟨rfl, rfl⟩ := Prod.mk.inj (Except.ok.inj hattach)
    refine ⟨rfl, h.idle, ?_, ⟨id, t, EventLoop.create r.app.config.maxEventChain, true⟩, by simp,
      rfl, .inr ht⟩
    rw [App.number?, KeyMap.find?_insert, if_pos rfl]

/-- What the snapshot of a connect may rely on: a session that was served is in step, and nothing
fails in one that was just started. -/
theorem inStep_or_started (hl : l.Sound) (hexact : Value.ExactOn vs) {copy : Delta} {t : Tree}
    (h : InStep l vs copy t ∨ Tree.start l = .ok t) (hvalues : t.computedValues l ⊆ vs) :
    t.Coherent l ∧ t.dirty = [] ∧ (∀ k w, t.synced? k = some w → w ∈ vs) ∧
      (InStep l vs copy t ∨ ∀ k ∈ l.clientKeys, ∃ v, t.scratch l k = .ok v) := by
  rcases h with h | ht
  · exact ⟨h.tracked.coherent, h.dirty, h.synced, .inl h⟩
  · -- A tree that was started has told every computed field, so none of them fails
    have hcoh := Tree.coherent_start hl ht
    obtain ⟨htold, hdirty, -⟩ := Tree.told_start hl ht (hexact.mono hvalues)
    have hcomparable := Tree.comparable_of_told hl hcoh htold hexact hvalues
    exact ⟨hcoh, hdirty, hcomparable.synced,
      .inr fun k hk => Tree.exists_scratch_of_told hl hcoh htold hk⟩

/-- A connect leaves the client in step, whether it gets the state or not. -/
theorem serving_connected {a : App} (hl : l.Sound) (hexact : Value.ExactOn vs)
    (hlayout : a.layout = l) (hidle : a.IsIdle) {n : Nat} {s : Session}
    (hn : a.number? id = some n) (hs : a.sessions[n]? = some s) (hc : s.connected = true)
    (hstate : InStep l vs r.copy s.tree ∨ Tree.start l = .ok s.tree)
    (hlast : ∀ k, l.isComputed k = true →
      lastDelivered r.delivered k = r.copy.get? k.path k.field)
    (hvalues : ∀ u ∈ (a.program s .connect).trees l s.tree, u.computedValues l ⊆ vs) :
    (∃ e, (a.program s .connect).result l s.tree = .state (.error e) ∧
        Serving l vs id { r with app := a.afterJob n s .connect }) ∨
      ∃ delta, (a.program s .connect).result l s.tree = .state (.ok delta) ∧
        Serving l vs id { r.restart delta with app := a.afterJob n s .connect } := by
  have hvalue : s.tree.computedValues l ⊆ vs := hvalues s.tree (Program.mem_trees_self _ _)
  obtain ⟨hcoh, hdirty, hsynced, hstate⟩ := inStep_or_started hl hexact hstate hvalue
  rcases inStep_snapshot hl hexact hcoh hdirty hsynced hvalue with
    ⟨e, t', hrun, ht', k, hk, e', hfail⟩ | ⟨delta, t', hrun, hstep, hsome⟩
  · obtain ⟨hresult, hafter, -⟩ := connect_run a s hrun
    -- A session that was just started has nothing that fails, so this one was served before
    have hstep : InStep l vs r.copy s.tree := hstate.resolve_right fun hall => by
      obtain ⟨v, hv⟩ := hall k hk
      cases hfail.symm.trans hv
    exact .inl ⟨e, hresult, serving_afterJob hlayout hidle hn hs hc rfl
      (hafter ▸ hstep.of_refreshed ht') hlast⟩
  · obtain ⟨hresult, hafter, -⟩ := connect_run a s hrun
    refine .inr ⟨delta, hresult, serving_afterJob hlayout hidle hn hs hc rfl (hafter ▸ hstep)
      fun k hk => ?_⟩
    obtain ⟨v, hv⟩ := Option.isSome_iff_exists.1 (hsome k hk)
    simp only [restart, lastDelivered_append, List.foldl_cons, List.foldl_nil, hv, Option.some_or]

/-- So does a connect. -/
theorem Serving.connect (hl : l.Sound) (hexact : Value.ExactOn vs) (h : Serving l vs id r)
    (hvalues : ∀ u ∈ passed r.app id .connect, u.computedValues l ⊆ vs) :
    Serving l vs id (r.call id .connect) := by
  -- Without a tree to start there is no session and nothing to hold
  cases hattach : r.app.attach id with
  | error e =>
    have hcall : r.call id .connect = r.record id .connect := by
      simp only [call, App.connect, record, hattach]
    rw [hcall]
    exact ⟨h.layout, h.idle, h.session, h.last⟩
  | ok attached =>
    obtain ⟨a, n⟩ := attached
    obtain ⟨hlayout, hidle, hn, s, hs, hc, hstate⟩ := h.attach hattach
    have hvalues : ∀ u ∈ (a.program s .connect).trees l s.tree, u.computedValues l ⊆ vs := by
      simpa only [passed, hattach, hs, hlayout] using hvalues
    have hreply := App.connect_eq hidle hattach hs
    rw [hlayout] at hreply
    rcases serving_connected (r := r.record id .connect) hl hexact hlayout hidle hn hs hc hstate
        h.last hvalues with ⟨e, hout, hserving⟩ | ⟨delta, hout, hserving⟩
    · have hcall : r.call id .connect =
          { r.record id .connect with app := a.afterJob n s .connect } := by
        simp only [call, record, hreply, hout, App.address]
      rw [hcall]
      exact hserving
    · have hcall : r.call id .connect =
          { (r.record id .connect).restart delta with app := a.afterJob n s .connect } := by
        simp only [call, record, hreply, hout, App.address]
      rw [hcall]
      exact hserving

/-! ### All calls -/

theorem occurred_call (r : Replica) (c : Call) : (r.call id c).occurred =
    r.occurred ++ (passed r.app id c).flatMap (Tree.computedValues r.app.layout) := by
  cases c <;> simp only [call] <;> split <;> rfl

/-- Along every sequence of calls the session is served, as long as comparing is exact on the values
that occurred. -/
theorem Reached.serving (hl : l.Sound) (hscoped : l.HandlersScoped) (hr : Reached l config id r)
    (hexact : Value.ExactOn vs) (hoccurred : r.occurred ⊆ vs) : Serving l vs id r := by
  induction hr with
  | create h => exact serving_create h
  | @call r hr c ih =>
    rw [occurred_call, List.append_subset] at hoccurred
    have hserving := ih hoccurred.1
    -- The values that occur in this call are among all that occurred
    have hvalues : ∀ u ∈ passed r.app id c, u.computedValues l ⊆ vs := fun u hu v hv =>
      hoccurred.2 (List.mem_flatMap.2 ⟨u, hu, by rw [hserving.layout]; exact hv⟩)
    cases c with
    | connect => exact hserving.connect hl hexact hvalues
    | process e => exact hserving.process hl hscoped hexact e hvalues

/-- After every call nothing is left dirty and the copy is what the client should hold.  A computed
field that fails is held with the value that it had last. -/
theorem Reached.copy_eq_shown {root : Schema} (hroot : root.Built)
    (hl : Layout.compile root = .ok l) (hscoped : l.HandlersScoped) (hr : Reached l config id r)
    (hexact : Value.ExactOn r.occurred) {s : Session} (hs : r.app.session? id = some s) :
    s.tree.isDirty = false ∧
      (∀ k : FieldKey, r.copy.get? k.path k.field = shown l s.tree r.delivered k) ∧
      ∀ k, l.isComputed k = true → (r.copy.get? k.path k.field).isSome = true := by
  have hsound := Layout.compile_sound hroot hl
  have hserving := hr.serving hsound hscoped hexact (List.Subset.refl _)
  -- The session is the one that was served, so the client is in step with it
  obtain ⟨n, hn, hs⟩ := Option.bind_eq_some_iff.1 hs
  obtain ⟨s', hs', -, hstep⟩ := hserving.session n hn
  obtain rfl : s = s' := Option.some.inj (hs.symm.trans hs')
  -- A field that fails is held as the tree notes it, and that is what was delivered last
  refine ⟨by rw [Tree.isDirty, hstep.dirty]; rfl, fun k => ?_, fun k hk => ?_⟩
  · unfold shown
    cases hk : l.isComputed k with
    | false => rw [hstep.stored k hk (.inl (by simp [hstep.dirty]))]; simp
    | true =>
      cases hv : s.tree.scratch l k with
      | ok v => simp [hstep.computed k hk, hstep.upToDate k v hk hv]
      | error e => simp [hserving.last k hk]
  · obtain ⟨w, hw⟩ := Tree.exists_synced hstep.tracked.coherent hk
    rw [hstep.computed k hk, hw]
    rfl

/-- The client of a counter that connected and then jammed it. -/
def jammedCounter : Replica :=
  ((⟨⟨Layout.counter, {}, [], [], [], []⟩, .empty, [], []⟩ : Replica).call "c" .connect).call "c"
    (.process ⟨"app.jam", []⟩)

/-- The client holds the double of the counter although the handler that set it failed. -/
theorem copy_eq_shown_jammed : jammedCounter.copy.get? "app" "double" = some (.int 14) := by
  have hreached : Reached Layout.counter {} "c" jammedCounter := .call (.call (.create rfl) _) _
  have hexact : Value.ExactOn jammedCounter.occurred :=
    Value.exactOn_ints [2, 7, 2, 7, 2, 7, 14, 19, 14, 19]
  -- The only handler assigns a field and fails
  have hscoped : Layout.counter.HandlersScoped := by
    intro c hc h hh path args
    obtain rfl := List.mem_singleton.1 (show c ∈ [_] from hc)
    obtain rfl := List.mem_singleton.1 (show h ∈ [("jam", Schema.jam)] from hh)
    exact fun _ => trivial
  exact (hreached.copy_eq_shown Schema.built_counter Layout.compile_counter hscoped hexact
    (show jammedCounter.app.session? "c" = some _ from rfl)).2.1 ⟨"app", "double"⟩

end Replica

end ReactiveState
