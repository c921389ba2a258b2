import ReactiveState.Proofs.Layout.Compiled
import ReactiveState.Proofs.Session.Jobs
import ReactiveState.Proofs.Session.Registry

/-!
# Isolation of sessions

An app serves one `Request` after another; each names a session by its id.  What a request makes of
its session and what it answers is a function of that session alone (`alone`), and the sessions of
all other ids stay as they are (`Orderly.serve`).  So the part of a log that is about one id is the
log of a run in which nothing else was asked for (`log_filter_eq`): sessions may be made, attached
to again, dropped and made anew under any ids without being noticed by one another.
-/

namespace ReactiveState

namespace App

/-- What is asked of an app. -/
inductive Request where
  | connect (id : String)
  | process (e : InboundEvent)
  | handle (e : InboundEvent)
  | disconnect (id : String)

/-- The id of the session that is meant. -/
def Request.id : Request → String
  | connect id => id
  | process e => e.sessionId
  | handle e => e.sessionId
  | disconnect id => id

/-- What is answered. -/
inductive Answer where
  | state (result : Except StateError Delta)
  | processed (result : Except DispatchError (List OutboundDelta))
  | handled (deltas : List OutboundDelta)
  | disconnected (found : Bool)

/-- The app after a request, and the answer.  There is none while the session is busy. -/
def serve (a : App) : Request → App × Option Answer
  | .connect id => ((a.connect id).1, (a.connect id).2.map .state)
  | .process e => ((a.process e).1, (a.process e).2.map .processed)
  | .handle e => ((a.handle e).1, (a.handle e).2.map .handled)
  | .disconnect id => ((a.disconnect id).1, some (.disconnected (a.disconnect id).2))

/-- Requests, one after another, each with its answer. -/
def log (a : App) : List Request → List (Request × Option Answer)
  | [] => []
  | r :: rs => (r, (a.serve r).2) :: log (a.serve r).1 rs

/-! ### One session alone -/

/-- The session after a job. -/
def after (a : App) (s : Session) (job : Job) : Session :=
  { s with tree := (a.program s job).treeAfter a.layout s.tree }

/-- What a session sends for an event. -/
def delivery (a : App) (s : Session) (e : Event) : Except DispatchError (List OutboundDelta) :=
  ((s.loop.dispatch a.layout e).result a.layout s.tree).map fun us =>
    if s.connected then us.map (OutboundDelta.ofUpdate s.id) else []

/-- The session of a client that has connected, and the state it gets. -/
def greeted (a : App) (s : Session) : Option Session × Answer :=
  (some (a.after s .connect), .state ((Tree.snapshot a.layout).run s.tree).1)

/-- What a request makes of its session and what it answers, by the session alone.  Only the layout
and the settings of the app matter. -/
def alone (a : App) : Option Session → Request → Option Session × Answer
  | none, .connect id =>
    match Tree.start a.layout with
    | .error e => (none, .state (.error e))
    | .ok t => a.greeted (a.fresh id t)
  | some s, .connect _ => a.greeted { s with connected := true }
  | none, .process e => (none, .processed (.error (.sessionNotFound e.sessionId)))
  | some s, .process e => (some (a.after s (.process e.event)), .processed (a.delivery s e.event))
  | none, .handle e => (none, .handled (answer e.sessionId (.error (.sessionNotFound e.sessionId))))
  | some s, .handle e =>
    (some (a.after s (.process e.event)), .handled (answer e.sessionId (a.delivery s e.event)))
  | none, .disconnect _ => (none, .disconnected false)
  | some _, .disconnect _ => (none, .disconnected true)

variable {a a' a'' b : App} {id : String} {n : Nat} {s : Session} {s? s?' : Option Session}

/-- What a session does alone depends on the layout and the settings of the app only. -/
theorem alone_congr (hlayout : a.layout = b.layout) (hconfig : a.config = b.config)
    (s? : Option Session) (r : Request) : a.alone s? r = b.alone s? r := by
  have hafter : ∀ s job, a.after s job = b.after s job := fun s job => by
    cases job <;> simp only [after, program, hlayout]
  cases s? <;> cases r <;> simp only [alone, greeted, delivery, fresh, hafter, hlayout, hconfig]

/-! ### Sessions side by side -/

/-- No task is under way, and the registry is in order. -/
structure Orderly (a : App) : Prop where
  idle : a.IsIdle
  registered : a.Registered

/-- A new app is in order. -/
theorem orderly_create {l : Layout} {config : Config} (h : App.create l config = .ok a) :
    a.Orderly := by
  refine ⟨?_, registered_create h⟩
  unfold App.create at h
  obtain ⟨_, _, h⟩ := bind_eq_ok h
  obtain rfl := Except.ok.inj h
  exact nofun

/-- An identifier has a number and with it a session, or neither. -/
theorem Orderly.session_cases (h : a.Orderly) (id : String) :
    (a.number? id = none ∧ a.session? id = none) ∨
      ∃ n s, a.number? id = some n ∧ a.sessions[n]? = some s ∧ a.session? id = some s := by
  cases hn : a.number? id with
  | none => exact .inl ⟨rfl, session?_eq_none hn⟩
  | some n =>
    obtain ⟨s, hs, -⟩ := h.registered id n hn
    exact .inr ⟨n, s, rfl, hs, by rw [session?_of_number? hn, hs]⟩

/-- A change that makes the session of an id `s?` and leaves all others alone. -/
structure Touches (id : String) (a a' : App) (s? : Option Session) : Prop where
  orderly : a'.Orderly
  layout : a'.layout = a.layout
  config : a'.config = a.config
  session : a'.session? id = s?
  others : ∀ id', id' ≠ id → a'.session? id' = a.session? id'

/-- Doing nothing touches no session. -/
theorem Orderly.touches (h : a.Orderly) (hs : a.session? id = s?) : Touches id a a s? :=
  ⟨h, rfl, rfl, hs, fun _ _ => rfl⟩

/-- Two steps for one session touch that session only. -/
theorem Touches.trans (h : Touches id a a' s?') (h' : Touches id a' a'' s?) :
    Touches id a a'' s? where
  orderly := h'.orderly
  layout := h'.layout.trans h.layout
  config := h'.config.trans h.config
  session := h'.session
  others id' hne := (h'.others id' hne).trans (h.others id' hne)

/-- A session that is changed where it stands is changed for its own id only. -/
theorem Orderly.session?_modify (h : a.Orderly) (a' : App) (hn : a.number? id = some n)
    {f : Session → Session} (hnumber : ∀ id', id' ≠ id → a'.number? id' = a.number? id')
    (hsessions : a'.sessions = a.sessions.modify n f) {id' : String} (hne : id' ≠ id) :
    a'.session? id' = a.session? id' := by
  rw [session?, session?, hnumber id' hne, hsessions]
  cases hm : a.number? id' with
  | none => rfl
  | some m =>
    -- Another id has another number
    have hmn : n ≠ m := fun heq => hne (h.registered.number_inj hm (heq ▸ hn))
    simp [hmn]

/-- A job changes the tree of its own session only. -/
theorem Orderly.afterJob (h : a.Orderly) (hn : a.number? id = some n)
    (hs : a.sessions[n]? = some s) (job : Job) :
    Touches id a (a.afterJob n s job) (some (a.after s job)) where
  orderly := ⟨isIdle_afterJob h.idle,
    h.registered.modify (f := fun s' => { s' with tree := (a.after s job).tree }) (fun _ => rfl)
      (fun _ hc => hc) rfl rfl⟩
  layout := rfl
  config := rfl
  session := by
    -- The job writes the tree of one session and leaves the registry alone
    have hn' : (a.afterJob n s job).number? id = some n := hn
    rw [session?_of_number? hn', sessions_afterJob hs]
    rfl
  others _ hne := h.session?_modify (a.afterJob n s job) hn (fun _ _ => rfl) rfl hne

/-- Coming back marks one session as connected. -/
theorem Orderly.reattached (h : a.Orderly) (hn : a.number? id = some n)
    (hs : a.sessions[n]? = some s) :
    Touches id a (a.reattached n) (some { s with connected := true }) where
  orderly := ⟨h.idle, h.registered.reattached n⟩
  layout := rfl
  config := rfl
  session := by
    have hn' : (a.reattached n).number? id = some n := hn
    rw [session?_of_number? hn']
    simp [App.reattached, modifySession, hs]
  others _ hne := h.session?_modify (a.reattached n) hn (fun _ _ => rfl) rfl hne

/-- A new session is added behind the others. -/
theorem Orderly.withFresh (h : a.Orderly) (id : String) (t : Tree) :
    Touches id a (a.withFresh id t) (some (a.fresh id t)) where
  orderly := ⟨h.idle, h.registered.withFresh id t⟩
  layout := rfl
  config := rfl
  session := (session?_of_number? (number?_withFresh.trans (if_pos rfl))).trans
    (by simp [App.withFresh])
  others id' hne := by
    have hnumber : (a.withFresh id t).number? id' = a.number? id' :=
      number?_withFresh.trans (if_neg hne)
    rw [session?, session?, hnumber]
    -- Any other session stands where it stood, in front of the new one
    cases hm : a.number? id' with
    | none => rfl
    | some m => exact List.getElem?_append_left (h.registered.number_lt hm)

/-- A disconnect ends one session. -/
theorem Orderly.detached (h : a.Orderly) (hn : a.number? id = some n) :
    Touches id a (a.detached id n) none where
  orderly := ⟨h.idle, h.registered.detached hn⟩
  layout := rfl
  config := rfl
  session := session?_eq_none (number?_detached.trans (if_pos rfl))
  others _ hne := h.session?_modify (a.detached id n) hn
    (fun _ hne => number?_detached.trans (if_neg hne)) rfl hne

/-! ### One request -/

/-- An event is answered with what its session delivers. -/
theorem address_process (a : App) (s : Session) (e : Event) :
    address s ((a.program s (.process e)).result a.layout s.tree) = .deltas (a.delivery s e) := by
  have hprogram : a.program s (.process e) =
      (s.loop.dispatch a.layout e).bind fun r => .done (.updates r) := rfl
  rw [hprogram, Program.result_bind, delivery]
  cases (s.loop.dispatch a.layout e).result a.layout s.tree <;> rfl

/-- A client that has attached to a session gets its state. -/
theorem greet (hattach : a.attach id = .ok (a', n))
    (hn : a'.number? id = some n) (htouch : Touches id a a' (some s)) :
    Touches id a (a.connect id).1 (a.greeted s).1 ∧
      (a.connect id).2.map .state = some (a.greeted s).2 := by
  have hs : a'.sessions[n]? = some s := (session?_of_number? hn).symm.trans htouch.session
  have hjob := htouch.trans (htouch.orderly.afterJob hn hs .connect)
  rw [connect_eq htouch.orderly.idle hattach hs]
  simp only [greeted, after, program, htouch.layout] at hjob ⊢
  exact ⟨hjob, rfl⟩

/-- To connect touches and answers from the one session. -/
theorem Orderly.connect (h : a.Orderly) (id : String) :
    Touches id a (a.connect id).1 (a.alone (a.session? id) (.connect id)).1 ∧
      (a.connect id).2.map .state = some (a.alone (a.session? id) (.connect id)).2 := by
  rcases h.session_cases id with ⟨hn, hsession⟩ | ⟨n, s, hn, hs, hsession⟩
  · rw [hsession]
    -- A new session needs a tree, and without one nothing happens
    cases ht : Tree.start a.layout with
    | error e =>
      simp only [App.connect, attach_of_error hn ht, alone, ht]
      exact ⟨h.touches hsession, rfl⟩
    | ok t =>
      simp only [alone, ht]
      exact greet (attach_of_none hn ht) (number?_withFresh.trans (if_pos rfl))
        (h.withFresh id t)
  · rw [hsession]
    exact greet (attach_of_some hn) hn (h.reattached hn hs)

/-- So does an event, which is always answered. -/
theorem Orderly.process (h : a.Orderly) (e : InboundEvent) :
    ∃ result, (a.process e).2 = some result ∧
      Touches e.sessionId a (a.process e).1 (a.alone (a.session? e.sessionId) (.process e)).1 ∧
      (a.alone (a.session? e.sessionId) (.process e)).2 = .processed result := by
  rcases h.session_cases e.sessionId with ⟨hn, hsession⟩ | ⟨n, s, hn, hs, hsession⟩
  · rw [hsession]
    simp only [App.process, hn]
    exact ⟨_, rfl, h.touches hsession, rfl⟩
  · -- No task is left over, so the event runs to its end at once
    rw [hsession, process_eq h.idle hn hs, address_process]
    exact ⟨_, rfl, h.afterJob hn hs _, rfl⟩

/-- Handling is processing, except for the answer. -/
theorem handle_eq {e : InboundEvent} {result : Except DispatchError (List OutboundDelta)}
    (h : (a.process e).2 = some result) :
    a.handle e = ((a.process e).1, some (answer e.sessionId result)) := by
  rw [App.handle, show a.process e = ((a.process e).1, some result) from Prod.ext rfl h]

/-- A request is answered from its session, and leaves all others alone. -/
theorem Orderly.serve (h : a.Orderly) (r : Request) :
    Touches r.id a (a.serve r).1 (a.alone (a.session? r.id) r).1 ∧
      (a.serve r).2 = some (a.alone (a.session? r.id) r).2 := by
  cases r with
  | connect id => exact h.connect id
  | process e =>
    obtain ⟨result, hresult, htouch, halone⟩ := h.process e
    simp only [Request.id, App.serve, hresult, halone, Option.map_some, and_true]
    exact htouch
  | handle e =>
    obtain ⟨result, hresult, htouch, halone⟩ := h.process e
    simp only [Request.id, App.serve, handle_eq hresult]
    cases hsession : a.session? e.sessionId with
    | none =>
      simp only [hsession, alone, Answer.processed.injEq] at htouch halone ⊢
      exact ⟨htouch, by rw [← halone]; rfl⟩
    | some s =>
      simp only [hsession, alone, Answer.processed.injEq] at htouch halone ⊢
      exact ⟨htouch, by rw [← halone]; rfl⟩
  | disconnect id =>
    simp only [Request.id, App.serve]
    -- A disconnect of an identifier that is not in use does nothing
    rcases h.session_cases id with ⟨hn, hsession⟩ | ⟨n, s, hn, hs, hsession⟩
    · rw [hsession, disconnect_of_none hn]
      exact ⟨h.touches hsession, rfl⟩
    · rw [hsession, disconnect_of_some hn]
      exact ⟨h.detached hn, rfl⟩

/-! ### All requests -/

/-- Every request of a run is answered. -/
theorem Orderly.isSome_log (h : a.Orderly) (rs : List Request) :
    ∀ x ∈ a.log rs, x.2.isSome = true := by
  induction rs generalizing a with
  | nil => nofun
  | cons r rs ih =>
    obtain ⟨htouch, hanswer⟩ := h.serve r
    refine List.forall_mem_cons.2 ⟨?_, ih htouch.orderly⟩
    rw [hanswer]
    rfl

/-- Two apps that agree on a session answer the requests for it alike, whatever else is asked of the
first one. -/
theorem Orderly.log_filter (ha : a.Orderly) (hb : b.Orderly) (hlayout : a.layout = b.layout)
    (hconfig : a.config = b.config) (hsession : a.session? id = b.session? id)
    (rs : List Request) : (a.log rs).filter (fun x => x.1.id = id) =
      b.log (rs.filter fun r => r.id = id) := by
  induction rs generalizing a b with
  | nil => rfl
  | cons r rs ih =>
    obtain ⟨htouch, hanswer⟩ := ha.serve r
    -- A request for the session is served alike in both apps; any other one leaves it alone in the
    -- first
    by_cases hr : r.id = id
    · subst hr
      obtain ⟨htouch', hanswer'⟩ := hb.serve r
      have halone := alone_congr hlayout hconfig (a.session? r.id) r
      rw [hsession] at halone hanswer htouch
      simp only [log, List.filter_cons, decide_true, if_true, hanswer, hanswer', halone]
      rw [ih htouch.orderly htouch'.orderly (by rw [htouch.layout, htouch'.layout, hlayout])
        (by rw [htouch.config, htouch'.config, hconfig])
        (by rw [htouch.session, htouch'.session, halone])]
    · simp only [log, List.filter_cons, hr, decide_false, Bool.false_eq_true, if_false]
      exact ih htouch.orderly hb (htouch.layout.trans hlayout) (htouch.config.trans hconfig)
        ((htouch.others id fun heq => hr heq.symm).trans hsession)

/-- Sessions are isolated: every request is answered, and the answers to those for one id are the
same in the run in which no other id is named. -/
theorem log_filter_eq {l : Layout} {config : Config} (h : App.create l config = .ok a)
    (rs : List Request) (id : String) :
    (∀ x ∈ a.log rs, x.2.isSome = true) ∧
      (a.log rs).filter (fun x => x.1.id = id) = a.log (rs.filter fun r => r.id = id) :=
  ⟨(orderly_create h).isSome_log rs,
    (orderly_create h).log_filter (orderly_create h) rfl rfl rfl rs⟩

/-- The event that jams the counter of a client. -/
def jamFor (id : String) : InboundEvent := ⟨"app.jam", [], id⟩

/-- A client whose event jams its counter does not notice that another one connects, leaves and
comes back. -/
theorem log_filter_eq_counter :
    let a : App := ⟨Layout.counter, {}, [], [], [], []⟩
    (a.log [.connect "x", .connect "y", .handle (jamFor "y"), .disconnect "x", .connect "x",
        .handle (jamFor "y")]).filter (fun x => x.1.id = "y") =
      a.log [.connect "y", .handle (jamFor "y"), .handle (jamFor "y")] := by
  have hcreate : App.create Layout.counter {} = .ok ⟨Layout.counter, {}, [], [], [], []⟩ := rfl
  exact (log_filter_eq hcreate _ "y").2

end App

end ReactiveState
