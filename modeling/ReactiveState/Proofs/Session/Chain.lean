import ReactiveState.EventLoop
import ReactiveState.Proofs.Flush.Settle
import ReactiveState.Proofs.Program.Scoped

/-!
# Chains of events

What an event loop makes of one inbound event.  Handlers may do anything to the tree, fail, and
return any events, their own among them.

A `Dispatched` is one event whose handler ran.  `Ran` puts such events one after another, each
handler on the tree that the flush after the one before left.  `IsChain` collects the rules of a
chain: events are taken first in, first out; each update tells the flush right after its handler;
the last update is the final one and the only one with an error; and there are no more handlers than
the limit.  Every inbound event is refused or leads to such a chain (`run_refused_or_isChain`).

`Ending` lists the ways in which a chain ends.
-/

namespace ReactiveState

/-! ### One event -/

/-- Whatever the handler did, what the flush delivers is told. -/
theorem outcome_fst (handled : Except HandlerError (List Event))
    (flushed : Except FlushError Delta) :
    (EventLoop.outcome handled flushed).1 = Tree.delivered flushed := by
  cases flushed <;> cases handled <;> rfl

/-- What a chain does after the flush of an event, by what the event and the flush gave. -/
def afterFlush (l : Layout) (limit left : Nat) (e : Event) (queue : List Event) :
    Delta × Except HandlerError (List Event) → Program (List StateUpdate)
  | (delta, .error error) => .done [.failed e.handler delta error.message]
  | (delta, .ok followUps) =>
    (EventLoop.chain l limit left (queue ++ followUps)).bind fun updates =>
      .done (⟨e.handler, delta, none, (queue ++ followUps).isEmpty⟩ :: updates)

variable {l : Layout}

/-- An event of a chain: its handler, the flush, and the rest. -/
theorem chain_cons {limit left : Nat} {e : Event} {queue : List Event} {path : String}
    {handler : Handler} (h : l.resolveHandler? e.handler = some (path, handler)) :
    EventLoop.chain l limit (left + 1) (e :: queue) =
      (handler.run path e.args).bind fun handled => .flush fun flushed =>
        afterFlush l limit left e queue (EventLoop.outcome handled flushed) := by
  simp only [EventLoop.chain, h]
  refine congrArg (Program.bind (handler.run path e.args)) ?_
  funext handled
  refine congrArg Program.flush ?_
  funext flushed
  simp only [Program.bind]
  -- Both sides stop on an error and go on with the follow-ups otherwise
  rcases EventLoop.outcome handled flushed with ⟨delta, _ | followUps⟩ <;> rfl

namespace EventLoop

/-- One event of a chain whose handler ran. -/
structure Dispatched where
  event : Event
  /-- The container of the handler. -/
  path : String
  handler : Handler
  /-- The tree that the handler started on. -/
  start : Tree

namespace Dispatched

/-- What the handler gave. -/
def handled (l : Layout) (d : Dispatched) : Except HandlerError (List Event) :=
  (d.handler.run d.path d.event.args).result l d.start

/-- The tree right after the handler. -/
def left (l : Layout) (d : Dispatched) : Tree :=
  (d.handler.run d.path d.event.args).treeAfter l d.start

/-- The notes that the handler left. -/
def notes (l : Layout) (d : Dispatched) : List Note :=
  (d.handler.run d.path d.event.args).notes l d.start

/-- The flush right after the handler. -/
def flushed (l : Layout) (d : Dispatched) : Except FlushError Delta :=
  (Tree.flush l (d.left l)).1

/-- The tree after the flush. -/
def flushedTree (l : Layout) (d : Dispatched) : Tree :=
  (Tree.flush l (d.left l)).2

/-- The failure of the handler, or else that of the flush. -/
def failure? (l : Layout) (d : Dispatched) : Option HandlerError :=
  match d.handled l, d.flushed l with
  | .error e, _ => some e
  | .ok _, .error e => some (.state e.error)
  | .ok _, .ok _ => none

/-- The events that are queued: those that the handler returned, unless something failed. -/
def followUps (l : Layout) (d : Dispatched) : List Event :=
  match d.handled l, d.flushed l with
  | .ok events, .ok _ => events
  | _, _ => []

/-- What the client is told. -/
def update (l : Layout) (d : Dispatched) (isFinal : Bool) : StateUpdate where
  handler := d.event.handler
  delta := Tree.delivered (d.flushed l)
  error := (d.failure? l).map HandlerError.message
  isFinal := isFinal

/-- The outcome of an event: the delta of its flush, and the follow-ups unless something failed. -/
theorem outcome_eq (l : Layout) (d : Dispatched) :
    outcome (d.handled l) (d.flushed l) =
      (Tree.delivered (d.flushed l), match d.failure? l with
        | some e => .error e
        | none => .ok (d.followUps l)) := by
  unfold failure? followUps
  cases d.handled l <;> cases d.flushed l <;> rfl

/-- An event that failed has no follow-ups. -/
theorem followUps_of_failure {d : Dispatched} {e : HandlerError} (h : d.failure? l = some e) :
    d.followUps l = [] := by
  unfold failure? at h
  unfold followUps
  -- Events are queued only if neither the handler nor the flush has failed
  cases hh : d.handled l with
  | error _ => rfl
  | ok _ =>
    cases hf : d.flushed l with
    | error _ => rfl
    | ok _ => simp [hh, hf] at h

end Dispatched

/-! ### Many events -/

/-- These events ran one after another, the first on the first tree; the last one left the last
tree. -/
inductive Ran (l : Layout) : Tree → List Dispatched → Tree → Prop where
  | nil (t : Tree) : Ran l t [] t
  | cons {d : Dispatched} {ds : List Dispatched} {t : Tree}
    (found : l.resolveHandler? d.event.handler = some (d.path, d.handler))
    (rest : Ran l (d.flushedTree l) ds t) : Ran l d.start (d :: ds) t

/-- How a chain ends after some of its events ran, by the events that are still queued, and what the
client is told besides the updates of the events that ran.  At most `left` events may run. -/
inductive Ending (l : Layout) (limit left : Nat) (ds : List Dispatched) :
    List Event → List StateUpdate → Prop where
  /-- A handler or a flush failed, and what was queued is dropped. -/
  | failed {pending : List Event} (h : ∃ d ∈ ds, d.failure? l ≠ none) :
    Ending l limit left ds pending []
  /-- Nothing is queued. -/
  | drained (h : ∀ d ∈ ds, d.failure? l = none) : Ending l limit left ds [] []
  /-- The next event names no handler. -/
  | unknown {e : Event} {queue : List Event} (h : ∀ d ∈ ds, d.failure? l = none)
    (hlt : ds.length < left) (hnone : l.resolveHandler? e.handler = none) :
    Ending l limit left ds (e :: queue)
      [.failed e.handler .empty (DispatchError.handlerNotFound e.handler).message]
  /-- No more events may run. -/
  | limit {e : Event} {queue : List Event} (h : ∀ d ∈ ds, d.failure? l = none)
    (heq : ds.length = left) :
    Ending l limit left ds (e :: queue)
      [.failed e.handler .empty (DispatchError.eventChainLimit limit).message]

/-- The last update is the final one, and no other carries an error. -/
def EndsFinal (us : List StateUpdate) : Prop :=
  ∃ before last, us = before ++ [last] ∧ last.isFinal = true ∧
    ∀ u ∈ before, u.isFinal = false ∧ u.error = none

variable {limit left : Nat} {t : Tree} {e : Event} {queue pending : List Event}
  {d : Dispatched} {ds : List Dispatched} {us extra : List StateUpdate}

/-- What ends the rest of a chain ends the whole of it, if the first event did not fail. -/
theorem Ending.cons (hd : d.failure? l = none) (h : Ending l limit left ds pending extra) :
    Ending l limit (left + 1) (d :: ds) pending extra := by
  -- The reason why the chain ends is the same
  cases h with
  | failed h =>
    obtain ⟨d', hd', hfail⟩ := h
    exact .failed ⟨d', List.mem_cons_of_mem d hd', hfail⟩
  | drained h => exact .drained (List.forall_mem_cons.2 ⟨hd, h⟩)
  | unknown h hlt hnone =>
    exact .unknown (List.forall_mem_cons.2 ⟨hd, h⟩) (by simpa using hlt) hnone
  | limit h heq => exact .limit (List.forall_mem_cons.2 ⟨hd, h⟩) (by simpa using heq)

/-- At most one update says why the next event does not run. -/
theorem Ending.length_le (h : Ending l limit left ds pending extra) : extra.length ≤ 1 := by
  cases h <;> simp

/-- An update with an error is a final one. -/
theorem endsFinal_failed (handler : String) (delta : Delta) (error : String) :
    EndsFinal [.failed handler delta error] :=
  ⟨[], _, rfl, rfl, nofun⟩

/-- An update in front of the others is not the final one and carries no error. -/
theorem EndsFinal.cons {u : StateUpdate} (h : EndsFinal us) (hfinal : u.isFinal = false)
    (herror : u.error = none) : EndsFinal (u :: us) := by
  obtain ⟨before, last, rfl, hlast, hbefore⟩ := h
  exact ⟨u :: before, last, rfl, hlast, List.forall_mem_cons.2 ⟨⟨hfinal, herror⟩, hbefore⟩⟩

/-- What the rest of a chain does with a queue. -/
structure ChainFrom (l : Layout) (limit left : Nat) (queue : List Event) (t : Tree)
    (us : List StateUpdate) (t' : Tree) (notes : List Note) (ds : List Dispatched)
    (pending : List Event) : Prop where
  ran : Ran l t ds t'
  noted : notes = ds.flatMap (·.notes l)
  fifo : queue ++ ds.flatMap (·.followUps l) = ds.map (·.event) ++ pending
  length_le : ds.length ≤ left
  told : ∀ (i : Nat) (d : Dispatched), ds[i]? = some d →
    ∃ isFinal, us[i]? = some (d.update l isFinal)
  ending : Ending l limit left ds pending (us.drop ds.length)
  nil : queue = [] → us = []
  last : queue ≠ [] → EndsFinal us

/-- With nothing queued nothing happens. -/
theorem chainFrom_nil : ChainFrom l limit left [] t [] t [] [] [] where
  ran := .nil t
  noted := rfl
  fifo := rfl
  length_le := Nat.zero_le left
  told := by simp
  ending := .drained nofun
  nil _ := rfl
  last h := absurd rfl h

/-- Nothing runs, and the client is told about the first event in the queue. -/
theorem chainFrom_refused {error : String}
    (h : Ending l limit left [] (e :: queue) [.failed e.handler .empty error]) :
    ChainFrom l limit left (e :: queue) t [.failed e.handler .empty error] t [] []
      (e :: queue) where
  ran := .nil t
  noted := rfl
  fifo := by simp
  length_le := Nat.zero_le _
  told := by simp
  ending := h
  nil := nofun
  last _ := endsFinal_failed _ _ _

/-- The event ran and failed, so that the queue is dropped. -/
theorem chainFrom_failed {error : HandlerError}
    (found : l.resolveHandler? d.event.handler = some (d.path, d.handler))
    (h : d.failure? l = some error) :
    ChainFrom l limit (left + 1) (d.event :: queue) d.start
      [.failed d.event.handler (Tree.delivered (d.flushed l)) error.message] (d.flushedTree l)
      (d.notes l) [d] queue where
  ran := .cons found (.nil _)
  noted := by simp
  fifo := by simp [Dispatched.followUps_of_failure h]
  length_le := by simp
  told i d' hi := by
    cases i with
    | zero =>
      obtain rfl : d = d' := by simpa using hi
      exact ⟨true, by simp [Dispatched.update, h, StateUpdate.failed]⟩
    | succ i => simp at hi
  -- What is queued stays behind, so nothing more is said
  ending := .failed ⟨d, List.mem_singleton_self d, by simp [h]⟩
  nil := nofun
  last _ := endsFinal_failed _ _ _

/-- The event ran without failure, and its follow-ups are queued behind the others. -/
theorem ChainFrom.cons {t' : Tree} {notes : List Note}
    (found : l.resolveHandler? d.event.handler = some (d.path, d.handler))
    (hd : d.failure? l = none)
    (h : ChainFrom l limit left (queue ++ d.followUps l) (d.flushedTree l) us t' notes ds
      pending) :
    ChainFrom l limit (left + 1) (d.event :: queue) d.start
      (d.update l (queue ++ d.followUps l).isEmpty :: us) t' (d.notes l ++ notes) (d :: ds)
      pending where
  ran := .cons found h.ran
  noted := by simp [h.noted]
  fifo := by simpa using h.fifo
  length_le := by simpa using h.length_le
  told i d' hi := by
    cases i with
    | zero =>
      -- The first update is of this event, the others are of those that follow
      obtain rfl : d = d' := by simpa using hi
      exact ⟨_, rfl⟩
    | succ i => exact h.told i d' (by simpa using hi)
  ending := h.ending.cons hd
  nil := nofun
  last _ := by
    have herror : ∀ isFinal, (d.update l isFinal).error = none := fun _ => by
      simp [Dispatched.update, hd]
    -- The update is final exactly if nothing is queued, and then none follows
    cases hqueue : queue ++ d.followUps l with
    | nil => exact ⟨[], _, by rw [h.nil hqueue]; rfl, rfl, nofun⟩
    | cons e queue' =>
      have hne : queue ++ d.followUps l ≠ [] := by simp [hqueue]
      exact (h.last hne).cons rfl (herror _)

/-- The handler of the first event, the flush after it, and what the chain does then. -/
theorem chain_run (limit left : Nat) (queue : List Event)
    (found : l.resolveHandler? d.event.handler = some (d.path, d.handler)) :
    (chain l limit (left + 1) (d.event :: queue)).result l d.start =
        (afterFlush l limit left d.event queue (outcome (d.handled l) (d.flushed l))).result l
          (d.flushedTree l) ∧
      (chain l limit (left + 1) (d.event :: queue)).treeAfter l d.start =
        (afterFlush l limit left d.event queue (outcome (d.handled l) (d.flushed l))).treeAfter l
          (d.flushedTree l) ∧
      (chain l limit (left + 1) (d.event :: queue)).notes l d.start = d.notes l ++
        (afterFlush l limit left d.event queue (outcome (d.handled l) (d.flushed l))).notes l
          (d.flushedTree l) := by
  -- The chain is a sequence of two programs, which run one after the other
  rw [chain_cons found, Program.result_bind, Program.treeAfter_bind, Program.notes_bind]
  exact ⟨rfl, rfl, rfl⟩

/-- A chain obeys the rules, with these events and with these left in the queue. -/
def Obeys (l : Layout) (limit left : Nat) (queue : List Event) (t : Tree) : Prop :=
  ∃ ds pending, ChainFrom l limit left queue t ((chain l limit left queue).result l t)
    ((chain l limit left queue).treeAfter l t) ((chain l limit left queue).notes l t) ds pending

/-- The step: a chain whose first event runs obeys the rules if the rest of it does. -/
theorem obeys_cons (limit left : Nat) (queue : List Event)
    (found : l.resolveHandler? d.event.handler = some (d.path, d.handler))
    (hrest : ∀ queue t, Obeys l limit left queue t) :
    Obeys l limit (left + 1) (d.event :: queue) d.start := by
  obtain ⟨hresult, htree, hnotes⟩ := chain_run limit left queue found
  unfold Obeys
  rw [hresult, htree, hnotes, Dispatched.outcome_eq]
  -- A failure drops the queue; otherwise the follow-ups stand behind it and the rest obeys by
  -- assumption
  cases hfail : d.failure? l with
  | some error =>
    have hchain : ChainFrom l limit (left + 1) (d.event :: queue) d.start _ (d.flushedTree l)
        (d.notes l) [d] queue := chainFrom_failed found hfail
    rw [← List.append_nil (d.notes l)] at hchain
    exact ⟨[d], queue, hchain⟩
  | none =>
    obtain ⟨ds, pending, hchain⟩ := hrest (queue ++ d.followUps l) (d.flushedTree l)
    have hcons := hchain.cons found hfail
    simp only [Dispatched.update, hfail, Option.map_none] at hcons
    simp only [afterFlush]
    rw [Program.result_bind, Program.treeAfter_bind, Program.notes_bind]
    rw [← List.append_nil (Program.notes l _ _)] at hcons
    exact ⟨d :: ds, pending, hcons⟩

/-- Every chain obeys the rules, by induction on the number of events that may still run. -/
theorem obeys (l : Layout) (limit left : Nat) (queue : List Event) (t : Tree) :
    Obeys l limit left queue t := by
  induction left generalizing queue t with
  | zero =>
    cases queue with
    -- Nothing is queued, or the limit is reached
    | nil => exact ⟨[], [], chainFrom_nil⟩
    | cons e queue => exact ⟨[], e :: queue, chainFrom_refused (.limit nofun rfl)⟩
  | succ left ih =>
    cases queue with
    | nil => exact ⟨[], [], chainFrom_nil⟩
    | cons e queue =>
      cases hfound : l.resolveHandler? e.handler with
      | none =>
        unfold Obeys
        simp only [chain, hfound]
        exact ⟨[], e :: queue, chainFrom_refused (.unknown nofun (Nat.zero_lt_succ left) hfound)⟩
      | some found => exact obeys_cons (d := ⟨e, found.1, found.2, t⟩) limit left queue hfound ih

/-! ### Inbound events -/

/-- The rules of a chain. -/
structure IsChain (l : Layout) (limit : Nat) (t : Tree) (e : Event) (us : List StateUpdate)
    (t' : Tree) (notes : List Note) (ds : List Dispatched) (pending : List Event) : Prop where
  /-- Each handler runs on the tree that the flush after the one before left. -/
  ran : Ran l t ds t'
  /-- No other handler runs: what a watcher sees is what these left, one after another. -/
  noted : notes = ds.flatMap (·.notes l)
  /-- The inbound event and the follow-ups, in the order in which handlers returned them, are the
  events that ran and then those that are still queued. -/
  fifo : e :: ds.flatMap (·.followUps l) = ds.map (·.event) ++ pending
  dispatched_le : ds.length ≤ limit
  updates_le : us.length ≤ limit + 1
  /-- There is an update; the last one is the final one, and no other carries an error. -/
  last : EndsFinal us
  /-- Each handler has its update, with the flush right after it. -/
  told : ∀ (i : Nat) (d : Dispatched), ds[i]? = some d →
    ∃ isFinal, us[i]? = some (d.update l isFinal)
  /-- Besides these there is at most one update, with the reason why the next event does not run. -/
  ending : Ending l limit limit ds pending (us.drop ds.length)
  /-- The limit is reported exactly if events are queued after so many of them ran without
  failure. -/
  limit_iff : (∃ handler, us[limit]? =
      some (.failed handler .empty (DispatchError.eventChainLimit limit).message)) ↔
    ds.length = limit ∧ (∀ d ∈ ds, d.failure? l = none) ∧ pending ≠ []

/-- The updates are those of the events that ran and those that say why it ended. -/
theorem ChainFrom.length_eq {t' : Tree} {notes : List Note}
    (h : ChainFrom l limit left queue t us t' notes ds pending) :
    us.length = ds.length + (us.drop ds.length).length := by
  have hle : ds.length ≤ us.length := by
    -- Else there would be an event that ran and has no update
    by_contra hlt
    have hd : us.length < ds.length := by omega
    obtain ⟨isFinal, hu⟩ := h.told us.length _ (List.getElem?_eq_getElem hd)
    simp at hu
  simp
  omega

/-- The update at the limit is there exactly if the chain ends there. -/
theorem ChainFrom.limit_iff {t' : Tree} {notes : List Note}
    (h : ChainFrom l limit limit queue t us t' notes ds pending) :
    (∃ handler, us[limit]? =
        some (.failed handler .empty (DispatchError.eventChainLimit limit).message)) ↔
      ds.length = limit ∧ (∀ d ∈ ds, d.failure? l = none) ∧ pending ≠ [] := by
  have hle := h.length_le
  have hget : us[limit]? = (us.drop ds.length)[limit - ds.length]? := by
    rw [List.getElem?_drop]
    congr 1
    omega
  rw [hget]
  have hending := h.ending
  -- What stands at the limit is one of the updates behind those of the events, if there is any
  generalize us.drop ds.length = extra at hending
  cases hending with
  | failed hfail =>
    obtain ⟨d, hd, hne⟩ := hfail
    simp only [List.getElem?_nil, reduceCtorEq, exists_false, false_iff]
    -- An event failed, so the chain did not end at the limit
    exact fun hok => hne (hok.2.1 d hd)
  | drained hok => simp
  | unknown hok hlt hnone =>
    -- The update about the unknown handler stands before the limit
    have hnone' : ∀ u : StateUpdate, [u][limit - ds.length]? = none := fun u => by
      rw [List.getElem?_eq_none_iff, List.length_singleton]
      omega
    simp [hnone', Nat.ne_of_lt hlt]
  | limit hok heq => simpa [heq, StateUpdate.failed] using hok

/-- What starts with one event obeys the rules of a chain. -/
theorem ChainFrom.isChain {t' : Tree} {notes : List Note}
    (h : ChainFrom l limit limit [e] t us t' notes ds pending) :
    IsChain l limit t e us t' notes ds pending where
  ran := h.ran
  noted := h.noted
  fifo := h.fifo
  dispatched_le := h.length_le
  -- One update for every event that ran, and at most one more
  updates_le := by
    have hextra := h.ending.length_le
    have hlength := h.length_eq
    have hle := h.length_le
    omega
  last := h.last (List.cons_ne_nil e [])
  told := h.told
  ending := h.ending
  limit_iff := h.limit_iff

/-- An event whose handler is there starts a chain with nothing else queued. -/
theorem dispatch_eq_chain {found : String × Handler} (loop : EventLoop)
    (hfound : l.resolveHandler? e.handler = some found) :
    loop.dispatch l e =
      (chain l loop.maxChain loop.maxChain [e]).bind fun us => .done (.ok us) := by
  simp only [dispatch, hfound]
  rfl

/-- The chain runs to its end, and then the loop is idle. -/
theorem run_eq_chain {found : String × Handler} (loop : EventLoop) (t : Tree)
    (hfound : l.resolveHandler? e.handler = some found) :
    loop.run l t e =
      (.ok ((chain l loop.maxChain loop.maxChain [e]).result l t), { loop with phase := .idle },
        (chain l loop.maxChain loop.maxChain [e]).treeAfter l t,
        (chain l loop.maxChain loop.maxChain [e]).notes l t) := by
  have hdispatch := dispatch_eq_chain loop hfound
  have hresult : (loop.dispatch l e).result l t =
      .ok ((chain l loop.maxChain loop.maxChain [e]).result l t) := by
    rw [hdispatch, Program.result_bind]
    rfl
  have htree : (loop.dispatch l e).treeAfter l t =
      (chain l loop.maxChain loop.maxChain [e]).treeAfter l t := by
    rw [hdispatch, Program.treeAfter_bind]
    rfl
  have hnotes : (loop.dispatch l e).notes l t =
      (chain l loop.maxChain loop.maxChain [e]).notes l t := by
    rw [hdispatch, Program.notes_bind]
    exact List.append_nil _
  have hended : (loop.dispatch l e).run l t =
      ((loop.dispatch l e).result l t, (loop.dispatch l e).treeAfter l t,
        (loop.dispatch l e).notes l t) := rfl
  rw [hresult, htree, hnotes] at hended
  rw [run, hended]

/-- An inbound event without a handler is refused and leaves the loop and the tree alone.  Any other
leads to a chain, whatever the handlers do, and the loop is idle afterwards. -/
theorem run_refused_or_isChain (loop : EventLoop) (l : Layout) (t : Tree) (e : Event) :
    (l.resolveHandler? e.handler = none ∧
        loop.run l t e = (.error (.handlerNotFound e.handler), loop, t, [])) ∨
      (l.resolveHandler? e.handler).isSome = true ∧ ∃ us t' notes,
        loop.run l t e = (.ok us, { loop with phase := .idle }, t', notes) ∧
          ∃ ds pending, IsChain l loop.maxChain t e us t' notes ds pending := by
  cases hfound : l.resolveHandler? e.handler with
  | none =>
    refine .inl ⟨rfl, ?_⟩
    simp only [run, dispatch, hfound, Program.run]
  | some found =>
    obtain ⟨ds, pending, h⟩ := obeys l loop.maxChain loop.maxChain [e] t
    exact .inr ⟨rfl, _, _, _, run_eq_chain loop t hfound, ds, pending, h.isChain⟩

end EventLoop

end ReactiveState
