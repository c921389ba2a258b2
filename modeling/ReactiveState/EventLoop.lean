import ReactiveState.Program.Run

/-! # Event loops

One inbound event starts a chain: its handler runs, the tree is flushed, and the events that the
handler returned are queued behind those already waiting.  Each handler gives one update.  The chain
stops when no event is left, when a handler or a flush fails, when an event names no handler, or
when it has grown to its limit; only the last update is final, and only the last one may carry an
error.

A handler that fails keeps what it did to the tree, and a flush that fails still delivers the
rest. -/

namespace ReactiveState

/-- What one event of a chain did. -/
structure StateUpdate where
  /-- The path of the handler. -/
  handler : String
  delta : Delta
  /-- The text of the error that stopped the chain. -/
  error : Option String
  isFinal : Bool

/-- The last update of a chain that an error stopped. -/
def StateUpdate.failed (handler : String) (delta : Delta) (error : String) : StateUpdate :=
  ⟨handler, delta, some error, true⟩

/-- What a loop is doing.  Only what runs inside a chain could see a phase other than idle. -/
inductive LoopPhase where
  | idle
  | dispatching
  | flushing
deriving DecidableEq, Repr

/-- The event loop of one session. -/
structure EventLoop where
  phase : LoopPhase
  /-- The most events that one inbound event may lead to, itself included. -/
  maxChain : Nat
deriving DecidableEq, Repr

namespace EventLoop

/-- The limit of a chain where none is configured. -/
def defaultMaxChain : Nat := 1024

/-- An idle loop.  At least the inbound event itself is dispatched. -/
def create (maxChain : Nat) : EventLoop := ⟨.idle, max maxChain 1⟩

/-- The result of a handler and of the flush after it; the handler's own failure goes first. -/
def outcome (handled : Except HandlerError (List Event)) (flushed : Except FlushError Delta) :
    Delta × Except HandlerError (List Event) :=
  match flushed, handled with
  | .ok delta, handled => (delta, handled)
  | .error e, .ok _ => (e.delta, .error (.state e.error))
  | .error e, .error handlerError => (e.delta, .error handlerError)

/-- Dispatches queued events, as many as are left until the limit.

There is no exit for a handler whose container is missing: a handler is only found in a container of
the layout (`Layout.exists_container?_of_resolveHandler?`), and a tree has a scope for each of those
(`Tree.Finds.scope`). -/
def chain (l : Layout) (limit : Nat) : Nat → List Event → Program (List StateUpdate)
  | _, [] => .done []
  | 0, e :: _ =>
    .done [.failed e.handler .empty (DispatchError.eventChainLimit limit).message]
  | left + 1, e :: queue =>
    match l.resolveHandler? e.handler with
    | none => .done [.failed e.handler .empty (DispatchError.handlerNotFound e.handler).message]
    | some (path, handler) => do
      let handled ← handler.run path e.args
      -- The tree is flushed whether or not the handler failed
      let flushed ← Program.flush .done
      match outcome handled flushed with
      | (delta, .error error) => return [.failed e.handler delta error.message]
      | (delta, .ok followUps) =>
        -- First in, first out: what was queued earlier goes first
        let queue := queue ++ followUps
        let updates ← chain l limit left queue
        return ⟨e.handler, delta, none, queue.isEmpty⟩ :: updates

/-- What a loop does for an inbound event.  An event without a handler is refused before anything is
done. -/
def dispatch (loop : EventLoop) (l : Layout) (e : Event) :
    Program (Except DispatchError (List StateUpdate)) :=
  match l.resolveHandler? e.handler with
  | none => .done (.error (.handlerNotFound e.handler))
  | some _ => do
    let updates ← chain l loop.maxChain loop.maxChain [e]
    return .ok updates

/-- Dispatches an inbound event on a tree, to the end of its chain.  The loop is idle again
afterwards; an event that is refused leaves it as it was. -/
def run (loop : EventLoop) (l : Layout) (t : Tree) (e : Event) :
    Except DispatchError (List StateUpdate) × EventLoop × Tree × List Note :=
  match (loop.dispatch l e).run l t with
  | (.error e, t, notes) => (.error e, loop, t, notes)
  | (.ok updates, t, notes) => (.ok updates, { loop with phase := .idle }, t, notes)

end EventLoop

end ReactiveState
