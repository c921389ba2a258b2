import ReactiveState.Config
import ReactiveState.Payload

/-! # Apps

An `App` serves the sessions of one layout.  Clients connect under an id, send events and
disconnect; each session has a tree of its own.  A session that is disconnected and connected again
is a new one, even under the same id.

Whatever needs the tree of a session runs as a `Task`, and on one session tasks run one after
another in the order in which they were started.  A handler that pauses keeps the session to itself:
its task is suspended, the session is busy, and later tasks of the session wait.  `start` begins a
task, `resume` goes on with a suspended one, and whenever a task ends the next one of its session
runs.

A task that was started on a session delivers nothing once that session is disconnected.

Nothing here takes time: how long a session has been idle is told from outside.  Nor is a task ever
dropped: it runs to its end, or it stays suspended and keeps its session. -/

namespace ReactiveState

/-- One client's state. -/
structure Session where
  id : String
  tree : Tree
  loop : EventLoop
  connected : Bool

/-- What a task does on its session. -/
inductive Job where
  | process (event : Event)
  | connect

/-- What came out of a job, before it is addressed to the client. -/
inductive Outcome where
  | updates (result : Except DispatchError (List StateUpdate))
  | state (result : Except StateError Delta)

/-- What a task delivers. -/
inductive Reply where
  | deltas (result : Except DispatchError (List OutboundDelta))
  | state (result : Except StateError Delta)

/-- Where a task is. -/
inductive TaskStatus where
  /-- Another task has the session. -/
  | waiting (job : Job)
  /-- Paused, with the session kept. -/
  | suspended (rest : Program Outcome)
  | finished (reply : Reply)

/-- A job on a session. -/
structure Task where
  /-- The number of the session. -/
  session : Nat
  status : TaskStatus

/-- The sessions of one layout. -/
structure App where
  layout : Layout
  config : Config
  /-- The number of the session that is connected under an id. -/
  registry : List (String × Nat)
  /-- Every session there was, by number. -/
  sessions : List Session
  /-- Every task there was, in the order of their starts. -/
  tasks : List Task
  /-- What handlers left for a watcher. -/
  notes : List Note

namespace App

/-- An app without sessions. -/
def create (layout : Layout) (config : Config) : Except ConfigError App := do
  config.validate
  return ⟨layout, config, [], [], [], []⟩

/-- The number of the session that is connected under an id. -/
def number? (a : App) (id : String) : Option Nat :=
  KeyMap.find? id a.registry

/-- The session that is connected under an id. -/
def session? (a : App) (id : String) : Option Session :=
  (a.number? id).bind fun n => a.sessions[n]?

/-- How many sessions are connected. -/
def sessionCount (a : App) : Nat := a.registry.length

/-- Changes a session. -/
def modifySession (a : App) (n : Nat) (f : Session → Session) : App :=
  { a with sessions := a.sessions.modify n f }

/-- Changes a task. -/
def setStatus (a : App) (i : Nat) (status : TaskStatus) : App :=
  { a with tasks := a.tasks.modify i fun task => { task with status := status } }

/-- Whether a suspended task keeps the session to itself. -/
def isBusyNumber (a : App) (n : Nat) : Bool :=
  a.tasks.any fun task => task.session = n && match task.status with
    | .suspended _ => true
    | _ => false

/-- Whether the session under an id is kept by a suspended task. -/
def isBusy (a : App) (id : String) : Bool :=
  match a.number? id with
  | some n => a.isBusyNumber n
  | none => false

/-! ### Tasks -/

/-- What a job does on a session. -/
def program (a : App) (s : Session) : Job → Program Outcome
  | .process e => do
    let r ← s.loop.dispatch a.layout e
    return .updates r
  | .connect => do
    let r ← Program.snapshot .done
    return .state r

/-- What is delivered of an outcome.  The updates of a session that is no longer connected are
dropped. -/
def address (s : Session) : Outcome → Reply
  | .updates (.error e) => .deltas (.error e)
  | .updates (.ok us) =>
    .deltas (.ok (if s.connected then us.map (OutboundDelta.ofUpdate s.id) else []))
  | .state r => .state r

/-- Runs a task's program on its session, up to the next pause or, with `toEnd`, past all pauses. -/
def proceed (a : App) (toEnd : Bool) (i n : Nat) (s : Session) (p : Program Outcome) : App :=
  let (progress, t, notes) :=
    if toEnd then
      let (r, t, notes) := p.run a.layout s.tree
      (.finished r, t, notes)
    else p.advance a.layout s.tree
  let a := { a.modifySession n fun s => { s with tree := t } with notes := a.notes ++ notes }
  match progress with
  | .finished r => a.setStatus i (.finished (address s r))
  | .paused rest => a.setStatus i (.suspended rest)

/-- Runs a task if it is its turn: a suspended task goes on, and a waiting one starts if its session
is free. -/
def runTask (a : App) (toEnd : Bool) (i : Nat) : App :=
  match a.tasks[i]? with
  | none => a
  | some task =>
    match a.sessions[task.session]?, task.status with
    | some s, .suspended rest => a.proceed toEnd i task.session s rest
    | some s, .waiting job =>
      -- A suspended task keeps its session, so that chains never mix
      if a.isBusyNumber task.session then a
      else a.proceed toEnd i task.session s (a.program s job)
    | _, _ => a

/-- Gives every waiting task its turn, in the order of their starts. -/
def runWaiting (a : App) : App :=
  (List.range a.tasks.length).foldl (fun a i =>
    match a.tasks[i]?.map Task.status with
    | some (.waiting _) => a.runTask false i
    | _ => a) a

/-- Adds a task that waits for its turn. -/
def enqueue (a : App) (n : Nat) (job : Job) : App :=
  { a with tasks := a.tasks ++ [⟨n, .waiting job⟩] }

/-- Starts a job on the session of a number. -/
def start (a : App) (n : Nat) (job : Job) : App :=
  (a.enqueue n job).runWaiting

/-- Goes on with a suspended task, and then with those that waited for it. -/
def resume (a : App) (i : Nat) : App :=
  (a.runTask false i).runWaiting

/-- Runs every task to its end, past all pauses, in the order of their starts. -/
def finish (a : App) : App :=
  (List.range a.tasks.length).foldl (fun a i => a.runTask true i) a

/-- What a task delivered. -/
def reply? (a : App) (i : Nat) : Option Reply :=
  match a.tasks[i]?.map Task.status with
  | some (.finished r) => some r
  | _ => none

/-- Runs a job on the session of a number to its end, if the session is free. -/
def runJob (a : App) (n : Nat) (job : Job) : App × Option Reply :=
  let i := a.tasks.length
  let a := (a.enqueue n job).runTask true i
  (a, a.reply? i)

/-! ### Sessions -/

/-- Finds the session of an id to connect to, or makes one. -/
def attach (a : App) (id : String) : Except StateError (App × Nat) :=
  match a.number? id with
  | some n => .ok (a.modifySession n fun s => { s with connected := true }, n)
  | none => do
    let t ← Tree.start a.layout
    let n := a.sessions.length
    let s : Session := ⟨id, t, EventLoop.create a.config.maxEventChain, true⟩
    return ({ a with sessions := a.sessions ++ [s], registry := KeyMap.insert id n a.registry }, n)

/-- Connects a client, and gives the full state for it to start from.  There is no reply while the
session is busy. -/
def connect (a : App) (id : String) : App × Option (Except StateError Delta) :=
  match a.attach id with
  | .error e => (a, some (.error e))
  | .ok (a, n) =>
    match a.runJob n .connect with
    | (a, some (.state r)) => (a, some r)
    | (a, _) => (a, none)

/-- Forgets the session of an id.  Tells whether there was one. -/
def disconnect (a : App) (id : String) : App × Bool :=
  match a.number? id with
  | some n =>
    ({ a.modifySession n fun s => { s with connected := false } with
      registry := KeyMap.erase id a.registry }, true)
  | none => (a, false)

/-- Runs an inbound event and gives what to send.  There is no reply while the session is busy. -/
def process (a : App) (e : InboundEvent) :
    App × Option (Except DispatchError (List OutboundDelta)) :=
  match a.number? e.sessionId with
  | none => (a, some (.error (.sessionNotFound e.sessionId)))
  | some n =>
    match a.runJob n (.process e.event) with
    | (a, some (.deltas r)) => (a, some r)
    | (a, _) => (a, none)

/-- What to send for the result of an event: an error becomes a last delta. -/
def answer (id : String) : Except DispatchError (List OutboundDelta) → List OutboundDelta
  | .ok deltas => deltas
  | .error e => [.failed id e]

/-- Like `process`, with errors sent to the client. -/
def handle (a : App) (e : InboundEvent) : App × Option (List OutboundDelta) :=
  match a.process e with
  | (a, some r) => (a, some (answer e.sessionId r))
  | (a, none) => (a, none)

/-- Disconnects the sessions that are not busy and have been idle for at least `timeout` seconds;
`idle` tells how long that is.  Gives their ids. -/
def reapIdleLongerThan (a : App) (idle : Session → Nat) (timeout : Nat) : App × List String :=
  let ids := (a.registry.filter fun r =>
    !a.isBusyNumber r.2 && match a.sessions[r.2]? with
      | some s => timeout ≤ idle s
      | none => false).map (·.1)
  (ids.foldl (fun a id => (a.disconnect id).1) a, ids)

/-- Disconnects the sessions that have been idle for the configured time. -/
def reapIdle (a : App) (idle : Session → Nat) : App × List String :=
  match a.config.idleTimeoutSecs with
  | some timeout => a.reapIdleLongerThan idle timeout
  | none => (a, [])

end App

/-- The schema of the whole process, installed at most once. -/
structure Registry where
  installed : Option Layout

namespace Registry

/-- Nothing installed. -/
def empty : Registry := ⟨none⟩

/-- Installs a layout. -/
def install (r : Registry) (l : Layout) : Except StateError Registry :=
  match r.installed with
  | some _ => throw .alreadyInstalled
  | none => return ⟨some l⟩

/-- An app for the installed layout, if there is one. -/
def app (r : Registry) (config : Config) : Option (Except ConfigError App) :=
  r.installed.map fun l => App.create l config

end Registry

end ReactiveState
