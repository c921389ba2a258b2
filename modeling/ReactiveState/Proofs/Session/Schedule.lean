import ReactiveState.Proofs.Program.Scoped
import ReactiveState.Proofs.Session.Registry

/-!
# Schedules

Tasks that process events and connect clients share an app.  What happens between two points where a
task waits is one `Move`: a call finds its session and gets into the line for it, a client is
forgotten, or a task has a turn, in which it runs on its session up to its next pause.  Turns come
in any order, so a list of moves is any way in which the tasks may be interleaved.

* `move_spec`: all that a move can do.
* `start_eq_play`, `resume_eq_play`, `runTask_eq_play`: whatever an app does with its tasks by
  itself is a list of moves.
-/

namespace ReactiveState

namespace Program

variable {α : Type} {l : Layout}

/-- A run is a run up to a pause and then a run of the rest. -/
theorem run_eq_advance (p : Program α) (t : Tree) :
    p.run l t = match p.advance l t with
      | (.finished r, u, notes) => (r, u, notes)
      | (.paused rest, u, notes) =>
        ((rest.run l u).1, (rest.run l u).2.1, notes ++ (rest.run l u).2.2) := by
  induction p generalizing t with
  | done a => rfl
  | get k next ih => exact ih _ _
  | set k v next ih => exact ih _ _
  | locate path next ih => exact ih _ _
  | flush next ih => exact ih _ _
  | snapshot next ih => exact ih _ _
  | note n next ih =>
    simp only [run, advance, ih t]
    -- The note comes in front of the others in both cases
    rcases next.advance l t with ⟨_ | _, _, _⟩ <;> rfl
  -- Here a turn ends, and the rest is what is still to run
  | pause next ih => rfl

end Program

namespace App

/-- What tasks do to an app between two waits. -/
inductive Move where
  /-- A call finds the session for an event. -/
  | process (e : InboundEvent)
  /-- A call finds or makes the session of a client. -/
  | connect (id : String)
  | disconnect (id : String)
  /-- A task runs up to its next pause, unless it has to wait. -/
  | turn (i : Nat)

/-- A job for the session of a number.  Calls have the numbers of their tasks. -/
structure Call where
  session : Nat
  job : Job

/-- The app after a move. -/
def move (a : App) : Move → App
  | .process e =>
    match a.number? e.sessionId with
    | some n => a.enqueue n (.process e.event)
    | none => a
  | .connect id =>
    match a.attach id with
    | .ok (a, n) => a.enqueue n .connect
    | .error _ => a
  | .disconnect id => (a.disconnect id).1
  | .turn i => a.runTask false i

/-- The call that gets into the line for its session. -/
def call? (a : App) : Move → Option Call
  | .process e => (a.number? e.sessionId).map fun n => ⟨n, .process e.event⟩
  | .connect id =>
    match a.attach id with
    | .ok (_, n) => some ⟨n, .connect⟩
    | .error _ => none
  | .disconnect _ => none
  | .turn _ => none

/-- The call that gets its session, with the number of its task. -/
def taken? (a : App) : Move → Option (Nat × Call)
  | .turn i =>
    match a.tasks[i]? with
    | some ⟨n, .waiting job⟩ =>
      if (a.sessions[n]?).isSome && !a.isBusyNumber n then some (i, ⟨n, job⟩) else none
    | _ => none
  | _ => none

/-- The app after moves. -/
def play (a : App) (ms : List Move) : App := ms.foldl move a

/-- All calls, in the order of their tasks. -/
def calls (a : App) : List Move → List Call
  | [] => []
  | m :: ms => (a.call? m).toList ++ calls (a.move m) ms

/-- The calls that got their session, in this order. -/
def taken (a : App) : List Move → List (Nat × Call)
  | [] => []
  | m :: ms => (a.taken? m).toList ++ taken (a.move m) ms

/-- No moves leave the app as it is. -/
@[simp] theorem play_nil (a : App) : a.play [] = a := rfl

/-- Moves are made one after the other. -/
@[simp] theorem play_cons (a : App) (m : Move) (ms : List Move) :
    a.play (m :: ms) = (a.move m).play ms := rfl

/-- Two runs in a row are one run. -/
@[simp] theorem play_append (a : App) (ms ms' : List Move) :
    a.play (ms ++ ms') = (a.play ms).play ms' :=
  List.foldl_append

/-! ### Turns -/

/-- What a turn leaves of a program on the tree of a session: a reply, or a rest that ends as the
program would have ended. -/
inductive Stage (l : Layout) (s : Session) (p : Program Outcome) : Tree → TaskStatus → Prop where
  | finished : Stage l s p (p.treeAfter l s.tree) (.finished (address s (p.result l s.tree)))
  | suspended {u : Tree} {rest : Program Outcome}
      (hresult : rest.result l u = p.result l s.tree)
      (htree : rest.treeAfter l u = p.treeAfter l s.tree) : Stage l s p u (.suspended rest)

/-- The app after a turn of a task. -/
def turned (a : App) (i n : Nat) (t : Tree) (status : TaskStatus) (notes : List Note) : App :=
  { a with
    sessions := a.sessions.modify n fun s => { s with tree := t }
    tasks := a.tasks.modify i fun task => { task with status := status }
    notes := a.notes ++ notes }

/-- A turn leads a task to its next pause or to its end, and writes its tree back. -/
theorem proceed_spec (a : App) (i n : Nat) (s : Session) (p : Program Outcome) :
    ∃ u status notes, a.proceed false i n s p = a.turned i n u status notes ∧
      Stage a.layout s p u status := by
  -- Running up to the pause and then the rest is running the whole program
  have hrun := Program.run_eq_advance (l := a.layout) p s.tree
  -- The end of the task, or a pause
  rcases hadvance : p.advance a.layout s.tree with ⟨r | rest, u, notes⟩
  · rw [hadvance] at hrun
    have hstage : Stage a.layout s p u (.finished (address s r)) := by
      have hfinished := Stage.finished (l := a.layout) (s := s) (p := p)
      rwa [Program.treeAfter, Program.result, hrun] at hfinished
    refine ⟨u, .finished (address s r), notes, ?_, hstage⟩
    simp only [proceed, hadvance]
    rfl
  · rw [hadvance] at hrun
    refine ⟨u, .suspended rest, notes, ?_, .suspended ?_ ?_⟩
    · simp only [proceed, hadvance]
      rfl
    · simp only [Program.result, hrun]
    · simp only [Program.treeAfter, hrun]

/-! ### What a move does -/

/-- What can become of an app in a move, the call that gets into the line and the call that gets its
session. -/
inductive Moved (a : App) : App → Option Call → Option (Nat × Call) → Prop where
  | idle : Moved a a none none
  | call {id : String} {n : Nat} (hn : a.number? id = some n) (job : Job) :
      Moved a (a.enqueue n job) (some ⟨n, job⟩) none
  | create {id : String} {t : Tree} (hn : a.number? id = none) (ht : Tree.start a.layout = .ok t) :
      Moved a ((a.withFresh id t).enqueue a.sessions.length .connect)
        (some ⟨a.sessions.length, .connect⟩) none
  | leave {id : String} {n : Nat} (hn : a.number? id = some n) : Moved a (a.detached id n) none none
  | take {i n : Nat} {s : Session} {job : Job} {u : Tree} {status : TaskStatus}
      (notes : List Note) (hi : a.tasks[i]? = some ⟨n, .waiting job⟩)
      (hs : a.sessions[n]? = some s) (hfree : a.isBusyNumber n = false)
      (hstage : Stage a.layout s (a.program s job) u status) :
      Moved a (a.turned i n u status notes) none (some (i, ⟨n, job⟩))
  | goOn {i n : Nat} {s : Session} {rest : Program Outcome} {u : Tree} {status : TaskStatus}
      (notes : List Note) (hi : a.tasks[i]? = some ⟨n, .suspended rest⟩)
      (hs : a.sessions[n]? = some s) (hstage : Stage a.layout s rest u status) :
      Moved a (a.turned i n u status notes) none none

variable {a : App} {id : String} {n : Nat}

/-- A client that attaches to a session that is registered changes nothing. -/
theorem Registered.reattached_eq (h : a.Registered) (hn : a.number? id = some n) :
    a.reattached n = a := by
  obtain ⟨s, hs, -, hc⟩ := h id n hn
  -- The session is connected already, so marking it changes nothing
  have hsessions : (a.sessions.modify n fun s => { s with connected := true }) = a.sessions := by
    refine List.ext_getElem? fun m => ?_
    by_cases hnm : n = m
    · subst hnm
      simp [hs, ← hc]
    · simp [hnm]
  simp only [App.reattached, modifySession, hsessions]

/-- What a turn can do: nothing if the task is done or has to wait, take the session, or go on with
it. -/
theorem turn_spec (a : App) (i : Nat) :
    Moved a (a.move (.turn i)) none (a.taken? (.turn i)) := by
  simp only [move, taken?, runTask]
  cases hi : a.tasks[i]? with
  | none => exact .idle
  | some task =>
    obtain ⟨n, status⟩ := task
    cases hs : a.sessions[n]? with
    | none => cases status <;> simp only [hs, Option.isSome_none, Bool.false_and] <;> exact .idle
    | some s =>
      cases status with
      | finished reply =>
        simp only [hs]
        exact .idle
      | suspended rest =>
        -- The task goes on from its pause
        obtain ⟨u, status, notes, heq, hstage⟩ := a.proceed_spec i n s rest
        simp only [hs, heq]
        exact .goOn notes hi hs hstage
      | waiting job =>
        -- Another task has the session, or it is free to be taken
        cases hfree : a.isBusyNumber n with
        | true =>
          simp only [hs, hfree]
          exact .idle
        | false =>
          obtain ⟨u, status, notes, heq, hstage⟩ := a.proceed_spec i n s (a.program s job)
          simp only [hs, hfree, heq]
          exact .take notes hi hs hfree hstage

/-- What a move can do, case by case. -/
theorem move_spec (h : a.Registered) (m : Move) :
    Moved a (a.move m) (a.call? m) (a.taken? m) := by
  cases m with
  | process e =>
    simp only [move, call?]
    cases hn : a.number? e.sessionId with
    | none => exact .idle
    | some n => exact .call hn _
  | connect id =>
    simp only [move, call?]
    cases hn : a.number? id with
    | some n =>
      rw [attach_of_some hn]
      -- A client that comes back finds its session as it is
      simp only [h.reattached_eq hn]
      exact .call hn _
    | none =>
      -- A client that is not known gets a session only if a tree can be started for it
      cases ht : Tree.start a.layout with
      | error e =>
        rw [attach_of_error hn ht]
        exact .idle
      | ok t =>
        rw [attach_of_none hn ht]
        exact .create hn ht
  | disconnect id =>
    simp only [move, call?]
    cases hn : a.number? id with
    | none =>
      rw [disconnect_of_none hn]
      exact .idle
    | some n =>
      rw [disconnect_of_some hn]
      exact .leave hn
  | turn i => exact a.turn_spec i

/-! ### What an app does by itself -/

/-- Tasks that wait get their turns. -/
theorem runWaiting_eq_play (a : App) : ∃ is : List Nat, a.runWaiting = a.play (is.map .turn) := by
  unfold runWaiting
  generalize List.range a.tasks.length = js
  induction js generalizing a with
  | nil => exact ⟨[], rfl⟩
  | cons j js ih =>
    rw [List.foldl_cons]
    -- A task that waits gets a turn, any other is passed over
    split
    · obtain ⟨is, his⟩ := ih (a.runTask false j)
      exact ⟨j :: is, his⟩
    · exact ih a

/-- Starting a job is queueing it and then giving turns. -/
theorem start_eq_play (a : App) (n : Nat) (job : Job) :
    ∃ is : List Nat, a.start n job = (a.enqueue n job).play (is.map .turn) :=
  runWaiting_eq_play _

/-- Resuming a task is giving turns, this task first. -/
theorem resume_eq_play (a : App) (i : Nat) :
    ∃ is : List Nat, a.resume i = a.play ((i :: is).map .turn) :=
  runWaiting_eq_play _

/-- A task that runs past its pauses has one turn after another. -/
theorem proceed_eq_play {i : Nat} (p : Program Outcome) (a : App) {s : Session} (t : Tree)
    {status : TaskStatus} (hs : a.sessions[n]? = some s) (hi : a.tasks[i]? = some ⟨n, status⟩) :
    ∃ k, a.proceed true i n { s with tree := t } p =
      (a.proceed false i n { s with tree := t } p).play (List.replicate k (.turn i)) := by
  induction p generalizing a s t status with
  | done r => exact ⟨0, rfl⟩
  | get k next ih => exact ih _ a _ hs hi
  | set k v next ih => exact ih _ a _ hs hi
  | locate path next ih => exact ih _ a _ hs hi
  | flush next ih => exact ih _ a _ hs hi
  | snapshot next ih => exact ih _ a _ hs hi
  | note note next ih =>
    -- A note goes to the app, and the task goes on from there
    obtain ⟨k, hk⟩ := ih { a with notes := a.notes ++ [note] } t hs hi
    refine ⟨k, ?_⟩
    have hnotes : ∀ toEnd, a.proceed toEnd i n { s with tree := t } (.note note next) =
        App.proceed { a with notes := a.notes ++ [note] } toEnd i n { s with tree := t } next := by
      intro toEnd
      cases toEnd
      · simp only [proceed, Program.advance, modifySession, List.append_assoc,
          List.singleton_append, Bool.false_eq_true, if_false]
      · simp only [proceed, Program.run, modifySession, List.append_assoc,
          List.singleton_append, if_true]
    rw [hnotes, hnotes, hk]
  | pause next ih =>
    -- The task is suspended, and its next turn goes on with the rest
    let b := a.proceed false i n { s with tree := t } (.pause next)
    have hsb : b.sessions[n]? = some { s with tree := t } := by
      simp [b, proceed, Program.advance, modifySession, setStatus, hs]
    have hib : b.tasks[i]? = some ⟨n, .suspended next⟩ := by
      simp [b, proceed, Program.advance, modifySession, setStatus, hi]
    obtain ⟨k, hk⟩ := ih b t hsb hib
    refine ⟨k + 1, ?_⟩
    -- One turn of the suspended task is the start of the rest
    have hturn : b.move (.turn i) = b.proceed false i n { s with tree := t } next := by
      simp only [move, runTask, hib, hsb]
    have htrue : a.proceed true i n { s with tree := t } (.pause next) =
        b.proceed true i n { s with tree := t } next := by
      simp [b, proceed, Program.advance, Program.run, modifySession, setStatus,
        List.modify_modify_eq, Function.comp_def]
    rw [htrue, hk, List.replicate_succ, play_cons, hturn]

/-- A task that runs to its end, all by itself, has one turn after another. -/
theorem runTask_eq_play (a : App) (i : Nat) :
    ∃ k, a.runTask true i = a.play (List.replicate k (.turn i)) := by
  cases hi : a.tasks[i]? with
  | none => exact ⟨0, by simp only [runTask, hi]; rfl⟩
  | some task =>
    obtain ⟨n, status⟩ := task
    cases hs : a.sessions[n]? with
    | none => exact ⟨0, by cases status <;> simp only [runTask, hi, hs] <;> rfl⟩
    | some s =>
      cases status with
      | finished reply => exact ⟨0, by simp only [runTask, hi, hs]; rfl⟩
      | suspended rest =>
        -- The turn that runs now is the first of them
        obtain ⟨k, hk⟩ := proceed_eq_play rest a s.tree hs hi
        refine ⟨k + 1, ?_⟩
        simp only [List.replicate_succ, play_cons, move, runTask, hi, hs]
        exact hk
      | waiting job =>
        -- A task that has to wait gets no turn at all
        cases hfree : a.isBusyNumber n with
        | true => exact ⟨0, by simp only [runTask, hi, hs, hfree]; rfl⟩
        | false =>
          obtain ⟨k, hk⟩ := proceed_eq_play (a.program s job) a s.tree hs hi
          refine ⟨k + 1, ?_⟩
          simp only [List.replicate_succ, play_cons, move, runTask, hi, hs, hfree]
          exact hk

end App

end ReactiveState
