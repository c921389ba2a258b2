import ReactiveState.App
import ReactiveState.Proofs.Program.Scoped

/-!
# Jobs on a free session

Where every task has ended, a job runs on its session at once and to its end (`runJob_eq`): the
reply is what the job's program gives on the tree of the session, and the tree is the one the
program leaves.
-/

namespace ReactiveState

namespace App

variable {a : App} {n : Nat} {s : Session} {job : Job}

/-- Every task has delivered its reply. -/
def IsIdle (a : App) : Prop := ∀ task ∈ a.tasks, ∃ reply, task.status = .finished reply

/-- The app after a job on a session. -/
def afterJob (a : App) (n : Nat) (s : Session) (job : Job) : App :=
  { a with
    sessions := a.sessions.modify n fun s' =>
      { s' with tree := (a.program s job).treeAfter a.layout s.tree }
    tasks := a.tasks ++ [⟨n, .finished (address s ((a.program s job).result a.layout s.tree))⟩]
    notes := a.notes ++ ((a.program s job).run a.layout s.tree).2.2 }

theorem isBusyNumber_enqueue (h : a.IsIdle) : (a.enqueue n job).isBusyNumber n = false := by
  unfold isBusyNumber enqueue
  simp only [List.any_append, List.any_cons, List.any_nil, Bool.or_false, Bool.and_false]
  rw [List.any_eq_false]
  intro task htask
  obtain ⟨reply, hreply⟩ := h task htask
  simp [hreply]

private theorem modify_length {α : Type} (f : α → α) (xs : List α) (x : α) :
    (xs ++ [x]).modify xs.length f = xs ++ [f x] := by
  induction xs with
  | nil => rfl
  | cons y ys ih => simpa using ih

/-- On a free session a job runs to its end. -/
theorem runJob_eq (h : a.IsIdle) (hs : a.sessions[n]? = some s) :
    a.runJob n job =
      (a.afterJob n s job, some (address s ((a.program s job).result a.layout s.tree))) := by
  -- The job becomes the last task, which is then run to its end
  have htask : (a.enqueue n job).tasks[a.tasks.length]? = some ⟨n, .waiting job⟩ := by
    simp [enqueue]
  have hprogram : (a.enqueue n job).program s job = a.program s job := by cases job <;> rfl
  have hrun : (a.enqueue n job).runTask true a.tasks.length = a.afterJob n s job := by
    unfold runTask
    rw [htask]
    simp only
    rw [show (a.enqueue n job).sessions[n]? = some s from hs]
    -- No other task has the session, so the task does not wait
    simp only [isBusyNumber_enqueue h, hprogram]
    simp [proceed, enqueue, modifySession, setStatus, afterJob, Program.result,
      Program.treeAfter, modify_length]
  unfold runJob
  simp only [hrun]
  simp [reply?, afterJob]

/-- An event for a free session. -/
theorem process_eq {e : InboundEvent} (h : a.IsIdle) (hn : a.number? e.sessionId = some n)
    (hs : a.sessions[n]? = some s) :
    a.process e = (a.afterJob n s (.process e.event),
      match address s ((a.program s (.process e.event)).result a.layout s.tree) with
      | .deltas r => some r
      | .state _ => none) := by
  unfold process
  rw [hn]
  simp only [runJob_eq h hs]
  cases address s ((a.program s (.process e.event)).result a.layout s.tree) <;> rfl

/-- A client that connects to a free session. -/
theorem connect_eq {id : String} {a' : App} (h : a'.IsIdle) (hattach : a.attach id = .ok (a', n))
    (hs : a'.sessions[n]? = some s) :
    a.connect id = (a'.afterJob n s .connect,
      match address s ((a'.program s .connect).result a'.layout s.tree) with
      | .deltas _ => none
      | .state r => some r) := by
  unfold connect
  rw [hattach]
  simp only [runJob_eq h hs]
  cases address s ((a'.program s .connect).result a'.layout s.tree) <;> rfl

theorem isIdle_afterJob (h : a.IsIdle) : (a.afterJob n s job).IsIdle := by
  intro task htask
  rcases List.mem_append.1 htask with htask | htask
  · exact h task htask
  · rw [List.mem_singleton.1 htask]
    exact ⟨_, rfl⟩

/-- The job changes the tree of its session. -/
theorem sessions_afterJob (hs : a.sessions[n]? = some s) :
    (a.afterJob n s job).sessions[n]? =
      some { s with tree := (a.program s job).treeAfter a.layout s.tree } := by
  simp [afterJob, hs]

end App

end ReactiveState
