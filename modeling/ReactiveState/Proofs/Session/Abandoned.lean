import ReactiveState.Proofs.Layout.Compiled
import ReactiveState.Proofs.Session.Serial

/-!
# Disconnected sessions

A session that was disconnected is never found again, and the calls that were under way on it
deliver nothing (`Abandoned`); the session that is made when its client comes back has calls and a
tree of its own.  Together with the order of the calls (`InLine`) this holds for all schedules
(`tasks_run_in_line`).
-/

namespace ReactiveState

namespace App

/-- The session of a number was disconnected from its id in the app `a`, some moves before `b`. -/
structure Abandoned (id : String) (n : Nat) (a b : App) : Prop where
  registered : b.Registered
  known : n < a.sessions.length
  grown : a.sessions.length ≤ b.sessions.length
  off : ∀ s, b.sessions[n]? = some s → s.connected = false
  /-- No client finds it again. -/
  gone : ∀ id', b.number? id' ≠ some n
  /-- A client that has come back has a session that is new. -/
  fresh : ∀ m, b.number? id = some m → a.sessions.length ≤ m
  /-- A call that had not replied by then delivers nothing. -/
  silent : ∀ (i : Nat) ds, a.reply? i = none →
    b.tasks[i]? = some ⟨n, .finished (.deltas (.ok ds))⟩ → ds = []
  /-- What its tasks do is seen in no other session. -/
  confined : ∀ (i : Nat) status, b.tasks[i]? = some ⟨n, status⟩ → ∀ m, m ≠ n →
    (b.move (.turn i)).sessions[m]? = b.sessions[m]?

variable {a b : App} {i n m : Nat} {s : Session} {t u : Tree} {job : Job} {status : TaskStatus}
  {l : Layout} {id : String}

/-- A turn of a task changes the session of the task at most. -/
theorem sessions_turn_of_ne (hi : a.tasks[i]? = some ⟨n, status⟩) (hne : m ≠ n) :
    (a.move (.turn i)).sessions[m]? = a.sessions[m]? := by
  -- However far the task gets, it writes back to its own session
  have hproceed : ∀ s p, (a.proceed false i n s p).sessions[m]? = a.sessions[m]? := by
    intro s p
    -- A turn writes one tree back, under the number of its task
    obtain ⟨u, status, notes, heq, -⟩ := a.proceed_spec i n s p
    rw [heq, sessions_turned_of_ne hne]
  simp only [App.move, runTask, hi]
  cases a.sessions[n]? with
  | none => cases status <;> rfl
  | some s =>
    cases status with
    | waiting job =>
      simp only
      split
      · rfl
      · exact hproceed s _
    | suspended rest => exact hproceed s rest
    | finished reply => rfl

/-- A session that is not connected has nothing to deliver. -/
theorem Stage.silent {p : Program Outcome} (hstage : Stage l s p u status)
    (hs : s.connected = false) {ds : List OutboundDelta}
    (hstatus : status = .finished (.deltas (.ok ds))) : ds = [] := by
  cases hstage with
  | suspended => cases hstatus
  | finished =>
    generalize p.result l s.tree = r at hstatus
    rcases r with ⟨e | us⟩ | r <;> simp_all [address]

/-- The abandoned session is one of the sessions. -/
theorem Abandoned.lt (h : Abandoned id n a b) : n < b.sessions.length :=
  Nat.lt_of_lt_of_le h.known h.grown

/-- Right after the disconnect the session is abandoned. -/
theorem abandoned_detached (h : a.Registered) (hn : a.number? id = some n) :
    Abandoned id n a (a.detached id n) where
  registered := h.detached hn
  known := h.number_lt hn
  grown := by simp [App.detached, modifySession]
  off s hs := by
    rw [sessions_detached] at hs
    obtain ⟨s', -, rfl⟩ := Option.map_eq_some_iff.1 hs
    rw [if_pos rfl]
  gone id' hid := by
    rw [number?_detached] at hid
    -- Numbers are given once, so no other client has this one
    split at hid
    · cases hid
    · next hne => exact hne (h.number_inj hid hn)
  fresh m hm := by
    rw [number?_detached, if_pos rfl] at hm
    cases hm
  silent i ds hreply hi := by
    have hi' : a.tasks[i]? = _ := hi
    -- Nothing has happened yet, so what is over now had its reply before
    simp [reply?, hi'] at hreply
  confined i status hi m hne := sessions_turn_of_ne hi hne

/-- A new call leaves it so, whatever session the call is for. -/
theorem Abandoned.enqueue (h : Abandoned id n a b) (m : Nat) (job : Job) :
    Abandoned id n a (b.enqueue m job) where
  registered := h.registered
  known := h.known
  grown := h.grown
  off := h.off
  gone := h.gone
  fresh := h.fresh
  silent i ds hreply hi := by
    rcases tasks_enqueue hi with hi | ⟨job, hjob⟩
    · exact h.silent i ds hreply hi
    · cases hjob
  confined i status hi m hne := sessions_turn_of_ne hi hne

/-- A new session leaves it so, because it gets a number of its own. -/
theorem Abandoned.withFresh (h : Abandoned id n a b) (id' : String) (t : Tree) :
    Abandoned id n a (b.withFresh id' t) where
  registered := h.registered.withFresh id' t
  known := h.known
  grown := by
    have hgrown := h.grown
    simp only [App.withFresh, List.length_append]
    omega
  off s hs := by
    rw [App.withFresh, List.getElem?_append_left h.lt] at hs
    exact h.off s hs
  gone id'' hid := by
    rw [number?_withFresh] at hid
    -- The number of the new session is beyond the abandoned one
    split at hid
    · exact Nat.ne_of_gt h.lt (Option.some.inj hid)
    · exact h.gone id'' hid
  fresh m hm := by
    -- A number that is looked up is the new one, which is higher, or an earlier one
    rw [number?_withFresh] at hm
    split at hm
    · rw [← Option.some.inj hm]
      exact h.grown
    · exact h.fresh m hm
  silent := h.silent
  confined i status hi m hne := sessions_turn_of_ne hi hne

/-- So does a disconnect of another client. -/
theorem Abandoned.detached (h : Abandoned id n a b) {id' : String} (hm : b.number? id' = some m) :
    Abandoned id n a (b.detached id' m) where
  registered := h.registered.detached hm
  known := h.known
  grown := by simpa [App.detached, modifySession] using h.grown
  off s hs := by
    -- No client has the number of the abandoned session, so this is another one
    have hne : m ≠ n := fun heq => h.gone id' (heq ▸ hm)
    simp only [sessions_detached, if_neg hne, Option.map_id'] at hs
    exact h.off s hs
  gone id'' hid := by
    -- Disconnecting takes a number from a client and gives it to none
    rw [number?_detached] at hid
    split at hid
    · cases hid
    · exact h.gone id'' hid
  fresh k hk := by
    rw [number?_detached] at hk
    split at hk
    · cases hk
    · exact h.fresh k hk
  silent := h.silent
  confined i status hi m hne := sessions_turn_of_ne hi hne

/-- So does a turn of a task: one of the abandoned session delivers nothing when it ends. -/
theorem Abandoned.turned (h : Abandoned id n a b) {old : TaskStatus} {p : Program Outcome}
    (hi : b.tasks[i]? = some ⟨m, old⟩) (hs : b.sessions[m]? = some s)
    (hstage : Stage l s p u status) (notes : List Note) :
    Abandoned id n a (b.turned i m u status notes) where
  registered := h.registered.modify (f := fun s => { s with tree := u }) (fun _ => rfl)
    (fun _ hc => hc) rfl rfl
  known := h.known
  grown := by simpa [App.turned] using h.grown
  off s' hs' := by
    by_cases hmn : m = n
    · -- The turn may be one of the abandoned session itself, which stays unconnected
      subst hmn
      rw [sessions_turned_self hs] at hs'
      rw [← Option.some.inj hs']
      exact h.off s hs
    · rw [sessions_turned_of_ne (Ne.symm hmn)] at hs'
      exact h.off s' hs'
  gone := h.gone
  fresh := h.fresh
  silent j ds hreply hj := by
    -- Whether the session is connected is asked when the task ends, and this one is not
    by_cases hji : j = i
    · subst hji
      rw [tasks_turned_self hi] at hj
      cases hj
      exact hstage.silent (h.off s hs) rfl
    · rw [tasks_turned_of_ne hji] at hj
      exact h.silent j ds hreply hj
  confined j status hj k hne := sessions_turn_of_ne hj hne

/-- Every move leaves it so. -/
theorem Abandoned.move (h : Abandoned id n a b) (mv : Move) : Abandoned id n a (b.move mv) := by
  have hmoved := move_spec h.registered mv
  revert hmoved
  generalize b.move mv = b', b.call? mv = call, b.taken? mv = took
  intro hmoved
  -- One case for each thing a move can do
  cases hmoved with
  | idle => exact h
  | call hn job => exact h.enqueue _ job
  | create hn ht => exact (h.withFresh _ _).enqueue _ _
  | leave hn => exact h.detached hn
  | take notes hi hs hfree hstage => exact h.turned hi hs hstage notes
  | goOn notes hi hs hstage => exact h.turned hi hs hstage notes

/-- So does any number of moves. -/
theorem Abandoned.play (h : Abandoned id n a b) (ms : List Move) :
    Abandoned id n a (b.play ms) := by
  induction ms generalizing b with
  | nil => exact h
  | cons m ms ih => exact ih (h.move m)

/-! ### All schedules -/

/-- However tasks are interleaved, every session works off its calls one at a time, in the order in
which they get it; and what is under way on a session when its client is disconnected is neither
delivered nor seen by the client that comes back. -/
theorem tasks_run_in_line {config : Config} (h : App.create l config = .ok a) (ms : List Move) :
    InLine l (a.play ms) (a.calls ms) (a.taken ms) ∧
      ∀ id n ms', (a.play ms).number? id = some n →
        Abandoned id n (a.play ms) (a.play (ms ++ .disconnect id :: ms')) := by
  have hline := (inLine_create h).play ms
  refine ⟨hline, fun id n ms' hn => ?_⟩
  rw [play_append, play_cons, App.move, disconnect_of_some hn]
  exact (abandoned_detached hline.registered hn).play ms'

end App

/-! ### A sample -/

/-- Waits for something before it sets the counter to ten. -/
def Schema.load : Handler :=
  ⟨true, fun path _ => .pause (.set ⟨path, "count"⟩ (.int 10) fun _ => .done (.ok []))⟩

/-- A counter that is loaded. -/
def Schema.loaded : Schema :=
  .mk "counter" [⟨"count", .int, .int 0, false, none⟩] [] [("load", load)] [] []

/-- The layout of the counter that is loaded. -/
def Layout.loaded : Layout := (Layout.compile Schema.loaded).toOption.get rfl

namespace App

/-- A client connects, and its counter is being loaded. -/
def loading : List Move :=
  [.connect "x", .turn 0, .process ⟨"counter.load", [], "x"⟩, .turn 1]

/-- The client comes back, and then the loading ends. -/
def returning : List Move := [.connect "x", .turn 2, .turn 1]

/-- The app that the client has come back to. -/
def loadedApp : App :=
  (⟨Layout.loaded, {}, [], [], [], []⟩ : App).play (loading ++ .disconnect "x" :: returning)

/-- A client that disconnects while its counter is loaded and comes back before that ends is told
nothing of it, and the tree of its new session is as it was at first. -/
theorem tasks_run_in_line_loaded :
    loadedApp.reply? 1 = some (.deltas (.ok [])) ∧ loadedApp.number? "x" = some 1 ∧
      loadedApp.sessions[1]?.map Session.tree = (Tree.start Layout.loaded).toOption := by
  have hcreate : App.create Layout.loaded {} = .ok ⟨Layout.loaded, {}, [], [], [], []⟩ := rfl
  refine ⟨?_, rfl, ?_⟩
  · -- The old session is abandoned by the disconnect, so its task has nothing to tell
    have hleft := (tasks_run_in_line hcreate loading).2 "x" 0 returning rfl
    obtain ⟨ds, hds⟩ : ∃ ds, loadedApp.tasks[1]? = some ⟨0, .finished (.deltas (.ok ds))⟩ :=
      ⟨_, rfl⟩
    have hnone : ds = [] := hleft.silent 1 ds rfl hds
    simp only [reply?, hds, hnone, Option.map_some]
  · -- No call has had a turn on the new session, so its serial order is empty
    have hline := (tasks_run_in_line hcreate (loading ++ .disconnect "x" :: returning)).1
    obtain ⟨s, hs⟩ : ∃ s, loadedApp.sessions[1]? = some s := ⟨_, rfl⟩
    obtain ⟨t₀, ht₀, hserial⟩ := hline.sessions 1 s hs
    obtain rfl := Except.ok.inj (show Except.ok _ = Except.ok t₀ from ht₀)
    rw [hs, Option.map_some, hserial.tree rfl]
    rfl

end App

end ReactiveState
