import ReactiveState.Proofs.Session.Schedule

/-!
# Tasks run one after another

However tasks are interleaved, each session works off the calls that get it one at a time
(`InLine.play`): its tree is what these calls make of a fresh tree, one after another in the order
in which they got the session, and every reply is what the call gives at its place in that order
(`Serialized`).
-/

namespace ReactiveState

namespace App

/-- The tree of a session after calls, one after another. -/
def serially (a : App) (s : Session) (t : Tree) (served : List (Nat × Call)) : Tree :=
  served.foldl (fun t x => (a.program s x.2.job).treeAfter a.layout t) t

/-- What became of a call that got its session when the tree was `t`.  Only the last one may still
be under way. -/
inductive Ran (a : App) (n : Nat) (s : Session) (t : Tree) (x : Nat × Call) :
    List (Nat × Call) → Prop where
  /-- It has replied; `c` tells whether its session was connected then. -/
  | finished (later : List (Nat × Call)) (c : Bool) (hc : s.connected = true → c = true)
      (hi : a.tasks[x.1]? = some ⟨n, .finished
        (address { s with connected := c } ((a.program s x.2.job).result a.layout t))⟩) :
      Ran a n s t x later
  /-- It is paused, with a rest that ends as the whole would have ended. -/
  | suspended (rest : Program Outcome) (hi : a.tasks[x.1]? = some ⟨n, .suspended rest⟩)
      (hresult : rest.result a.layout s.tree = (a.program s x.2.job).result a.layout t)
      (htree : rest.treeAfter a.layout s.tree = (a.program s x.2.job).treeAfter a.layout t) :
      Ran a n s t x []

/-- The session of a number did the calls that got it one after another, from the tree `t₀` on. -/
structure Serialized (a : App) (n : Nat) (s : Session) (t₀ : Tree) (served : List (Nat × Call)) :
    Prop where
  /-- A task that does not wait has got the session. -/
  started : ∀ (i : Nat) status, a.tasks[i]? = some ⟨n, status⟩ →
    (∃ job, status = .waiting job) ∨ ∃ x ∈ served, x.1 = i
  ran : ∀ before x later, served = before ++ x :: later →
    Ran a n s (a.serially s t₀ before) x later
  tree : a.isBusyNumber n = false → s.tree = a.serially s t₀ served

/-- All sessions of an app with their calls, given those that got their session in this order. -/
structure InLine (l : Layout) (a : App) (calls : List Call) (taken : List (Nat × Call)) :
    Prop where
  layout : a.layout = l
  registered : a.Registered
  /-- Every task stands for a call. -/
  tasks : a.tasks.map Task.session = calls.map Call.session
  exist : ∀ c ∈ calls, c.session < a.sessions.length
  called : ∀ x ∈ taken, calls[x.1]? = some x.2
  /-- A call gets its session once. -/
  nodup : (taken.map Prod.fst).Nodup
  waiting : ∀ (i : Nat) n job, a.tasks[i]? = some ⟨n, .waiting job⟩ →
    calls[i]? = some ⟨n, job⟩ ∧ ∀ x ∈ taken, x.1 ≠ i
  sessions : ∀ n s, a.sessions[n]? = some s → ∃ t₀, Tree.start l = .ok t₀ ∧
    Serialized a n s t₀ (taken.filter fun x => x.2.session = n)

variable {a a' : App} {i j n m : Nat} {s s' : Session} {t t₀ u : Tree} {job : Job}
  {status : TaskStatus} {notes : List Note} {served taken : List (Nat × Call)}
  {calls : List Call} {l : Layout} {id : String}

/-! ### Tasks -/

/-- After a turn the task has its new status. -/
theorem tasks_turned_self {old : TaskStatus} (hi : a.tasks[i]? = some ⟨n, old⟩) :
    (a.turned i n u status notes).tasks[i]? = some ⟨n, status⟩ := by
  simp [turned, hi]

/-- A turn leaves all other tasks alone. -/
theorem tasks_turned_of_ne (hne : j ≠ i) :
    (a.turned i n u status notes).tasks[j]? = a.tasks[j]? := by
  simp [turned, hne.symm]

/-- A task that is new in the line waits. -/
theorem tasks_enqueue (hi : (a.enqueue m job).tasks[i]? = some ⟨n, status⟩) :
    a.tasks[i]? = some ⟨n, status⟩ ∨ ∃ job, status = .waiting job := by
  simp only [enqueue, List.getElem?_append] at hi
  split at hi
  · exact .inl hi
  · have htask := List.mem_singleton.1 (List.mem_of_getElem? hi)
    cases htask
    exact .inr ⟨job, rfl⟩

/-- After a turn the session has its new tree. -/
theorem sessions_turned_self (hs : a.sessions[n]? = some s) :
    (a.turned i n u status notes).sessions[n]? = some { s with tree := u } := by
  simp [turned, hs]

/-- A turn leaves all other sessions alone. -/
theorem sessions_turned_of_ne (hne : m ≠ n) :
    (a.turned i n u status notes).sessions[m]? = a.sessions[m]? := by
  simp [turned, hne.symm]

/-- A session is free if none of its tasks is paused. -/
theorem isBusyNumber_eq_false :
    a.isBusyNumber n = false ↔ ∀ (i : Nat) rest, a.tasks[i]? ≠ some ⟨n, .suspended rest⟩ := by
  unfold isBusyNumber
  rw [List.any_eq_false]
  constructor
  · intro h i rest hi
    exact h _ (List.mem_of_getElem? hi) (by simp)
  · intro h task htask
    obtain ⟨i, hi⟩ := List.mem_iff_getElem?.1 htask
    obtain ⟨k, status⟩ := task
    -- Only a paused task of the session makes it busy
    cases status with
    | suspended rest =>
      have hk : k ≠ n := fun heq => h i rest (heq ▸ hi)
      simp [hk]
    | waiting job => simp
    | finished reply => simp

/-- The last of some calls runs on what the others leave. -/
theorem serially_append (served : List (Nat × Call)) (x : Nat × Call) :
    a.serially s t (served ++ [x]) =
      (a.program s x.2.job).treeAfter a.layout (a.serially s t served) := by
  simp [serially]

/-! ### One session -/

/-- What may happen to an app and to a session without any effect on what the session did. -/
structure Aside (n : Nat) (a a' : App) (s s' : Session) : Prop where
  layout : a'.layout = a.layout
  id : s'.id = s.id
  tree : s'.tree = s.tree
  loop : s'.loop = s.loop
  connected : s'.connected = true → s.connected = true
  kept : ∀ (i : Nat) status, a.tasks[i]? = some ⟨n, status⟩ → a'.tasks[i]? = some ⟨n, status⟩
  new : ∀ (i : Nat) status, a'.tasks[i]? = some ⟨n, status⟩ →
    a.tasks[i]? = some ⟨n, status⟩ ∨ ∃ job, status = .waiting job

/-- What a job does depends on the layout and the parts of a session that stay. -/
theorem Aside.program (h : Aside n a a' s s') (job : Job) :
    a'.program s' job = a.program s job := by
  cases job <;> simp only [App.program, h.layout, h.loop]

/-- So calls one after another do the same. -/
theorem Aside.serially (h : Aside n a a' s s') (t : Tree) (served : List (Nat × Call)) :
    a'.serially s' t served = a.serially s t served := by
  simp only [App.serially, h.program, h.layout]

/-- A session that is free afterwards was free before. -/
theorem Aside.isBusyNumber (h : Aside n a a' s s') (hfree : a'.isBusyNumber n = false) :
    a.isBusyNumber n = false :=
  isBusyNumber_eq_false.2 fun i rest hi =>
    isBusyNumber_eq_false.1 hfree i rest (h.kept i _ hi)

/-- What became of a call stays true of it. -/
theorem Aside.ran (h : Aside n a a' s s') {x : Nat × Call} {later : List (Nat × Call)}
    (hran : Ran a n s t x later) : Ran a' n s' t x later := by
  have hprogram := h.program x.2.job
  cases hran with
  | finished _ c hc hi =>
    -- The reply was addressed already and stays as it is
    refine .finished _ c (fun hs' => hc (h.connected hs')) (h.kept _ _ ?_)
    rw [hi, hprogram, h.layout]
    congr 3
    -- Replies are addressed with the id of the session, which stays
    generalize (a.program s x.2.job).result a.layout t = r
    cases r with
    | state r => rfl
    | updates r => cases r <;> simp only [address, h.id]
  | suspended rest hi hresult htree =>
    refine .suspended rest (h.kept _ _ hi) ?_ ?_
    · rw [hprogram, h.layout, h.tree, hresult]
    · rw [hprogram, h.layout, h.tree, htree]

/-- The calls of a session stay in line when something else happens. -/
theorem Serialized.aside (h : Serialized a n s t₀ served) (haside : Aside n a a' s s') :
    Serialized a' n s' t₀ served where
  started i status hi := (haside.new i status hi).elim (h.started i status) .inl
  ran before x later heq := by
    rw [haside.serially]
    exact haside.ran (h.ran before x later heq)
  tree hfree := by
    rw [haside.serially, haside.tree]
    exact h.tree (haside.isBusyNumber hfree)

/-- A turn of the last call that got the session. -/
theorem Stage.ran {p : Program Outcome} {x : Nat × Call} {old : TaskStatus}
    (hstage : Stage a.layout s p u status) (hi : a.tasks[x.1]? = some ⟨n, old⟩)
    (hresult : p.result a.layout s.tree = (a.program s x.2.job).result a.layout t)
    (htree : p.treeAfter a.layout s.tree = (a.program s x.2.job).treeAfter a.layout t) :
    Ran (a.turned x.1 n u status notes) n { s with tree := u } t x [] := by
  -- It has ended now, or stands at its next pause
  cases hstage with
  | finished =>
    refine .finished [] s.connected (fun hc => hc) ?_
    rw [tasks_turned_self hi, hresult]
    rfl
  | suspended hresult' htree' =>
    exact .suspended _ (tasks_turned_self hi) (hresult'.trans hresult) (htree'.trans htree)

/-- After a turn that ends, the tree is the one that the whole call leaves. -/
theorem Stage.tree {p : Program Outcome} {old : TaskStatus}
    (hstage : Stage a.layout s p u status) (hi : a.tasks[i]? = some ⟨n, old⟩)
    (hfree : (a.turned i n u status notes).isBusyNumber n = false) :
    u = p.treeAfter a.layout s.tree := by
  cases hstage with
  | finished => rfl
  | suspended =>
    exact absurd (tasks_turned_self hi) (isBusyNumber_eq_false.1 hfree i _)

/-- Only the last call that got a session can be paused. -/
theorem Ran.not_suspended {x : Nat × Call} {later : List (Nat × Call)} (h : Ran a n s t x later)
    (hlater : later ≠ []) (rest : Program Outcome) :
    a.tasks[x.1]? ≠ some ⟨n, .suspended rest⟩ := by
  cases h with
  | finished _ c hc hi => simp [hi]
  | suspended rest' hi => exact absurd rfl hlater

/-- A call that has replied stays as it is. -/
theorem Ran.turned {x : Nat × Call} {later : List (Nat × Call)} (h : Ran a n s t x later)
    (hne : x.1 ≠ i) (hsuspended : ∀ rest, a.tasks[x.1]? ≠ some ⟨n, .suspended rest⟩)
    (later' : List (Nat × Call)) :
    Ran (a.turned i n u status notes) n { s with tree := u } t x later' := by
  cases h with
  | finished _ c hc hi => exact .finished _ c hc ((tasks_turned_of_ne hne).trans hi)
  | suspended rest hi => exact absurd hi (hsuspended rest)

/-- A call gets the session, which is free, and has its first turn. -/
theorem Serialized.take (h : Serialized a n s t₀ served)
    (hi : a.tasks[i]? = some ⟨n, .waiting job⟩) (hfree : a.isBusyNumber n = false)
    (hstage : Stage a.layout s (a.program s job) u status) :
    Serialized (a.turned i n u status notes) n { s with tree := u } t₀
      (served ++ [(i, ⟨n, job⟩)]) where
  started j status' hj := by
    -- The call that takes the session is served from now on, and the others are as they were
    by_cases hji : j = i
    · exact .inr ⟨(i, ⟨n, job⟩), by simp, hji.symm⟩
    · rw [tasks_turned_of_ne hji] at hj
      refine (h.started j status' hj).imp_right ?_
      rintro ⟨x, hx, hxj⟩
      exact ⟨x, List.mem_append_left _ hx, hxj⟩
  ran before x later heq := by
    rcases List.eq_nil_or_concat later with rfl | ⟨later', y, rfl⟩
    · -- It is the call that has just got the session
      obtain ⟨rfl, hx⟩ := List.append_inj' heq rfl
      obtain rfl := List.singleton_inj.1 hx
      have htree := h.tree hfree
      exact hstage.ran (x := (i, ⟨n, job⟩)) hi (by rw [htree]; rfl) (by rw [htree]; rfl)
    · -- It is one of those before, which all have replied
      rw [List.concat_eq_append, ← List.cons_append, ← List.append_assoc] at heq
      obtain ⟨hserved, -⟩ := List.append_inj' heq rfl
      have hsuspended := isBusyNumber_eq_false.1 hfree x.1
      have hran := h.ran before x later' hserved
      have hne : x.1 ≠ i := by
        intro hxi
        cases hran with
        | finished _ c hc hx => rw [hxi, hi] at hx; cases hx
        | suspended rest hx => exact hsuspended rest hx
      exact hran.turned hne hsuspended _
  tree hfree' := by
    -- If it has ended, the tree is the one that all calls so far lead to
    have htree : u = _ := hstage.tree hi hfree'
    rw [h.tree hfree] at htree
    rw [serially_append]
    exact htree

/-- The call that has the session has another turn. -/
theorem Serialized.goOn {rest : Program Outcome} (h : Serialized a n s t₀ served)
    (hi : a.tasks[i]? = some ⟨n, .suspended rest⟩) (hstage : Stage a.layout s rest u status) :
    Serialized (a.turned i n u status notes) n { s with tree := u } t₀ served := by
  obtain ⟨x, hx, rfl⟩ : ∃ x ∈ served, x.1 = i := by
    -- A paused task does not wait, so it is one of those served
    rcases h.started i _ hi with ⟨job, hjob⟩ | hx
    · cases hjob
    · exact hx
  obtain ⟨before, later, rfl⟩ := List.append_of_mem hx
  have hran := h.ran before x later rfl
  -- It is the last one that got the session, and the only one that is paused
  cases hran with
  | finished _ c hc hx' => rw [hi] at hx'; cases hx'
  | suspended rest' hx' hresult htree =>
    obtain rfl : rest = rest' := by
      rw [hi] at hx'
      cases hx'
      rfl
    refine ⟨?_, ?_, ?_⟩
    · intro j status' hj
      by_cases hjx : j = x.1
      · exact .inr ⟨x, by simp, hjx.symm⟩
      · rw [tasks_turned_of_ne hjx] at hj
        exact h.started j status' hj
    · intro before' x' later' heq
      -- The call itself, or one of those before it
      rcases List.eq_nil_or_concat later' with rfl | ⟨later'', y, rfl⟩
      · obtain ⟨rfl, hx'⟩ := List.append_inj' heq rfl
        obtain rfl := List.singleton_inj.1 hx'
        exact hstage.ran hi hresult htree
      · have hran := h.ran before' x' _ heq
        have hsuspended := hran.not_suspended (by simp)
        exact hran.turned (fun heq => hsuspended rest (heq ▸ hi)) hsuspended _
    · intro hfree
      have hu : u = _ := hstage.tree hi hfree
      rw [htree] at hu
      rw [serially_append]
      exact hu

/-! ### All sessions -/

/-- Changes that leave tasks and trees alone, and connect nothing, happen aside. -/
theorem aside_of_tasks (hlayout : a'.layout = a.layout) (htasks : a'.tasks = a.tasks)
    (hid : s'.id = s.id) (htree : s'.tree = s.tree) (hloop : s'.loop = s.loop)
    (hconnected : s'.connected = true → s.connected = true) : Aside n a a' s s' :=
  ⟨hlayout, hid, htree, hloop, hconnected, fun _ _ hi => htasks ▸ hi,
    fun _ _ hi => .inl (htasks ▸ hi)⟩

/-- A new call happens aside of all sessions until it gets its own. -/
theorem aside_enqueue (a : App) (m : Nat) (job : Job) (s : Session) :
    Aside n a (a.enqueue m job) s s where
  layout := rfl
  id := rfl
  tree := rfl
  loop := rfl
  connected hc := hc
  kept i status hi := by
    -- The new task is put behind the others
    rw [← hi]
    exact List.getElem?_append_left (List.getElem?_eq_some_iff.1 hi).1
  new _ _ hi := tasks_enqueue hi

/-- A turn on another session. -/
theorem aside_turned {old : TaskStatus} (hi : a.tasks[i]? = some ⟨m, old⟩) (hne : n ≠ m)
    (s : Session) : Aside n a (a.turned i m u status notes) s s where
  layout := rfl
  id := rfl
  tree := rfl
  loop := rfl
  connected hc := hc
  kept j status' hj := by
    have hji : j ≠ i := by
      -- A task that belongs to this session is not the one that has its turn
      rintro rfl
      rw [hi] at hj
      cases hj
      exact hne rfl
    rw [tasks_turned_of_ne hji, hj]
  new j status' hj := by
    -- The task that has its turn is one of the other session
    by_cases hji : j = i
    · subst hji
      rw [tasks_turned_self hi] at hj
      cases hj
      exact absurd rfl hne
    · rw [tasks_turned_of_ne hji] at hj
      exact .inl hj

/-- Every task belongs to a session that is there. -/
theorem InLine.session_lt (h : InLine l a calls taken) (hi : a.tasks[i]? = some ⟨n, status⟩) :
    n < a.sessions.length := by
  have hn : n ∈ calls.map Call.session := by
    rw [← h.tasks]
    exact List.mem_map_of_mem (List.mem_of_getElem? hi)
  obtain ⟨c, hc, rfl⟩ := List.mem_map.1 hn
  exact h.exist c hc

/-- A fresh app has no sessions and no calls. -/
theorem inLine_create {config : Config} (h : App.create l config = .ok a) : InLine l a [] [] := by
  have hregistered := registered_create h
  unfold App.create at h
  obtain ⟨_, _, h⟩ := bind_eq_ok h
  obtain rfl := Except.ok.inj h
  exact ⟨rfl, hregistered, rfl, nofun, nofun, .nil, nofun, nofun⟩

/-- A call gets into the line for a session. -/
theorem InLine.enqueue (h : InLine l a calls taken) (hn : n < a.sessions.length) (job : Job) :
    InLine l (a.enqueue n job) (calls ++ [⟨n, job⟩]) taken where
  layout := h.layout
  registered := h.registered
  tasks := by simp [App.enqueue, h.tasks]
  exist c hc := by
    -- The new call is for a session that exists
    rcases List.mem_append.1 hc with hc | hc
    · exact h.exist c hc
    · rw [List.mem_singleton.1 hc]
      exact hn
  called x hx := by
    have hcalled := h.called x hx
    rw [List.getElem?_append_left (List.getElem?_eq_some_iff.1 hcalled).1, hcalled]
  nodup := h.nodup
  waiting i m job' hi := by
    have hlength : a.tasks.length = calls.length := by simpa using congrArg List.length h.tasks
    -- Either it waited before, or it is the new call
    simp only [App.enqueue, List.getElem?_append] at hi
    split at hi
    · next hlt =>
      rw [List.getElem?_append_left (hlength ▸ hlt)]
      exact h.waiting i m job' hi
    · next hge =>
      have htask := List.mem_singleton.1 (List.mem_of_getElem? hi)
      have hi' : i - a.tasks.length < 1 := (List.getElem?_eq_some_iff.1 hi).1
      obtain rfl : i = calls.length := by omega
      cases htask
      refine ⟨by simp, fun x hx => ?_⟩
      exact Nat.ne_of_lt (List.getElem?_eq_some_iff.1 (h.called x hx)).1
  sessions m s hs := by
    obtain ⟨t₀, ht₀, hserial⟩ := h.sessions m s hs
    exact ⟨t₀, ht₀, hserial.aside (aside_enqueue a n job s)⟩

/-- A client gets a session of its own, for which there are no calls. -/
theorem InLine.withFresh (h : InLine l a calls taken) (id : String)
    (ht : Tree.start a.layout = .ok t) : InLine l (a.withFresh id t) calls taken where
  layout := h.layout
  registered := h.registered.withFresh id t
  tasks := h.tasks
  exist c hc := by
    have hlt := h.exist c hc
    -- There are more sessions than before
    simp only [App.withFresh, List.length_append]
    omega
  called := h.called
  nodup := h.nodup
  waiting := h.waiting
  sessions m s hs := by
    simp only [App.withFresh, List.getElem?_append] at hs
    split at hs
    · obtain ⟨t₀, ht₀, hserial⟩ := h.sessions m s hs
      exact ⟨t₀, ht₀, hserial.aside (aside_of_tasks rfl rfl rfl rfl rfl fun hc => hc)⟩
    · next hge =>
      obtain rfl := List.mem_singleton.1 (List.mem_of_getElem? hs)
      -- The number is a new one, so no call has it yet
      have hserved : taken.filter (fun x => x.2.session = m) = [] := by
        refine List.filter_eq_nil_iff.2 fun x hx => ?_
        have hlt := h.exist x.2 (List.mem_of_getElem? (h.called x hx))
        simp only [decide_eq_true_eq]
        omega
      refine ⟨t, h.layout ▸ ht, ?_⟩
      rw [hserved]
      refine ⟨fun i status hi => ?_, fun before x later heq => ?_, fun _ => rfl⟩
      · exact absurd (h.session_lt hi) hge
      · simp at heq

/-- A client leaves; its calls stay in line. -/
theorem InLine.detached (h : InLine l a calls taken) (hn : a.number? id = some n) :
    InLine l (a.detached id n) calls taken where
  layout := h.layout
  registered := h.registered.detached hn
  tasks := h.tasks
  exist c hc := by simpa [App.detached, modifySession] using h.exist c hc
  called := h.called
  nodup := h.nodup
  waiting := h.waiting
  sessions m s hs := by
    rw [sessions_detached] at hs
    obtain ⟨s', hs', rfl⟩ := Option.map_eq_some_iff.1 hs
    obtain ⟨t₀, ht₀, hserial⟩ := h.sessions m s' hs'
    refine ⟨t₀, ht₀, hserial.aside ?_⟩
    -- Only the session that is left is disconnected
    by_cases hnm : n = m
    · rw [if_pos hnm]
      exact aside_of_tasks rfl rfl rfl rfl rfl fun hc => absurd hc Bool.false_ne_true
    · rw [if_neg hnm]
      exact aside_of_tasks rfl rfl rfl rfl rfl fun hc => hc

/-- A task that had its turn does not wait for its session any more. -/
theorem Stage.not_waiting {p : Program Outcome} (h : Stage l s p u status) (job : Job) :
    status ≠ .waiting job := by
  cases h <;> nofun

/-- A turn on one session, which leaves the calls of all others as they are. -/
theorem InLine.turned (h : InLine l a calls taken) {old : TaskStatus}
    (hi : a.tasks[i]? = some ⟨n, old⟩) (hs : a.sessions[n]? = some s)
    (hstatus : ∀ job, status ≠ .waiting job) {taken' : List (Nat × Call)}
    (hcalled : ∀ x ∈ taken', calls[x.1]? = some x.2) (hnodup : (taken'.map Prod.fst).Nodup)
    (htaken : ∀ x ∈ taken', x ∈ taken ∨ x.1 = i)
    (hothers : ∀ m, m ≠ n →
      taken'.filter (fun x => x.2.session = m) = taken.filter fun x => x.2.session = m)
    (hserial : ∀ t₀, Serialized a n s t₀ (taken.filter fun x => x.2.session = n) →
      Serialized (a.turned i n u status notes) n { s with tree := u } t₀
        (taken'.filter fun x => x.2.session = n)) :
    InLine l (a.turned i n u status notes) calls taken' where
  layout := h.layout
  registered := h.registered.modify (f := fun s => { s with tree := u }) (fun _ => rfl)
    (fun _ hc => hc) rfl rfl
  tasks := by
    rw [← h.tasks]
    -- A turn changes what a task does, not whose it is
    refine List.ext_getElem? fun j => ?_
    by_cases hij : i = j <;> simp [App.turned, hij, Function.comp_def]
  exist c hc := by simpa [App.turned] using h.exist c hc
  called := hcalled
  nodup := hnodup
  waiting j m job hj := by
    -- The task that had the turn does not wait, so this is another one
    have hji : j ≠ i := by
      rintro rfl
      rw [tasks_turned_self hi] at hj
      cases hj
      exact hstatus job rfl
    rw [tasks_turned_of_ne hji] at hj
    obtain ⟨hcall, hnot⟩ := h.waiting j m job hj
    refine ⟨hcall, fun x hx => ?_⟩
    rcases htaken x hx with hx | hx
    · exact hnot x hx
    · exact fun heq => hji (heq.symm.trans hx)
  sessions m s' hs' := by
    -- The session of the turn is served further; all others are left aside
    by_cases hmn : m = n
    · subst hmn
      obtain ⟨t₀, ht₀, hserialized⟩ := h.sessions m s hs
      rw [sessions_turned_self hs] at hs'
      obtain rfl := Option.some.inj hs'
      exact ⟨t₀, ht₀, hserial t₀ hserialized⟩
    · rw [sessions_turned_of_ne hmn] at hs'
      obtain ⟨t₀, ht₀, hserialized⟩ := h.sessions m s' hs'
      rw [hothers m hmn]
      exact ⟨t₀, ht₀, hserialized.aside (aside_turned hi hmn s')⟩

/-- A call gets its session and is the last one that did. -/
theorem InLine.take (h : InLine l a calls taken) (hi : a.tasks[i]? = some ⟨n, .waiting job⟩)
    (hs : a.sessions[n]? = some s) (hfree : a.isBusyNumber n = false)
    (hstage : Stage a.layout s (a.program s job) u status) (notes : List Note) :
    InLine l (a.turned i n u status notes) calls (taken ++ [(i, ⟨n, job⟩)]) := by
  obtain ⟨hcall, hnot⟩ := h.waiting i n job hi
  refine h.turned hi hs hstage.not_waiting ?_ ?_ ?_ ?_ ?_
  · simpa [or_imp, forall_and, hcall] using h.called
  · -- It waited until now, so it did not get the session before
    rw [List.map_append, List.nodup_append]
    refine ⟨h.nodup, by simp, ?_⟩
    rintro _ hj _ hi' rfl
    obtain ⟨x, hx, rfl⟩ := List.mem_map.1 hj
    exact hnot x hx (List.mem_singleton.1 hi')
  · intro x hx
    refine (List.mem_append.1 hx).imp_right fun hx => ?_
    rw [List.mem_singleton.1 hx]
  · intro m hm
    simp [List.filter_append, hm.symm]
  · intro t₀ hserial
    simp only [List.filter_append, List.filter_cons, decide_true, if_true, List.filter_nil]
    exact hserial.take hi hfree hstage

/-- A paused call goes on, which changes nothing about the order. -/
theorem InLine.goOn (h : InLine l a calls taken) {rest : Program Outcome}
    (hi : a.tasks[i]? = some ⟨n, .suspended rest⟩) (hs : a.sessions[n]? = some s)
    (hstage : Stage a.layout s rest u status) (notes : List Note) :
    InLine l (a.turned i n u status notes) calls taken :=
  h.turned hi hs hstage.not_waiting h.called h.nodup (fun _ hx => .inl hx) (fun _ _ => rfl)
    fun _ hserial => hserial.goOn hi hstage

/-- Whatever the next move is, sessions go on working off their calls one at a time. -/
theorem InLine.move (h : InLine l a calls taken) (mv : Move) :
    InLine l (a.move mv) (calls ++ (a.call? mv).toList) (taken ++ (a.taken? mv).toList) := by
  have hmoved := move_spec h.registered mv
  revert hmoved
  generalize a.move mv = a', a.call? mv = call, a.taken? mv = took
  intro hmoved
  -- One case for each thing that a move can do
  cases hmoved with
  | idle => simpa using h
  | call hn job => simpa using h.enqueue (h.registered.number_lt hn) job
  | @create id t hn ht =>
    have hfresh := h.withFresh id ht
    simpa using hfresh.enqueue (n := a.sessions.length) (by simp [App.withFresh]) .connect
  | leave hn => simpa using h.detached hn
  | take notes hi hs hfree hstage => simpa using h.take hi hs hfree hstage notes
  | goOn notes hi hs hstage => simpa using h.goOn hi hs hstage notes

/-- The same for any number of moves, one after another. -/
theorem InLine.play (h : InLine l a calls taken) (ms : List Move) :
    InLine l (a.play ms) (calls ++ a.calls ms) (taken ++ a.taken ms) := by
  induction ms generalizing a calls taken with
  | nil => simpa [App.calls, App.taken] using h
  | cons m ms ih => simpa [App.calls, App.taken] using ih (h.move m)

end App

end ReactiveState
