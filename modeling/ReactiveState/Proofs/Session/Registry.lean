import ReactiveState.App
import ReactiveState.Proofs.Except

/-!
# The registry of sessions

What attaching to an app and leaving it do to the registry.  Numbers are never given twice: a new
session has a number that is larger than all others (`attach_of_none`), so that an id that is
connected again after it was disconnected stands for another session.  A registered session exists,
is connected and knows its id (`Registered`); therefore no session has two ids
(`Registered.number_inj`).
-/

namespace ReactiveState

namespace App

variable {a a' : App} {id id' : String} {n : Nat} {s : Session} {t : Tree}

/-- The session that is made for a client. -/
def fresh (a : App) (id : String) (t : Tree) : Session :=
  ⟨id, t, EventLoop.create a.config.maxEventChain, true⟩

/-- The app with a new session. -/
def withFresh (a : App) (id : String) (t : Tree) : App :=
  { a with
    sessions := a.sessions ++ [a.fresh id t]
    registry := KeyMap.insert id a.sessions.length a.registry }

/-- The app with a session marked as connected. -/
def reattached (a : App) (n : Nat) : App :=
  a.modifySession n fun s => { s with connected := true }

/-- The app without the session of an id. -/
def detached (a : App) (id : String) (n : Nat) : App :=
  { a.modifySession n fun s => { s with connected := false } with
    registry := KeyMap.erase id a.registry }

/-! ### Equations -/

/-- An identifier that is in use gets its session back. -/
theorem attach_of_some (hn : a.number? id = some n) : a.attach id = .ok (a.reattached n, n) := by
  rw [attach, hn]
  rfl

/-- One that is not in use gets a new session, with a tree of its own. -/
theorem attach_of_none (hn : a.number? id = none) (ht : Tree.start a.layout = .ok t) :
    a.attach id = .ok (a.withFresh id t, a.sessions.length) := by
  rw [attach, hn]
  simp only [ht]
  rfl

/-- If that tree cannot be started, nobody is attached. -/
theorem attach_of_error {e : StateError} (hn : a.number? id = none)
    (ht : Tree.start a.layout = .error e) : a.attach id = .error e := by
  rw [attach, hn]
  simp only [ht]
  rfl

/-- Disconnecting an identifier in use frees it. -/
theorem disconnect_of_some (hn : a.number? id = some n) :
    a.disconnect id = (a.detached id n, true) := by
  rw [disconnect, hn]
  rfl

/-- Disconnecting any other does nothing and says so. -/
theorem disconnect_of_none (hn : a.number? id = none) : a.disconnect id = (a, false) := by
  rw [disconnect, hn]

/-- An identifier in use has the session with its number. -/
theorem session?_of_number? (hn : a.number? id = some n) : a.session? id = a.sessions[n]? := by
  rw [session?, hn, Option.bind_some]

/-- One that is not in use has none. -/
theorem session?_eq_none (hn : a.number? id = none) : a.session? id = none := by
  rw [session?, hn, Option.bind_none]

/-- A new session takes the next number, and the other identifiers keep theirs. -/
theorem number?_withFresh : (a.withFresh id t).number? id' =
    if id' = id then some a.sessions.length else a.number? id' :=
  KeyMap.find?_insert id id' a.sessions.length a.registry

/-- After a disconnect the identifier has no number, and the others keep theirs. -/
theorem number?_detached :
    (a.detached id n).number? id' = if id' = id then none else a.number? id' :=
  KeyMap.find?_erase id id' a.registry

/-- A disconnect marks one session as not connected and leaves the others alone. -/
theorem sessions_detached (a : App) (id : String) (n m : Nat) :
    (a.detached id n).sessions[m]? =
      a.sessions[m]?.map fun s => if n = m then { s with connected := false } else s := by
  rw [detached, modifySession, List.getElem?_modify]
  rfl

/-! ### Registered sessions -/

/-- A session that is registered exists, is connected and knows its id. -/
def Registered (a : App) : Prop :=
  ∀ id n, a.number? id = some n →
    ∃ s, a.sessions[n]? = some s ∧ s.id = id ∧ s.connected = true

/-- No two identifiers share a session. -/
theorem Registered.number_inj (h : a.Registered) (hn : a.number? id = some n)
    (hn' : a.number? id' = some n) : id = id' := by
  obtain ⟨s, hs, hid, -⟩ := h id n hn
  obtain ⟨s', hs', hid', -⟩ := h id' n hn'
  obtain rfl := Option.some.inj (hs.symm.trans hs')
  exact hid.symm.trans hid'

/-- The number of a session in use is one that was given out. -/
theorem Registered.number_lt (h : a.Registered) (hn : a.number? id = some n) :
    n < a.sessions.length := by
  obtain ⟨s, hs, -⟩ := h id n hn
  exact (List.getElem?_eq_some_iff.1 hs).1

/-- In a new application no identifier is in use. -/
theorem registered_create {l : Layout} {config : Config} (h : App.create l config = .ok a) :
    a.Registered := by
  unfold App.create at h
  obtain ⟨_, _, h⟩ := bind_eq_ok h
  obtain rfl := Except.ok.inj h
  exact nofun

/-- A change of one session that keeps its id and, if it is connected, leaves it so. -/
theorem Registered.modify (h : a.Registered) {f : Session → Session}
    (hid : ∀ s, (f s).id = s.id) (hconnected : ∀ s, s.connected = true → (f s).connected = true)
    (hregistry : a'.registry = a.registry) (hsessions : a'.sessions = a.sessions.modify n f) :
    a'.Registered := by
  intro id m hm
  rw [number?, hregistry] at hm
  obtain ⟨s, hs, rfl, hc⟩ := h id m hm
  rw [hsessions, List.getElem?_modify, hs]
  -- The session of the client is the one that changed, or another one
  by_cases hnm : n = m
  · exact ⟨f s, by simp [hnm], hid s, hconnected s hc⟩
  · exact ⟨s, by simp [hnm], rfl, hc⟩

/-- Coming back to a session keeps the register right. -/
theorem Registered.reattached (h : a.Registered) (n : Nat) : (a.reattached n).Registered :=
  h.modify (f := fun s => { s with connected := true }) (fun _ => rfl) (fun _ _ => rfl) rfl rfl

/-- So does a new session. -/
theorem Registered.withFresh (h : a.Registered) (id : String) (t : Tree) :
    (a.withFresh id t).Registered := by
  intro id' m hm
  rw [number?_withFresh] at hm
  -- Either the identifier is the new one, or its session stands where it stood before
  split at hm
  · next heq =>
    obtain rfl := Option.some.inj hm
    exact ⟨a.fresh id t, by simp [App.withFresh], heq.symm, rfl⟩
  · obtain ⟨s, hs, hid, hc⟩ := h id' m hm
    refine ⟨s, ?_, hid, hc⟩
    rw [← hs]
    exact List.getElem?_append_left (h.number_lt hm)

/-- So does a disconnect. -/
theorem Registered.detached (h : a.Registered) (hn : a.number? id = some n) :
    (a.detached id n).Registered := by
  intro id' m hm
  rw [number?_detached] at hm
  split at hm
  · cases hm
  · next hne =>
    obtain ⟨s, hs, hid, hc⟩ := h id' m hm
    -- The session that was left is not registered under any other id
    have hnm : n ≠ m := fun heq => hne (h.number_inj hm (heq ▸ hn))
    exact ⟨s, by simp [App.detached, modifySession, hnm, hs], hid, hc⟩

end App

end ReactiveState
