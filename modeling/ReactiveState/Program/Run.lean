import ReactiveState.Program
import ReactiveState.Tree.Flush

/-! # Running programs

A program runs on the tree of a layout.  `Program.advance` runs it up to its next pause,
`Program.run` to its end with the pauses passed over.  Both give the tree afterwards and the notes
that were left. -/

namespace ReactiveState

namespace Program

/-- How far a program got: to its end, or to a pause with this much left to do. -/
inductive Progress (α : Type) where
  | finished (result : α)
  | paused (rest : Program α)

/-- The answer to the question for a container. -/
def located (l : Layout) (path : String) : Except StateError (Option String) :=
  match l.container? path with
  | some c => .ok c.parent
  | none => .error (.unknownContainer path)

/-- Runs a program up to its next pause. -/
def advance {α : Type} (l : Layout) : Program α → Tree → Progress α × Tree × List Note
  | done a, t => (.finished a, t, [])
  | get k next, t =>
    let (r, t) := (Tree.get l k).run t
    advance l (next r) t
  | set k v next, t =>
    let (r, t) := (Tree.set l k v).run t
    advance l (next r) t
  | locate path next, t => advance l (next (located l path)) t
  | flush next, t =>
    let (r, t) := t.flush l
    advance l (next r) t
  | snapshot next, t =>
    let (r, t) := (Tree.snapshot l).run t
    advance l (next r) t
  | note n next, t =>
    let (p, t, notes) := advance l next t
    (p, t, n :: notes)
  | pause next, t => (.paused next, t, [])

/-- Runs a program to its end. -/
def run {α : Type} (l : Layout) : Program α → Tree → α × Tree × List Note
  | done a, t => (a, t, [])
  | get k next, t =>
    let (r, t) := (Tree.get l k).run t
    run l (next r) t
  | set k v next, t =>
    let (r, t) := (Tree.set l k v).run t
    run l (next r) t
  | locate path next, t => run l (next (located l path)) t
  | flush next, t =>
    let (r, t) := t.flush l
    run l (next r) t
  | snapshot next, t =>
    let (r, t) := (Tree.snapshot l).run t
    run l (next r) t
  | note n next, t =>
    let (a, t, notes) := run l next t
    (a, t, n :: notes)
  | pause next, t => run l next t

end Program

end ReactiveState
