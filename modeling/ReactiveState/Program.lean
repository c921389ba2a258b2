import ReactiveState.Error

/-! # Programs over a tree

A `Program` is what an event handler does: a sequence of requests to the tree, each of which is
answered before the next one is chosen.  It does not say what a tree is, so handlers can be part of
the schema that trees are made from, and two programs that make the same requests are the same
program.

Between two requests a program may pause, which lets other work proceed, and it may leave a note for
whoever watches. -/

namespace ReactiveState

/-- An event for the handler at a full path. -/
structure Event where
  /-- The path of the container and the name of the handler, with a dot between. -/
  handler : String
  args : List Value

/-- What a program leaves for a watcher. -/
inductive Note where
  | read (field : String) (value : Value)
  | path (path : String)
  | caught (error : HandlerError)
  | flushed (result : Except FlushError Delta)

/-- Requests to a tree that end in a result. -/
inductive Program (α : Type) where
  | done (result : α)
  /-- Reads a field. -/
  | get (key : FieldKey) (next : Except StateError Value → Program α)
  /-- Assigns a stored field. -/
  | set (key : FieldKey) (value : Value) (next : Except StateError Unit → Program α)
  /-- Asks whether there is a container at a path, and for the path of its parent. -/
  | locate (path : String) (next : Except StateError (Option String) → Program α)
  /-- Flushes the tree. -/
  | flush (next : Except FlushError Delta → Program α)
  /-- Takes a snapshot of the tree. -/
  | snapshot (next : Except StateError Delta → Program α)
  | note (note : Note) (next : Program α)
  | pause (next : Program α)

namespace Program

/-- One program after another. -/
def bind {α β : Type} : Program α → (α → Program β) → Program β
  | done a, f => f a
  | get k next, f => get k fun r => bind (next r) f
  | set k v next, f => set k v fun r => bind (next r) f
  | locate path next, f => locate path fun r => bind (next r) f
  | flush next, f => flush fun r => bind (next r) f
  | snapshot next, f => snapshot fun r => bind (next r) f
  | note n next, f => note n (bind next f)
  | pause next, f => pause (bind next f)

instance : Monad Program where
  pure := done
  bind := bind

/-- Reads a stored field, changes the value and assigns it. -/
def modify (k : FieldKey) (f : Value → Value) : Program (Except StateError Unit) :=
  get k fun
    | .ok v => set k (f v) done
    | .error e => done (.error e)

end Program

/-- A handler: what to do for an event with these arguments, at the container of this path.  Only an
asynchronous handler may pause. -/
structure Handler where
  isAsync : Bool
  run : String → List Value → Program (Except HandlerError (List Event))

end ReactiveState
