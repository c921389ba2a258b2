import ReactiveState.Program

/-! # Scripts

A small language for handlers: reading, writing and changing fields of the container, moving to
other containers, emitting follow-up events, failing and recovering.  `Script.handler` makes a
handler of a script.

An error ends the script, and the events emitted before it are lost, unless an `attempt` around them
catches it. -/

namespace ReactiveState

/-- Where a step takes a value from. -/
inductive Operand where
  /-- An argument of the event, by position. -/
  | arg (index : Nat)
  /-- A field of the container. -/
  | field (name : String)
  | value (v : Value)

/-- How a value is changed in place.  A value that the change does not fit is left alone. -/
inductive Mutation where
  /-- An integer plus another; what is no integer counts as zero, and as one if it is added. -/
  | incr
  | replace
  /-- One more item on a list. -/
  | push
  /-- A value at a key of a dict. -/
  | put (key : String)
  /-- More text on a string. -/
  | append
  | flip

/-- Changes a value with the help of another. -/
def Mutation.apply (m : Mutation) (x v : Value) : Value :=
  match m, v with
  | incr, v => .int ((v.int?.getD 0) + (x.int?.getD 1))
  | replace, _ => x
  | push, .list items => .list (items ++ [x])
  | put key, .dict entries => .dict (KeyMap.insert key x entries)
  | append, .str s => .str (s ++ x.str?.getD "")
  | flip, .bool b => .bool (!b)
  | _, v => v

/-- One step of a script. -/
inductive Step where
  | set (field : String) (value : Operand)
  /-- Notes the value of a field. -/
  | read (field : String)
  /-- Notes the path of the container. -/
  | path
  | modify (field : String) (mutation : Mutation) (value : Operand)
  /-- A follow-up event for a handler of this container. -/
  | emit (handler : String) (args : List Operand)
  /-- A follow-up event for a handler by its full path. -/
  | send (handler : String) (args : List Operand)
  | fail (message : String)
  /-- Notes an error in the body and goes on. -/
  | attempt (body : List Step)
  | inChild (name : String) (body : List Step)
  | inContainer (path : String) (body : List Step)
  | inParent (body : List Step)
  /-- Flushes the tree and notes what that gave. -/
  | flush
  | pause

namespace Script

/-- A run of steps: the events emitted so far go in; the outcome and the events emitted until then
come out. -/
abbrev Run (α : Type) := ExceptT HandlerError (StateT (List Event) Program) α

/-- A request to the tree as part of a run. -/
def ask {α : Type} (p : Program α) : Run α :=
  ExceptT.lift (StateT.lift p)

/-- A request whose error ends the run. -/
def demand {α : Type} (p : Program (Except StateError α)) : Run α := do
  match ← ask p with
  | .ok a => return a
  | .error e => throw (.state e)

/-- The value of an operand. -/
def operand (path : String) (args : List Value) : Operand → Run Value
  | .arg i =>
    match args[i]? with
    | some v => return v
    | none => throw (.failed ("missing argument " ++ toString i))
  | .field name => demand (.get ⟨path, name⟩ .done)
  | .value v => return v

/-- The values of operands, from left to right. -/
def operands (path : String) (args : List Value) : List Operand → Run (List Value)
  | [] => return []
  | x :: xs => do
    let v ← operand path args x
    let vs ← operands path args xs
    return v :: vs

mutual

/-- Runs one step at a container.  Only steps that are not inside a body may pause. -/
def step (mayPause : Bool) (path : String) (args : List Value) : Step → Run Unit
  | .set field x => do
    let v ← operand path args x
    demand (.set ⟨path, field⟩ v .done)
  | .read field => do
    let v ← demand (.get ⟨path, field⟩ .done)
    ask (.note (.read field v) (.done ()))
  | .path => ask (.note (.path path) (.done ()))
  | .modify field m x => do
    let v ← operand path args x
    demand (.modify ⟨path, field⟩ (m.apply v))
  | .emit handler xs => do
    let vs ← operands path args xs
    modify (· ++ [⟨path ++ "." ++ handler, vs⟩])
  | .send handler xs => do
    let vs ← operands path args xs
    modify (· ++ [⟨handler, vs⟩])
  | .fail message => throw (.failed message)
  | .attempt body =>
    tryCatch (steps false path args body) fun e => ask (.note (.caught e) (.done ()))
  | .inChild name body => do
    let _ ← demand (.locate (path ++ "." ++ name) .done)
    steps false (path ++ "." ++ name) args body
  | .inContainer other body => do
    let _ ← demand (.locate other .done)
    steps false other args body
  | .inParent body => do
    match ← ask (.locate path .done) with
    | .ok (some parent) => steps false parent args body
    | _ => throw (.failed "no parent")
  | .flush => do
    let r ← ask (.flush .done)
    ask (.note (.flushed r) (.done ()))
  | .pause => if mayPause then ask (.pause (.done ())) else return ()

/-- Runs steps one after another. -/
def steps (mayPause : Bool) (path : String) (args : List Value) : List Step → Run Unit
  | [] => return ()
  | s :: ss => do
    step mayPause path args s
    steps mayPause path args ss

end

/-- What a script does at a container: its outcome and the events it emitted. -/
def program (mayPause : Bool) (script : List Step) (path : String) (args : List Value) :
    Program (Except HandlerError Unit × List Event) :=
  ((steps mayPause path args script).run).run []

/-- The handler that runs a script; what it emits are its follow-up events. -/
def handler (isAsync : Bool) (script : List Step) : Handler where
  isAsync := isAsync
  run path args := do
    match ← program isAsync script path args with
    | (.ok (), events) => return .ok events
    | (.error e, _) => return .error e

end Script

end ReactiveState
