import ReactiveState.Expr.Eval
import ReactiveState.Layout
import ReactiveState.Slot

/-! # Trees

A `Tree` is the state of one session: the values of the stored fields, a slot for each computed
field, the stored fields assigned since the last flush, and the computed fields whose value the
client has yet to receive.  The layout that it belongs to is given to each operation.

* Reading a computed field evaluates it unless its slot is up to date, and so fills the slots of the
  fields it reads.
* Assigning a stored field coerces the value, marks the field as dirty and invalidates every
  computed field that depends on it.

Operations run in `TreeM`: they may fail, and what they did to the tree before that remains. -/

namespace ReactiveState

/-- The state of one session. -/
structure Tree where
  /-- The stored fields, in the order of the layout. -/
  values : List (FieldKey × Value)
  /-- The slots of the computed fields, in the order of the layout. -/
  slots : List (FieldKey × Slot)
  /-- The stored fields assigned since the last flush, in the order of their first assignment. -/
  dirty : List FieldKey
  /-- The computed fields that failed in the last flush. -/
  unsent : List FieldKey

/-- An operation on a tree that may fail. -/
abbrev TreeM (ε α : Type) := ExceptT ε (StateM Tree) α

namespace Tree

/-- The value of a stored field. -/
def stored? (t : Tree) (k : FieldKey) : Option Value :=
  KeyMap.find? k t.values

/-- The slot of a computed field. -/
def slot? (t : Tree) (k : FieldKey) : Option Slot :=
  KeyMap.find? k t.slots

/-- Changes the slot of a field. -/
def modifySlot (t : Tree) (k : FieldKey) (f : Slot → Slot) : Tree :=
  { t with slots := KeyMap.modify k f t.slots }

/-- Whether a stored field was assigned since the last flush. -/
def isDirty (t : Tree) : Bool := !t.dirty.isEmpty

/-- The tree of a layout with every stored field at its default and nothing evaluated. -/
def instantiate (l : Layout) : Tree where
  values := l.containers.flatMap fun c =>
    c.schema.fields.map fun decl => (⟨c.path, decl.name⟩, decl.default)
  slots := l.containers.flatMap fun c => c.computedKeys.map fun k => (k, .fresh)
  dirty := []
  unsent := []

/-! ### Reading -/

/-- The value of a stored field, or of a computed field whose slot is up to date.  Any other
computed field is left to `evaluate`. -/
def known (k : FieldKey) (evaluate : TreeM EvalError Value) : TreeM EvalError Value := do
  let t ← get
  match t.stored? k, t.slot? k with
  | some v, _ => return v
  | none, none => throw (.unknownField k)
  | none, some slot =>
    match slot.cached with
    | some v => return v
    | none => evaluate

/-- Reads a field for an evaluation.  A computed field is evaluated and its slot filled unless it is
up to date.  `depth` bounds how many computed fields may be evaluated inside each other. -/
def read (l : Layout) : Nat → FieldKey → TreeM EvalError Value
  -- At depth zero the fields would read each other in a circle
  | 0, k => known k (throw (.unknownField k))
  | depth + 1, k => known k <|
    match l.computed? k with
    | some e => do
      let v ← e.eval (read l depth)
      modify fun t => t.modifySlot k (·.store v)
      return v
    | none => throw (.unknownField k)

/-- Evaluates a computed field, unless its slot is up to date.  No evaluation is nested deeper than
there are computed fields. -/
def computedValue (l : Layout) (k : FieldKey) : TreeM StateError Value :=
  (read l l.computedCount k).adapt (StateError.eval k)

/-- Reads a stored or computed field. -/
def get (l : Layout) (k : FieldKey) : TreeM StateError Value := do
  let t ← MonadState.get
  if (l.container? k.path).isNone then throw (.unknownContainer k.path)
  else
    match t.stored? k, t.slot? k with
    | some v, _ => return v
    | none, some _ => computedValue l k
    | none, none => throw (.unknownField k)

/-! ### Writing -/

/-- Why a field that is not stored cannot be assigned. -/
def notStored (l : Layout) (k : FieldKey) : StateError :=
  if (l.container? k.path).isNone then .unknownContainer k.path
  else if l.isComputed k then .computedFieldWrite k
  else .unknownField k

/-- Puts a value into a stored field, marks the field as dirty and invalidates what depends on
it. -/
def assign (l : Layout) (k : FieldKey) (v : Value) (t : Tree) : Tree :=
  let t := { t with
    values := KeyMap.modify k (fun _ => v) t.values
    dirty := if k ∈ t.dirty then t.dirty else t.dirty ++ [k] }
  (l.graph.affected [k]).foldl (fun t d => t.modifySlot d Slot.invalidate) t

/-- Assigns a stored field.  The value is stored as the type of the field coerces it. -/
def set (l : Layout) (k : FieldKey) (v : Value) : TreeM StateError Unit := do
  let t ← MonadState.get
  match l.field? k with
  | none => throw (notStored l k)
  | some decl =>
    match decl.type.coerce v with
    | none => throw (.fieldTypeMismatch k.path k.field decl.type v.kind)
    | some w =>
      if (t.stored? k).isSome then MonadState.set (t.assign l k w) else throw (.unknownField k)

/-- Reads a field, changes the value and assigns it. -/
def modifyField (l : Layout) (k : FieldKey) (f : Value → Value) : TreeM StateError Unit := do
  let v ← get l k
  set l k (f v)

/-! ### Starting and snapshots -/

/-- Notes that the client now holds this value of a computed field. -/
def sync (k : FieldKey) (v : Value) : TreeM StateError Unit :=
  modify fun t => t.modifySlot k (·.sync v)

/-- Evaluates the computed fields one after another, as known to the client. -/
def syncAll (l : Layout) : List FieldKey → TreeM StateError Unit
  | [] => return ()
  | k :: ks => do
    let v ← computedValue l k
    sync k v
    syncAll l ks

/-- A fresh tree, in the state that a client starts with. -/
def start (l : Layout) : Except StateError Tree :=
  match (syncAll l l.order).run (instantiate l) with
  | (.ok (), t) => .ok t
  | (.error e, _) => .error e

/-- Adds the current values of fields to a delta, as known to the client. -/
def collect (l : Layout) : List FieldKey → Delta → TreeM StateError Delta
  | [], delta => return delta
  | k :: ks, delta => do
    let v ← get l k
    if l.isComputed k then sync k v
    collect l ks (delta.insert k.path k.field v)

/-- The current value of everything the client may see.  The client holds exactly this
afterwards. -/
def snapshot (l : Layout) : TreeM StateError Delta := do
  let delta ← collect l l.clientKeys .empty
  modify fun t => { t with unsent := [] }
  return delta

/-- The state that a client of a fresh tree starts with. -/
def initialState (l : Layout) : Except StateError Delta := do
  let t ← start l
  ((snapshot l).run t).1

/-! ### Containers -/

/-- The fields of a container that were assigned since the last flush. -/
def dirtyFields (t : Tree) (path : String) : List String :=
  (t.dirty.filter (·.path = path)).map (·.field)

/-- Whether a path is that of a container or lies below it. -/
def isUnder (path other : String) : Bool :=
  other = path || other.startsWith (path ++ ".")

/-- How many dots a path has. -/
def level (path : String) : Nat :=
  path.toList.count '.'

/-- The paths of a container and of all containers below it, level by level. -/
def descendants (l : Layout) (path : String) : List String :=
  ((l.containers.map (·.path)).filter (isUnder path)).mergeSort fun a b => level a ≤ level b

end Tree

end ReactiveState
