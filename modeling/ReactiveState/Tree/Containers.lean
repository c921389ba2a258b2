import ReactiveState.Container
import ReactiveState.Tree.Flush

/-! # Trees of containers

A `ContainerTree` is the state of one session as its containers own it: every field is kept by its
container, and every container by its parent.  The operations are those of a `Tree`.  Each of them
goes from the root to the container of a path, and there to a field or a slot; whatever it does not
find is an error, where a `Tree` has nothing to look for. -/

namespace ReactiveState

/-- The state of one session, container by container. -/
structure ContainerTree where
  root : Container
  /-- The computed fields that failed in the last flush. -/
  unsent : List FieldKey

/-- An operation on the containers that may fail. -/
abbrev ContainerTreeM (ε α : Type) := ExceptT ε (StateM ContainerTree) α

namespace ContainerTree

/-! ### Finding -/

/-- The container of a path. -/
def container (c : ContainerTree) (path : String) : Except StateError Container :=
  match c.root.find? path with
  | some found => .ok found
  | none => .error (.unknownContainer path)

/-- The slot of a computed field. -/
def slot (c : ContainerTree) (k : FieldKey) : Except StateError Slot := do
  let found ← c.container k.path
  match found.slot? k.field with
  | some slot => return slot
  | none => throw (.unknownField k)

/-- Changes the slot of a computed field. -/
def modifySlot (k : FieldKey) (f : Slot → Slot) : ContainerTreeM StateError Unit := do
  let c ← MonadState.get
  match c.slot k with
  | .ok _ => MonadState.set { c with root := c.root.modifyAt k.path (·.modifySlot k.field f) }
  | .error e => throw e

/-! ### Reading -/

/-- What an evaluation is told when the field that it reads fails. -/
def told (k : FieldKey) : StateError → EvalError
  | .eval _ source => source
  | _ => .unknownField k

/-- Reads a stored field; a computed field is left to `computed`. -/
def getWith (computed : FieldKey → ContainerTreeM StateError Value) (k : FieldKey) :
    ContainerTreeM StateError Value := do
  let c ← MonadState.get
  match c.container k.path with
  | .error e => throw e
  | .ok found =>
    match found.value? k.field with
    | some v => return v
    | none => if (found.slot? k.field).isSome then computed k else throw (.unknownField k)

/-- The value in the slot of a computed field; an empty slot is left to `evaluate`. -/
def cachedOr (k : FieldKey) (evaluate : ContainerTreeM StateError Value) :
    ContainerTreeM StateError Value := do
  let c ← MonadState.get
  match c.slot k with
  | .error e => throw e
  | .ok slot =>
    match slot.cached with
    | some v => return v
    | none => evaluate

/-- Evaluates a computed field, unless its slot is up to date.  `depth` bounds how many computed
fields may be evaluated inside each other. -/
def computedValue (l : Layout) : Nat → FieldKey → ContainerTreeM StateError Value
  -- At depth zero the fields would read each other in a circle
  | 0, k => cachedOr k (throw (.eval k (.unknownField k)))
  | depth + 1, k => cachedOr k <|
    match l.computed? k with
    | none => throw (.unknownField k)
    | some e => do
      let v ← (e.eval fun d => (getWith (computedValue l depth) d).adapt (told d)).adapt (.eval k)
      modifySlot k (·.store v)
      return v

/-- Reads a stored or computed field. -/
def get (l : Layout) (k : FieldKey) : ContainerTreeM StateError Value :=
  getWith (computedValue l l.computedCount) k

/-! ### Writing -/

/-- Drops the cached value of a computed field, if it has a slot. -/
def invalidate (c : ContainerTree) (k : FieldKey) : ContainerTree :=
  { c with root := c.root.modifyAt k.path (·.modifySlot k.field Slot.invalidate) }

/-- Assigns a stored field.  The value is stored as the type of the field coerces it. -/
def set (l : Layout) (k : FieldKey) (v : Value) : ContainerTreeM StateError Unit := do
  match l.field? k with
  | none => throw (Tree.notStored l k)
  | some decl =>
    match decl.type.coerce v with
    | none => throw (.fieldTypeMismatch k.path k.field decl.type v.kind)
    | some w =>
      let c ← MonadState.get
      match c.container k.path with
      | .error e => throw e
      | .ok found =>
        if (found.value? k.field).isSome then
          let c := { c with root := c.root.modifyAt k.path (·.assign k.field w) }
          MonadState.set ((l.graph.affected [k]).foldl invalidate c)
        else throw (.unknownField k)

/-- Reads a field, changes the value and assigns it. -/
def modifyField (l : Layout) (k : FieldKey) (f : Value → Value) :
    ContainerTreeM StateError Unit := do
  let v ← get l k
  set l k (f v)

/-! ### Starting and snapshots -/

/-- Evaluates the computed fields one after another, as known to the client. -/
def syncAll (l : Layout) : List FieldKey → ContainerTreeM StateError Unit
  | [] => return ()
  | k :: ks => do
    let v ← computedValue l l.computedCount k
    modifySlot k (·.sync v)
    syncAll l ks

/-- Fresh containers, in the state that a client starts with. -/
def start (l : Layout) : Except StateError ContainerTree :=
  match l.container? l.root with
  | none => .error (.unknownContainer l.root)
  | some info =>
    match (syncAll l l.order).run ⟨.instantiate l.root none info.schema, []⟩ with
    | (.ok (), c) => .ok c
    | (.error e, _) => .error e

/-- Adds the current values of fields to a delta, as known to the client. -/
def collect (l : Layout) : List FieldKey → Delta → ContainerTreeM StateError Delta
  | [], delta => return delta
  | k :: ks, delta => do
    let v ← get l k
    if l.isComputed k then modifySlot k (·.sync v)
    collect l ks (delta.insert k.path k.field v)

/-- The current value of everything the client may see.  The client holds exactly this
afterwards. -/
def snapshot (l : Layout) : ContainerTreeM StateError Delta := do
  let delta ← collect l l.clientKeys .empty
  modify fun c => { c with unsent := [] }
  return delta

/-! ### Flushing -/

/-- All stored fields that were assigned since the last flush. -/
def dirtyKeys (c : ContainerTree) : List FieldKey :=
  c.root.nodes.flatMap fun found => found.dirty.map fun name => ⟨found.path, name⟩

/-- What a flush has collected so far. -/
structure FlushState where
  tree : ContainerTree
  delta : Delta
  /-- The failures, first one first. -/
  failures : List StateError
  /-- The fields that failed. -/
  unsent : List FieldKey
  /-- The fields whose new value was told in the current round. -/
  changed : List FieldKey

/-- Adds the current value of an assigned field that the client may see. -/
def tellStored (l : Layout) (s : FlushState) (k : FieldKey) : FlushState :=
  if l.isBackend k then s
  else
    match (get l k).run s.tree with
    | (.ok v, c) => { s with tree := c, delta := s.delta.insert k.path k.field v }
    | (.error e, c) => { s with tree := c, failures := s.failures ++ [e] }

/-- Evaluates a computed field afresh.  Gives the value if the client does not hold it yet. -/
def refresh (l : Layout) (k : FieldKey) : ContainerTreeM StateError (Option Value) := do
  modifySlot k Slot.invalidate
  let v ← get l k
  let c ← MonadState.get
  match c.slot k with
  | .error e => throw e
  | .ok slot =>
    modifySlot k (·.sync v)
    return if slot.differs v then some v else none

/-- Refreshes one field in a round. -/
def refreshInto (l : Layout) (s : FlushState) (k : FieldKey) : FlushState :=
  match (refresh l k).run s.tree with
  | (.ok (some v), c) =>
    { s with tree := c, delta := s.delta.insert k.path k.field v, changed := s.changed ++ [k] }
  | (.ok none, c) => { s with tree := c }
  | (.error e, c) =>
    { s with tree := c, failures := s.failures ++ [e], unsent := KeySet.insert k s.unsent }

/-- Runs rounds until one has nothing to refresh, at most `rounds` of them. -/
def settle (l : Layout) : Nat → List FieldKey → FlushState → FlushState
  | rounds, retry, s =>
    match Tree.stale l s.changed retry, rounds with
    | [], _ => s
    | k :: ks, 0 =>
      let cycle := match l.graph.order with
        | .ok _ => k :: ks
        | .error cycle => cycle
      { s with failures := s.failures ++ [.cyclicComputedDependency cycle] }
    | k :: ks, rounds + 1 =>
      settle l rounds [] ((k :: ks).foldl (refreshInto l) { s with changed := [] })

/-- What the rounds of a flush end with. -/
def settled (l : Layout) (c : ContainerTree) : FlushState :=
  settle l l.computedCount c.unsent <| c.dirtyKeys.foldl (tellStored l)
    { tree := c, delta := .empty, failures := [], unsent := [], changed := c.dirtyKeys }

/-- What the client has to be told since the last flush, and the containers after it was told. -/
def flush (l : Layout) (c : ContainerTree) : Except FlushError Delta × ContainerTree :=
  let s := c.settled l
  let c := { root := s.tree.root.clearMarks, unsent := s.unsent }
  match s.failures with
  | [] => (.ok s.delta, c)
  | e :: _ => (.error ⟨s.delta, e⟩, c)

end ContainerTree

end ReactiveState
