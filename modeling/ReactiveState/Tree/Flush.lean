import ReactiveState.Tree

/-! # Flushing

A flush computes what the client has to be told since the last one.

1. The current value of every dirty stored field, backend fields left out.
2. In rounds, every computed field that directly reads a field that changed is evaluated again.  If
   the client holds another value, the new one is told and the field counts as changed in the next
   round.  The first round also takes up the fields that failed in the last flush.
3. The dirty marks are cleared.

A field that fails to evaluate is left out and kept for the next flush; the first failure is
reported with the delta of all the rest.  Every round moves one step along a chain of computed
fields, so there are at most as many rounds as computed fields. -/

namespace ReactiveState

namespace Tree

/-- What a flush has collected so far. -/
structure FlushState where
  tree : Tree
  delta : Delta
  /-- The failures, first one first. -/
  failures : List StateError
  /-- The fields that failed. -/
  unsent : List FieldKey
  /-- The fields whose new value was told in the current round. -/
  changed : List FieldKey

/-- Evaluates a computed field afresh.  Gives the value if the client does not hold it yet. -/
def refresh (l : Layout) (k : FieldKey) : TreeM StateError (Option Value) := do
  -- A value cached before the change must not be taken for the new one
  modify fun t => t.modifySlot k Slot.invalidate
  let v ← get l k
  let t ← MonadState.get
  match t.slot? k with
  | none => throw (.unknownField k)
  | some slot =>
    sync k v
    return if slot.differs v then some v else none

/-- Refreshes one field in a round. -/
def refreshInto (l : Layout) (s : FlushState) (k : FieldKey) : FlushState :=
  match (refresh l k).run s.tree with
  | (.ok (some v), t) =>
    { s with tree := t, delta := s.delta.insert k.path k.field v, changed := s.changed ++ [k] }
  | (.ok none, t) => { s with tree := t }
  | (.error e, t) =>
    { s with tree := t, failures := s.failures ++ [e], unsent := KeySet.insert k s.unsent }

/-- The computed fields that read a changed field directly or are to be tried again, each after
those it reads. -/
def stale (l : Layout) (changed retry : List FieldKey) : List FieldKey :=
  let dependents := changed.flatMap l.graph.dependents
  l.order.filter fun k => k ∈ dependents || k ∈ retry

/-- Runs rounds until one has nothing to refresh, at most `rounds` of them. -/
def settle (l : Layout) : Nat → List FieldKey → FlushState → FlushState
  | rounds, retry, s =>
    match stale l s.changed retry, rounds with
    | [], _ => s
    | k :: ks, 0 =>
      -- Each round goes one step down the graph, so only a circle can use up the rounds
      let cycle := match l.graph.order with
        | .ok _ => k :: ks
        | .error cycle => cycle
      { s with failures := s.failures ++ [.cyclicComputedDependency cycle] }
    | k :: ks, rounds + 1 =>
      settle l rounds [] ((k :: ks).foldl (refreshInto l) { s with changed := [] })

/-- Adds the current value of a stored field that the client may see. -/
def tellStored (l : Layout) (t : Tree) (delta : Delta) (k : FieldKey) : Delta :=
  if l.isBackend k then delta
  else
    match t.stored? k with
    | some v => delta.insert k.path k.field v
    | none => delta

/-- The current values of the dirty fields that the client may see. -/
def dirtyDelta (l : Layout) (t : Tree) : Delta :=
  t.dirty.foldl (tellStored l t) .empty

/-- What the client has to be told since the last flush, and the tree after it was told. -/
def flush (l : Layout) (t : Tree) : Except FlushError Delta × Tree :=
  let s := settle l l.computedCount t.unsent
    { tree := t, delta := dirtyDelta l t, failures := [], unsent := [], changed := t.dirty }
  -- The marks go even if a field failed: it is in `unsent` now
  let t := { s.tree with dirty := [], unsent := s.unsent }
  match s.failures with
  | [] => (.ok s.delta, t)
  | e :: _ => (.error ⟨s.delta, e⟩, t)

end Tree

end ReactiveState
