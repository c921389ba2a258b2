import ReactiveState.Value

/-! # Slots

A `Slot` belongs to one computed field of one tree.  It caches the value of the field for as long as
nothing the field reads has changed, and it remembers the value that the client last received, which
decides whether a new value has to be sent. -/

namespace ReactiveState

/-- The cache of a computed field. -/
structure Slot where
  /-- The value, while it is up to date. -/
  cached : Option Value
  /-- The value that the client last received; null before the first. -/
  synced : Value

namespace Slot

/-- A slot that was never evaluated. -/
def fresh : Slot := ⟨none, .null⟩

/-- Whether the cached value is up to date. -/
def isClean (s : Slot) : Bool := s.cached.isSome

/-- Drops the cached value. -/
def invalidate (s : Slot) : Slot := { s with cached := none }

/-- Caches a value just evaluated. -/
def store (s : Slot) (v : Value) : Slot := { s with cached := some v }

/-- Whether the client holds another value than this one. -/
def differs (s : Slot) (v : Value) : Bool := !(s.synced == v)

/-- Notes that the client now holds the value, unless it holds an equal one already. -/
def sync (s : Slot) (v : Value) : Slot := if s.differs v then { s with synced := v } else s

end Slot

end ReactiveState
