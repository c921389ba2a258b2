import ReactiveState.EventLoop

/-! # Payloads

What travels between the app and its clients: events in, deltas out. -/

namespace ReactiveState

/-- An event that a client sends. -/
structure InboundEvent where
  /-- The path of the container and the name of the handler, with a dot between. -/
  handlerPath : String
  args : List Value
  sessionId : String

/-- The event without its session. -/
def InboundEvent.event (e : InboundEvent) : Event := ⟨e.handlerPath, e.args⟩

/-- A patch for a client.  An empty patch means that nothing observable changed. -/
structure OutboundDelta where
  sessionId : String
  patch : Delta
  /-- Whether it is the last one for an inbound event. -/
  isFinal : Bool
  error : Option String

namespace OutboundDelta

/-- The patch of an update. -/
def ofUpdate (sessionId : String) (u : StateUpdate) : OutboundDelta :=
  ⟨sessionId, u.delta, u.isFinal, u.error⟩

/-- A last patch that holds an error and nothing else. -/
def failed (sessionId : String) (error : DispatchError) : OutboundDelta :=
  ⟨sessionId, .empty, true, some error.message⟩

end OutboundDelta

end ReactiveState
