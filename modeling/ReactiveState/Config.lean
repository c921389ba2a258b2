import ReactiveState.EventLoop

/-! # Configuration

The settings of an app.  Every setting has a default; `Config.validate` refuses limits of zero. -/

namespace ReactiveState

/-- The encoding of what sessions send and receive. -/
inductive WireFormat where
  | json
  | messagePack
deriving DecidableEq, Repr

/-- The settings of an app. -/
structure Config where
  /-- After how many seconds an idle session is dropped; never if absent. -/
  idleTimeoutSecs : Option Nat := none
  /-- The most events that one inbound event may lead to, itself included. -/
  maxEventChain : Nat := EventLoop.defaultMaxChain
  wireFormat : WireFormat := .json
  /-- What is logged where the environment does not say. -/
  logFilter : String := "info"
deriving DecidableEq, Repr

/-- Why there is no configuration. -/
inductive ConfigError where
  /-- The file cannot be read. -/
  | unreadable
  /-- The text is not a configuration. -/
  | malformed
  | invalid (reason : String)
deriving DecidableEq, Repr

/-- The text of the error. -/
def ConfigError.message : ConfigError → String
  | unreadable => "failed to read config"
  | malformed => "failed to parse config"
  | invalid reason => "invalid config: " ++ reason

/-- Checks the limits. -/
def Config.validate (c : Config) : Except ConfigError Unit :=
  if c.maxEventChain = 0 then throw (.invalid "max_event_chain must be at least 1")
  else if c.idleTimeoutSecs = some 0 then
    throw (.invalid "idle_timeout_secs must be positive; omit it to disable reaping")
  else return ()

end ReactiveState
