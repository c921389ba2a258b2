import ReactiveState.Document.Toml
import ReactiveState.Wire.Payload

/-! # Configuration files

A configuration is written as TOML.  `Config.ofText` reads one and checks its limits. -/

namespace ReactiveState

namespace Config

/-- The configuration of a text. -/
def ofText (text : String) : Except ConfigError Config :=
  match (Document.ofToml? text).bind (ofDocument? .toml) with
  | none => throw .malformed
  | some c => do
    c.validate
    return c

/-- The configuration of a file; its content is absent if it cannot be read. -/
def ofFile (content : Option String) : Except ConfigError Config :=
  match content with
  | none => throw .unreadable
  | some text => ofText text

end Config

end ReactiveState
