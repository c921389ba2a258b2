import ReactiveState.Config
import ReactiveState.Document.MessagePack
import ReactiveState.Payload
import ReactiveState.Wire.Types

/-! # The written form of payloads and settings

Every structure is written as a map with the names of its fields; an error, and an option of client
storage, is left out when there is none.  `WireFormat.encode` and `WireFormat.decode` go from
documents to bytes and back. -/

namespace ReactiveState

namespace WireFormat

/-- The encoding's own rules for decoding structures. -/
def dialect : WireFormat → Dialect
  | json => .json
  | messagePack => .messagePack

/-- How many containers a payload may nest. -/
def depthLimit : WireFormat → Nat
  | json => 127
  | messagePack => 1023

/-- The bytes of a document. -/
def encode : WireFormat → Document → List UInt8
  | json, d => d.jsonText.toUTF8.toList
  | messagePack, d => d.msgpack

/-- The document of bytes. -/
def decode (f : WireFormat) (bytes : List UInt8) : Option Document :=
  match f with
  | json => (String.fromUTF8? ⟨bytes.toArray⟩).bind (Document.ofJson? f.depthLimit)
  | messagePack => Document.ofMessagePack? f.depthLimit bytes

/-- The names of the formats. -/
def names : List String := ["json", "msgpack"]

/-- The document of a format. -/
def toDocument : WireFormat → Document
  | json => .str "json"
  | messagePack => .str "msgpack"

/-- The format of a document. -/
def ofDocument? (dialect : Dialect) (d : Document) : Option WireFormat :=
  (dialect.choice? names d).map fun i => if i = 0 then json else messagePack

end WireFormat

namespace Event

/-- The document of an event. -/
def toDocument (e : Event) : Document :=
  .struct [("handler", .str e.handler), ("args", .seq (Value.itemDocuments e.args))]

/-- The event of a document. -/
def ofDocument? (dialect : Dialect) (d : Document) : Option Event := do
  let p ← Parts.ofDocument? dialect ["handler", "args"] false d
  let handler ← p.required? 0 Document.text?
  let args ← p.defaulted? 1 [] (Document.list? Value.ofDocument?)
  return ⟨handler, args⟩

end Event

/-- The document of an update. -/
def StateUpdate.toDocument (u : StateUpdate) : Document :=
  .struct [("handler", .str u.handler), ("delta", u.delta.toDocument),
    ("error", .optional (u.error.map .str)), ("is_final", .bool u.isFinal)]

namespace InboundEvent

/-- The document of an inbound event. -/
def toDocument (e : InboundEvent) : Document :=
  .struct [("handler_path", .str e.handlerPath), ("args", .seq (Value.itemDocuments e.args)),
    ("session_id", .str e.sessionId)]

/-- The inbound event of a document. -/
def ofDocument? (dialect : Dialect) (d : Document) : Option InboundEvent := do
  let p ← Parts.ofDocument? dialect ["handler_path", "args", "session_id"] false d
  let handlerPath ← p.required? 0 Document.text?
  let args ← p.defaulted? 1 [] (Document.list? Value.ofDocument?)
  let sessionId ← p.required? 2 Document.text?
  return ⟨handlerPath, args, sessionId⟩

end InboundEvent

/-- A field that is left out when there is nothing to write. -/
def optionalField (name : String) (encode : α → Document) : Option α → List (String × Document)
  | none => []
  | some a => [(name, encode a)]

namespace OutboundDelta

/-- The document of an outbound delta. -/
def toDocument (o : OutboundDelta) : Document :=
  .struct ([("session_id", .str o.sessionId), ("patch", o.patch.toDocument),
    ("final", .bool o.isFinal)] ++ optionalField "error" .str o.error)

/-- The outbound delta of a document. -/
def ofDocument? (dialect : Dialect) (d : Document) : Option OutboundDelta := do
  let p ← Parts.ofDocument? dialect ["session_id", "patch", "final", "error"] false d
  let sessionId ← p.required? 0 Document.text?
  let patch ← p.required? 1 Delta.ofDocument?
  let isFinal ← p.required? 2 Document.bool?
  let error ← p.defaulted? 3 none (Parts.nullable? Document.text?)
  return ⟨sessionId, patch, isFinal, error⟩

end OutboundDelta

/-! ### Client storage -/

namespace CookieOptions

/-- The document of the options of a cookie. -/
def toDocument (o : CookieOptions) : Document :=
  .struct (optionalField "name" .str o.name ++ [("path", .str o.path)]
    ++ optionalField "maxAge" (fun n => .int n) o.maxAge ++ optionalField "domain" .str o.domain
    ++ [("secure", .bool o.secure)] ++ optionalField "sameSite" .str o.sameSite)

/-- The options of a document. -/
def ofDocument? (dialect : Dialect) (d : Document) : Option CookieOptions := do
  let p ←
    Parts.ofDocument? dialect ["name", "path", "maxAge", "domain", "secure", "sameSite"] false d
  let name ← p.optional? 0 Document.text?
  let path ← p.required? 1 Document.text?
  let maxAge ← p.optional? 2 Document.unsigned?
  let domain ← p.optional? 3 Document.text?
  let secure ← p.required? 4 Document.bool?
  let sameSite ← p.optional? 5 Document.text?
  return ⟨name, path, maxAge, domain, secure, sameSite⟩

end CookieOptions

namespace LocalOptions

/-- The document of the options of local storage. -/
def toDocument (o : LocalOptions) : Document :=
  .struct (optionalField "name" .str o.name ++ [("sync", .bool o.sync)])

/-- The options of a document. -/
def ofDocument? (dialect : Dialect) (d : Document) : Option LocalOptions := do
  let p ← Parts.ofDocument? dialect ["name", "sync"] false d
  let name ← p.optional? 0 Document.text?
  let sync ← p.required? 1 Document.bool?
  return ⟨name, sync⟩

end LocalOptions

namespace SessionOptions

/-- The document of the options of session storage. -/
def toDocument (o : SessionOptions) : Document :=
  .struct (optionalField "name" .str o.name)

/-- The options of a document. -/
def ofDocument? (dialect : Dialect) (d : Document) : Option SessionOptions := do
  let p ← Parts.ofDocument? dialect ["name"] false d
  let name ← p.optional? 0 Document.text?
  return ⟨name⟩

end SessionOptions

namespace StorageManifest

/-- The document of a manifest. -/
def toDocument (m : StorageManifest) : Document :=
  .struct [("cookies", .dict CookieOptions.toDocument m.cookies),
    ("local_storage", .dict LocalOptions.toDocument m.localStorage),
    ("session_storage", .dict SessionOptions.toDocument m.sessionStorage)]

/-- The manifest of a document. -/
def ofDocument? (dialect : Dialect) (d : Document) : Option StorageManifest := do
  let p ← Parts.ofDocument? dialect ["cookies", "local_storage", "session_storage"] false d
  let cookies ← p.required? 0 (Document.entries? (CookieOptions.ofDocument? dialect))
  let locals ← p.required? 1 (Document.entries? (LocalOptions.ofDocument? dialect))
  let sessions ← p.required? 2 (Document.entries? (SessionOptions.ofDocument? dialect))
  return ⟨KeyMap.ofList cookies, KeyMap.ofList locals, KeyMap.ofList sessions⟩

end StorageManifest

/-! ### Configuration -/

namespace Config

/-- The document of a configuration. -/
def toDocument (c : Config) : Document :=
  .struct [("idle_timeout_secs", .optional (c.idleTimeoutSecs.map fun n => .int n)),
    ("max_event_chain", .int c.maxEventChain), ("wire_format", c.wireFormat.toDocument),
    ("log_filter", .str c.logFilter)]

/-- The configuration of a document.  What is left out has its default, and no other field is
known. -/
def ofDocument? (dialect : Dialect) (d : Document) : Option Config := do
  let p ← Parts.ofDocument? dialect
    ["idle_timeout_secs", "max_event_chain", "wire_format", "log_filter"] true d
  let default : Config := {}
  let idleTimeoutSecs ←
    p.defaulted? 0 default.idleTimeoutSecs (Parts.nullable? Document.unsigned?)
  let maxEventChain ← p.defaulted? 1 default.maxEventChain Document.unsigned?
  let wireFormat ← p.defaulted? 2 default.wireFormat (WireFormat.ofDocument? dialect)
  let logFilter ← p.defaulted? 3 default.logFilter Document.text?
  return ⟨idleTimeoutSecs, maxEventChain, wireFormat, logFilter⟩

end Config

end ReactiveState
