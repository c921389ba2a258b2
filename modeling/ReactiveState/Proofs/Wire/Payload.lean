import ReactiveState.Proofs.Document.Json
import ReactiveState.Proofs.Document.MessagePack
import ReactiveState.Proofs.Wire.Struct
import ReactiveState.Proofs.Wire.Values
import ReactiveState.Wire.Payload

/-!
# Payloads survive the wire

What is encoded in a format is decoded from its bytes: events, deltas and single values
(`WireFormat.payload_roundTrip`).

The bytes give the document again (`WireFormat.decode_encode`), and the document gives the payload
again in every dialect (`InboundEvent.ofDocument?_toDocument`,
`OutboundDelta.ofDocument?_toDocument`).
-/

namespace ReactiveState

/-! ### Deltas -/

namespace Delta

/-- Both levels of the delta and all its values are in key order. -/
def WellFormed (d : Delta) : Prop :=
  d.Sorted ∧ ∀ c ∈ d.containers, Value.WellFormedEntries c.2

/-- A delta is read back from its document, container by container. -/
theorem ofDocument?_toDocument {d : Delta} (h : d.WellFormed) :
    ofDocument? d.toDocument = some d := by
  obtain ⟨⟨hcontainers, hfields⟩, hvalues⟩ := h
  have hread : d.toDocument.entries? (fun fields => fields.entries? Value.ofDocument?) =
      some d.containers := by
    refine Document.entries?_dict fun c hc => ?_
    rw [Value.toDocument_dict]
    -- Each value is read back, as it is well-formed
    exact Document.entries?_dict fun p hp =>
      Value.ofDocument?_toDocument (Value.wellFormedEntries_iff.1 (hvalues c hc) p hp)
  -- The fields of every container are in order already, and so are the containers
  have hsame : d.containers.map (fun c => (c.1, KeyMap.ofList c.2)) = d.containers := by
    rw [List.map_congr_left (g := id) fun c hc => by
      rw [KeyMap.ofList_of_sorted (hfields c hc)]; rfl, List.map_id]
  rw [ofDocument?, hread, Option.bind_eq_bind, Option.bind_some, ofList, hsame,
    KeyMap.ofList_of_sorted hcontainers]
  rfl

theorem every_isPlain (d : Delta) : d.toDocument.Every Document.IsPlain := by
  refine Document.every_isPlain_struct fun f hf => ?_
  obtain ⟨c, -, rfl⟩ := List.mem_map.1 hf
  exact Value.every_isPlain (.dict c.2)

end Delta

/-! ### Payloads -/

namespace InboundEvent

/-- An event is read back from its document. -/
theorem ofDocument?_toDocument (dialect : Dialect) {e : InboundEvent}
    (h : Value.WellFormedList e.args) : ofDocument? dialect e.toDocument = some e := by
  have hgiven : e.toDocument = .struct (Parts.given ["handler_path", "args", "session_id"]
      [some (.str e.handlerPath), some (.seq (Value.itemDocuments e.args)),
        some (.str e.sessionId)]) := rfl
  -- The arguments are read back one by one
  have hargs : (Document.seq (Value.itemDocuments e.args)).list? Value.ofDocument? =
      some e.args := by
    rw [Document.list?, Value.mapM_ofDocument?, Value.ofItems?_itemDocuments h]
  rw [ofDocument?, hgiven, Parts.ofDocument?_given dialect false (by decide) rfl]
  simp [Parts.required?, Parts.defaulted?, Parts.part?, Document.text?, hargs]

theorem every_isPlain (e : InboundEvent) : e.toDocument.Every Document.IsPlain := by
  refine Document.every_isPlain_struct ?_
  simp only [List.forall_mem_cons, List.not_mem_nil]
  exact ⟨trivial, ⟨trivial, Value.everyItem_isPlain e.args⟩, trivial, nofun⟩

end InboundEvent

namespace OutboundDelta

/-- An error that is absent is left out, and is absent again when the entries are read. -/
theorem ofDocument?_toDocument (dialect : Dialect) {o : OutboundDelta} (h : o.patch.WellFormed) :
    ofDocument? dialect o.toDocument = some o := by
  have hgiven : o.toDocument = .struct (Parts.given ["session_id", "patch", "final", "error"]
      [some (.str o.sessionId), some o.patch.toDocument, some (.bool o.isFinal),
        o.error.map .str]) := by
    rw [toDocument]
    cases o.error <;> rfl
  -- An error that is left out is read as none
  have herror : Parts.defaulted? ⟨false, [some (.str o.sessionId), some o.patch.toDocument,
      some (.bool o.isFinal), o.error.map .str]⟩ 3 none (Parts.nullable? Document.text?) =
        some o.error := by
    cases o.error <;> rfl
  rw [ofDocument?, hgiven, Parts.ofDocument?_given dialect false (by decide) rfl]
  simp only [Option.bind_eq_bind, Option.bind_some, herror]
  simp [Parts.required?, Parts.part?, Document.text?, Document.bool?,
    Delta.ofDocument?_toDocument h]

theorem every_isPlain (o : OutboundDelta) : o.toDocument.Every Document.IsPlain := by
  refine Document.every_isPlain_struct ?_
  have herror : ∀ f ∈ optionalField "error" .str o.error, f.2.Every Document.IsPlain := by
    cases o.error <;> simp [optionalField, Document.Every, Document.IsPlain]
  simp only [List.forall_mem_append, List.forall_mem_cons, List.not_mem_nil]
  exact ⟨⟨trivial, o.patch.every_isPlain, trivial, nofun⟩, herror⟩

end OutboundDelta

/-! ### Formats -/

namespace WireFormat

/-- What the bytes of a format tell apart.  JSON text does not keep the bits of a float; a header of
MessagePack has at most 32 bits for a length. -/
def Keeps : WireFormat → Document → Prop
  | json => Document.HasJson
  | messagePack => Document.HasMessagePack

/-- The format keeps all of the document, which nests no deeper than the reader allows. -/
structure Carries (f : WireFormat) (d : Document) : Prop where
  keeps : d.Every f.Keeps
  nesting : d.nesting ≤ f.depthLimit

/-- The bytes of a plain document give the document. -/
theorem decode_encode {f : WireFormat} {d : Document} (hplain : d.Every Document.IsPlain)
    (h : f.Carries d) : f.decode (f.encode d) = some d := by
  have hevery := hplain.and h.keeps
  cases f with
  | json =>
    rw [encode, decode, fromUTF8?_bytes, Option.bind_some]
    exact Document.ofJson?_jsonText hevery h.nesting
  | messagePack => exact Document.ofMessagePack?_msgpack hevery h.nesting

/-- The wire keeps payloads: in both formats, a payload that the format carries is decoded from its
own bytes, and so is a single value, although nothing in the bytes says of which kind it is.

A float keeps its sign and all bits of its exponent and mantissa.  There is a single NaN: which of
the NaNs of the wire it was is not told apart. -/
theorem payload_roundTrip (f : WireFormat) :
    (∀ e : InboundEvent, Value.WellFormedList e.args → f.Carries e.toDocument →
      (f.decode (f.encode e.toDocument)).bind (InboundEvent.ofDocument? f.dialect) = some e) ∧
    (∀ o : OutboundDelta, o.patch.WellFormed → f.Carries o.toDocument →
      (f.decode (f.encode o.toDocument)).bind (OutboundDelta.ofDocument? f.dialect) = some o) ∧
    ∀ v : Value, v.WellFormed → f.Carries v.toDocument →
      (f.decode (f.encode v.toDocument)).bind Value.untagged? = some v := by
  -- First the bytes lead to the document, and then the document to the payload
  refine ⟨fun e h hcarries => ?_, fun o h hcarries => ?_, fun v h hcarries => ?_⟩
  · rw [decode_encode e.every_isPlain hcarries, Option.bind_some,
      InboundEvent.ofDocument?_toDocument f.dialect h]
  · rw [decode_encode o.every_isPlain hcarries, Option.bind_some,
      OutboundDelta.ofDocument?_toDocument f.dialect h]
  · rw [decode_encode v.every_isPlain hcarries, Option.bind_some, Value.untagged?_eq,
      Value.ofDocument?_toDocument h]

/-- An event with a float in MessagePack, and in JSON a delta without an error and a value whose
parts are all empty. -/
theorem payload_roundTrip_todo :
    ((messagePack.decode (messagePack.encode (InboundEvent.toDocument
        ⟨"app.todo.add", [.str "milk", .int 2, .float 0.5], "s1"⟩))).bind
          (InboundEvent.ofDocument? .messagePack) =
      some ⟨"app.todo.add", [.str "milk", .int 2, .float 0.5], "s1"⟩) ∧
    ((json.decode (json.encode (OutboundDelta.toDocument
        ⟨"s1", ⟨[("counter", [("count", .int 1)])]⟩, true, none⟩))).bind
          (OutboundDelta.ofDocument? .json) =
      some ⟨"s1", ⟨[("counter", [("count", .int 1)])]⟩, true, none⟩) ∧
    ((json.decode (json.encode (Value.toDocument
        (.dict [("a", .list []), ("b", .dict []), ("c", .null)])))).bind Value.untagged? =
      some (.dict [("a", .list []), ("b", .dict []), ("c", .null)])) := by
  refine ⟨(payload_roundTrip messagePack).1 _ ?_ ⟨?_, ?_⟩,
    (payload_roundTrip json).2.1 _ ⟨⟨?_, ?_⟩, ?_⟩ ⟨?_, ?_⟩,
    (payload_roundTrip json).2.2 _ ⟨?_, ?_⟩ ⟨?_, ?_⟩⟩
  · -- The event: its arguments, what the format carries, and how deep it nests
    simp [Value.WellFormedList, Value.WellFormed]
  · simp [InboundEvent.toDocument, Document.struct, Document.Every, Document.EveryEntry,
      Document.EveryItem, Value.itemDocuments, Value.toDocument, Keeps, Document.HasMessagePack]
    decide
  · simp [InboundEvent.toDocument, Document.struct, Document.nesting, Document.itemNesting,
      Document.entryNesting, Value.itemDocuments, Value.toDocument, depthLimit]
  · simp [KeyMap.Sorted]
  · simp [KeyMap.Sorted]
  · simp [Value.WellFormedEntries, Value.WellFormed]
  · simp [OutboundDelta.toDocument, Document.struct, Document.Every, Document.EveryEntry,
      Delta.toDocument, Document.dict, optionalField, Value.entryDocuments, Value.toDocument, Keeps,
      Document.HasJson]
  · simp [OutboundDelta.toDocument, Document.struct, Document.nesting, Document.entryNesting,
      Delta.toDocument, Document.dict, optionalField, Value.entryDocuments, Value.toDocument,
      depthLimit]
  · simp [KeyMap.Sorted]
    decide
  · simp [Value.WellFormedEntries, Value.WellFormedList, Value.WellFormed, KeyMap.Sorted]
  · simp [Document.Every, Document.EveryEntry, Document.EveryItem, Value.entryDocuments,
      Value.itemDocuments, Value.toDocument, Keeps, Document.HasJson]
  · simp [Document.nesting, Document.itemNesting, Document.entryNesting, Value.entryDocuments,
      Value.itemDocuments, Value.toDocument, depthLimit]

end WireFormat

end ReactiveState
