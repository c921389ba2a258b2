import ReactiveState.Document
import ReactiveState.Number.Int64

/-!
# What holds everywhere in a document

`Document.Every` lifts a property of single documents to all documents inside one.  A document is
plain if all of it has a value of its own: `IsPlain` says so for one part.
-/

namespace ReactiveState

namespace Document

mutual

/-- The property holds of the document and of every document inside it. -/
def Every (P : Document → Prop) : Document → Prop
  | seq ds => P (seq ds) ∧ EveryItem P ds
  | map es => P (map es) ∧ EveryEntry P es
  | null => P null
  | bool b => P (bool b)
  | int n => P (int n)
  | float x => P (float x)
  | str s => P (str s)
  | bytes bs => P (bytes bs)
  | unreadable => P unreadable

/-- The property holds of everything in the items. -/
def EveryItem (P : Document → Prop) : List Document → Prop
  | [] => True
  | d :: ds => Every P d ∧ EveryItem P ds

/-- The property holds of everything in the entries. -/
def EveryEntry (P : Document → Prop) : List (Document × Document) → Prop
  | [] => True
  | (k, d) :: es => Every P k ∧ Every P d ∧ EveryEntry P es

end

variable {P Q : Document → Prop}

theorem Every.head {d : Document} (h : d.Every P) : P d := by
  cases d <;> first | exact h.1 | exact h

mutual

/-- Two properties that hold everywhere in a document hold there together. -/
theorem Every.and : ∀ {d : Document}, d.Every P → d.Every Q → d.Every fun d => P d ∧ Q d
  | seq _, h, h' => ⟨⟨h.1, h'.1⟩, EveryItem.and h.2 h'.2⟩
  | map _, h, h' => ⟨⟨h.1, h'.1⟩, EveryEntry.and h.2 h'.2⟩
  | null, h, h' => ⟨h, h'⟩
  | bool _, h, h' => ⟨h, h'⟩
  | int _, h, h' => ⟨h, h'⟩
  | float _, h, h' => ⟨h, h'⟩
  | str _, h, h' => ⟨h, h'⟩
  | bytes _, h, h' => ⟨h, h'⟩
  | unreadable, h, h' => ⟨h, h'⟩

theorem EveryItem.and : ∀ {ds : List Document}, EveryItem P ds → EveryItem Q ds →
    EveryItem (fun d => P d ∧ Q d) ds
  | [], _, _ => trivial
  | _ :: _, h, h' => ⟨h.1.and h'.1, EveryItem.and h.2 h'.2⟩

theorem EveryEntry.and : ∀ {es : List (Document × Document)}, EveryEntry P es → EveryEntry Q es →
    EveryEntry (fun d => P d ∧ Q d) es
  | [], _, _ => trivial
  | (_, _) :: _, h, h' => ⟨h.1.and h'.1, h.2.1.and h'.2.1, EveryEntry.and h.2.2 h'.2.2⟩

end

/-- A part that stands for itself: an integer of 64 bits, a text, a map with text keys. -/
def IsPlain : Document → Prop
  | int n => (int64? n).isSome = true
  | bytes _ => False
  | unreadable => False
  | map es => ∀ e ∈ es, ∃ s, e.1 = str s
  | _ => True

/-- JSON text tells a part from all others: any but a float, whose digits it does not keep. -/
def HasJson : Document → Prop
  | float _ => False
  | _ => True

/-- MessagePack has a header for the part: lengths take at most 32 bits. -/
def HasMessagePack : Document → Prop
  | str s => s.utf8ByteSize < 0x100000000
  | seq ds => ds.length < 0x100000000
  | map es => es.length < 0x100000000
  | _ => True

end Document

end ReactiveState
