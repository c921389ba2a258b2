import ReactiveState.Proofs.Document.Every
import ReactiveState.Proofs.KeyMap
import ReactiveState.Value.Written
import ReactiveState.Wire.Struct

/-!
# Values are read back from their documents

A document has no tag that says which kind of value it came from.  A reader tries one kind after
another and takes the first that fits (`Value.untagged?`); this is what `Value.ofDocument?` does
(`Value.untagged?_eq`), and a well-formed value is the one that is found for its own document
(`Value.ofDocument?_toDocument`).
-/

namespace ReactiveState

namespace Value

/-! ### Kinds in turn -/

/-- Null stands for null. -/
def ofNull? : Document → Option Value
  | .null => some null
  | _ => none

/-- An integer needs a number of 64 bits without a fraction. -/
def ofInt? : Document → Option Value
  | .int n => (int64? n).map int
  | _ => none

/-- A float takes every number. -/
def ofFloat? : Document → Option Value
  | .int n => some (float (Float.ofInt n))
  | .float x => some (float x)
  | _ => none

/-- The readers of the kinds, in the order in which they are tried. -/
def kinds : List (Document → Option Value) :=
  [ofNull?, fun d => d.bool?.map bool, ofInt?, ofFloat?, fun d => d.text?.map str,
    fun d => (d.list? ofDocument?).map list,
    fun d => (d.entries? ofDocument?).map fun es => dict (KeyMap.ofList es)]

/-- The value of the first kind that the document fits. -/
def untagged? (d : Document) : Option Value :=
  kinds.findSome? fun kind => kind d

/-- Items are read one by one. -/
theorem mapM_ofDocument? (ds : List Document) : ds.mapM ofDocument? = ofItems? ds := by
  induction ds with
  | nil => rfl
  | cons d ds ih => rw [List.mapM_cons, ih, ofItems?]

/-- So are entries. -/
theorem ofEntries?_eq (es : List (Document × Document)) :
    (Document.map es).entries? ofDocument? = ofEntries? es := by
  unfold Document.entries?
  induction es with
  | nil => rfl
  | cons e es ih =>
    simp only [List.mapM_cons, ih, ofEntries?, bind_assoc, pure_bind]

/-- Reading a value takes the first kind that fits. -/
theorem untagged?_eq (d : Document) : untagged? d = ofDocument? d := by
  cases d with
  | int n =>
    simp only [untagged?, kinds, List.findSome?, ofNull?, ofInt?, ofFloat?, Document.bool?,
      ofDocument?]
    -- An integer out of range is read as a float, which comes next
    cases int64? n <;> rfl
  | bytes bs =>
    simp only [untagged?, kinds, List.findSome?, ofNull?, ofInt?, ofFloat?, Document.bool?,
      Document.list?, Document.entries?, ofDocument?]
    cases (Document.bytes bs).text? <;> rfl
  | seq ds =>
    simp only [untagged?, kinds, List.findSome?, ofNull?, ofInt?, ofFloat?, Document.bool?,
      Document.text?, Document.list?, Document.entries?, ofDocument?, mapM_ofDocument?]
    cases ofItems? ds <;> rfl
  | map es =>
    simp only [untagged?, kinds, List.findSome?, ofNull?, ofInt?, ofFloat?, Document.bool?,
      Document.text?, Document.list?, ofEntries?_eq, ofDocument?]
    cases ofEntries? es <;> rfl
  | _ => rfl

/-! ### Round trip -/

/-- A dict is written as a map of its entries. -/
theorem toDocument_dict (vs : List (String × Value)) :
    (dict vs).toDocument = .dict toDocument vs := by
  rw [toDocument, Document.dict, Document.struct, List.map_map]
  congr 1
  induction vs with
  | nil => rfl
  | cons v vs ih => rw [entryDocuments, ih]; rfl

mutual

/-- A value is found for its own document. -/
theorem ofDocument?_toDocument : ∀ {v : Value}, v.WellFormed → ofDocument? v.toDocument = some v
  | null, _ => rfl
  | bool _, _ => rfl
  | int n, _ => by rw [toDocument, ofDocument?, int64?_eq_some_iff.2 rfl]
  | float _, _ => rfl
  | str _, _ => rfl
  | list vs, h => by rw [toDocument, ofDocument?, ofItems?_itemDocuments h, Option.map_some]
  | dict vs, h => by
    rw [toDocument, ofDocument?, ofEntries?_entryDocuments h.2, Option.map_some,
      KeyMap.ofList_of_sorted h.1]

/-- Items that were written are read back. -/
theorem ofItems?_itemDocuments : ∀ {vs : List Value}, WellFormedList vs →
    ofItems? (itemDocuments vs) = some vs
  | [], _ => rfl
  | v :: vs, h => by
    rw [itemDocuments, ofItems?, ofDocument?_toDocument h.1, ofItems?_itemDocuments h.2]
    rfl

/-- So are entries. -/
theorem ofEntries?_entryDocuments : ∀ {vs : List (String × Value)}, WellFormedEntries vs →
    ofEntries? (entryDocuments vs) = some vs
  | [], _ => rfl
  | (k, v) :: vs, h => by
    rw [entryDocuments, ofEntries?, ofDocument?_toDocument h.1, ofEntries?_entryDocuments h.2]
    rfl

end

/-! ### Plain documents -/

/-- Entries are written with strings as keys. -/
theorem exists_key_of_mem_entryDocuments : ∀ {vs : List (String × Value)}
    {e : Document × Document}, e ∈ entryDocuments vs → ∃ s, e.1 = .str s
  | (k, _) :: _, _, h => by
    rcases List.mem_cons.1 h with rfl | h
    · exact ⟨k, rfl⟩
    · exact exists_key_of_mem_entryDocuments h

mutual

/-- The document of a value is plain all over. -/
theorem every_isPlain : ∀ v : Value, v.toDocument.Every Document.IsPlain
  | null => trivial
  | bool _ => trivial
  | int n => by
    change (int64? n.toInt).isSome = true
    rw [int64?_eq_some_iff.2 rfl, Option.isSome_some]
  | float _ => trivial
  | str _ => trivial
  | list vs => ⟨trivial, everyItem_isPlain vs⟩
  | dict vs => ⟨fun _ => exists_key_of_mem_entryDocuments, everyEntry_isPlain vs⟩

/-- Written values hold only what every format knows. -/
theorem everyItem_isPlain : ∀ vs : List Value,
    Document.EveryItem Document.IsPlain (itemDocuments vs)
  | [] => trivial
  | v :: vs => ⟨every_isPlain v, everyItem_isPlain vs⟩

/-- So do written entries. -/
theorem everyEntry_isPlain : ∀ vs : List (String × Value),
    Document.EveryEntry Document.IsPlain (entryDocuments vs)
  | [] => trivial
  | (_, v) :: vs => ⟨trivial, every_isPlain v, everyEntry_isPlain vs⟩

end

end Value

end ReactiveState
