import ReactiveState.Value

/-! # Deltas

A `Delta` maps container paths to the fields that changed in them and their new values, both levels
in key order.  The empty delta means that nothing observable changed.

The view of a delta is `get?`; `insert` and `merge` have one equation through it each:

* `get?_insert`   the inserted field has the inserted value, all others are as before
* `get?_merge`
  `(d.merge later).get? path field = (later.get? path field).or (d.get? path field)` -/

namespace ReactiveState

/-- The changed fields of one container. -/
abbrev FieldPatch := List (String × Value)

/-- Changed fields by container. -/
structure Delta where
  containers : List (String × FieldPatch)

namespace Delta

/-- No change. -/
def empty : Delta := ⟨[]⟩

/-- Whether no container is mentioned. -/
def isEmpty (d : Delta) : Bool := d.containers.isEmpty

/-- How many fields are mentioned. -/
def fieldCount (d : Delta) : Nat :=
  (d.containers.flatMap fun c => c.2).length

/-- The changed fields of a container, if it is mentioned. -/
def container? (d : Delta) (path : String) : Option FieldPatch :=
  KeyMap.find? path d.containers

/-- The new value of a field, if it is mentioned. -/
def get? (d : Delta) (path field : String) : Option Value :=
  (d.container? path).bind (KeyMap.find? field)

/-- Notes the new value of a field, in place of an earlier one. -/
def insert (d : Delta) (path field : String) (v : Value) : Delta :=
  ⟨KeyMap.insert path (KeyMap.insert field v ((d.container? path).getD [])) d.containers⟩

/-- Puts the fields of a later patch of one container into the delta. -/
def mergeContainer (d : Delta) (path : String) (fields : FieldPatch) : Delta :=
  ⟨KeyMap.insert path (KeyMap.union ((d.container? path).getD []) fields) d.containers⟩

/-- Folds a later delta into this one. -/
def merge (d later : Delta) : Delta :=
  later.containers.foldl (fun d c => d.mergeContainer c.1 c.2) d

/-- The delta of a list of containers and their fields; of equal keys the last counts. -/
def ofList (containers : List (String × List (String × Value))) : Delta :=
  ⟨KeyMap.ofList (containers.map fun c => (c.1, KeyMap.ofList c.2))⟩

/-- Equality of containers, fields and values. -/
def beq (d e : Delta) : Bool :=
  d.containers.length == e.containers.length &&
    (d.containers.zip e.containers).all fun (a, b) => a.1 == b.1 && Value.beqEntries a.2 b.2

instance : BEq Delta := ⟨beq⟩

theorem get?_insert (d : Delta) (path field path' field' : String) (v : Value) :
    (d.insert path field v).get? path' field' =
      if path' = path ∧ field' = field then some v else d.get? path' field' := by
  unfold get? container? insert
  rw [KeyMap.find?_insert]
  by_cases hp : path' = path
  · subst hp
    rw [if_pos rfl, Option.bind_some, KeyMap.find?_insert]
    -- In the container of the field the entry is added, or the container begins with it
    by_cases hf : field' = field
    · simp [hf]
    · cases h : KeyMap.find? path' d.containers <;> simp [hf, container?, h, KeyMap.find?]
  · simp [hp]

/-- Both levels of the delta are in key order. -/
def Sorted (d : Delta) : Prop :=
  KeyMap.Sorted d.containers ∧ ∀ c ∈ d.containers, KeyMap.Sorted c.2

theorem get?_mergeContainer (d : Delta) {path : String} {fields : FieldPatch}
    (h : KeyMap.Sorted fields) (path' field : String) :
    (d.mergeContainer path fields).get? path' field =
      if path' = path then (KeyMap.find? field fields).or (d.get? path' field)
      else d.get? path' field := by
  unfold get? container? mergeContainer
  rw [KeyMap.find?_insert]
  split
  · next hp =>
    -- The container that is merged decides its fields, and the others keep theirs
    subst hp
    rw [Option.bind_some, KeyMap.find?_union h]
    cases hc : KeyMap.find? path' d.containers <;> simp [container?, hc, KeyMap.find?]
  · rfl

/-- A later delta decides the fields it mentions. -/
theorem get?_merge (d : Delta) {later : Delta} (h : later.Sorted) (path field : String) :
    (d.merge later).get? path field = (later.get? path field).or (d.get? path field) := by
  obtain ⟨cs⟩ := later
  obtain ⟨hcs, hfs⟩ := h
  simp only [merge]
  induction cs generalizing d with
  | nil => rfl
  | cons c cs ih =>
    obtain ⟨hc, hcs⟩ := List.pairwise_cons.1 hcs
    obtain ⟨hf, hfs⟩ := List.forall_mem_cons.1 hfs
    -- The first container is merged, then the others
    rw [List.foldl_cons, ih _ hcs hfs, get?_mergeContainer d hf]
    simp only [get?, container?, KeyMap.find?]
    split
    · next hp =>
      -- No later container has the path of the first one
      rw [KeyMap.find?_eq_none fun p hm he => ?_]
      · rfl
      · have hlt := hc p hm
        rw [he, hp, Std.ReflOrd.compare_self] at hlt
        exact absurd hlt (by decide)
    · rfl

end Delta

end ReactiveState
