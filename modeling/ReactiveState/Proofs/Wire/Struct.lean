import Mathlib.Data.List.Nodup
import ReactiveState.Proofs.Document.Every
import ReactiveState.Wire.Struct

/-!
# Structures are read back from their entries

The entries of a structure go back to their fields, whichever fields are left out
(`Parts.ofDocument?_given`), and the entries of a map give the map again
(`Document.entries?_dict`).
-/

namespace ReactiveState

namespace Parts

/-- The fields that have a part, with their names. -/
def given : List String → List (Option Document) → List (String × Document)
  | n :: names, some d :: parts => (n, d) :: given names parts
  | _ :: names, none :: parts => given names parts
  | _, _ => []

/-- A name is found after names that differ from it. -/
theorem idxOf?_append_cons {n : String} {before : List String} (h : n ∉ before)
    (after : List String) : (before ++ n :: after).idxOf? n = some before.length := by
  induction before with
  | nil => simp [List.idxOf?_cons]
  | cons m before ih =>
    obtain ⟨hne, hmem⟩ := not_or.1 (List.mem_cons.not.1 h)
    rw [List.cons_append, List.idxOf?_cons, if_neg (by simpa using Ne.symm hne), ih hmem]
    rfl

/-- The fields that are still to come fill the parts from the first open one on. -/
theorem ofEntries?_given (dialect : Dialect) (strict : Bool) (before : List String)
    {after : List String} (done : List (Option Document)) {todo : List (Option Document)}
    (hnames : (before ++ after).Nodup) (hdone : done.length = before.length)
    (htodo : todo.length = after.length) :
    ofEntries? dialect (before ++ after) strict (done ++ after.map fun _ => none)
      ((given after todo).map fun p => (.str p.1, p.2)) = some (done ++ todo) := by
  induction after generalizing before done todo with
  | nil =>
    obtain rfl := List.length_eq_zero_iff.1 htodo
    rw [given.eq_def, List.map_nil, List.map_nil, ofEntries?]
  | cons n after ih =>
    obtain ⟨p, todo, rfl⟩ := List.exists_cons_of_length_eq_add_one htodo
    -- Whether it is given or not, the first part is as it should be before the others are read
    have hnext : ofEntries? dialect (before ++ n :: after) strict
        (done ++ p :: after.map fun _ => none)
        ((given after todo).map fun p => (.str p.1, p.2)) = some (done ++ p :: todo) := by
      have hfirst := ih (before ++ [n]) (done ++ [p]) (by simpa using hnames)
        (by simp [hdone]) (Nat.succ.inj htodo)
      simpa only [List.append_assoc, List.singleton_append] using hfirst
    cases p with
    | none => exact hnext
    | some d =>
      -- The name is found at its own position, where there is no part yet
      have hn : n ∉ before := fun hmem => List.disjoint_of_nodup_append hnames hmem (by simp)
      have hname : dialect.name? (before ++ n :: after) (.str n) = some (some done.length) := by
        rw [Dialect.name?, idxOf?_append_cons hn, hdone]
      simp only [given, List.map_cons, ofEntries?, hname]
      simpa using hnext

/-- The entries of a structure go back to their fields. -/
theorem ofDocument?_given (dialect : Dialect) (strict : Bool) {names : List String}
    {parts : List (Option Document)} (hnames : names.Nodup)
    (hlength : parts.length = names.length) :
    ofDocument? dialect names strict (.struct (given names parts)) = some ⟨false, parts⟩ := by
  have hread := ofEntries?_given dialect strict [] [] hnames rfl hlength
  simp only [List.nil_append] at hread
  rw [Document.struct, ofDocument?, hread, Option.map_some]

end Parts

namespace Document

/-- Entries with text keys are read in the order in which they are written. -/
theorem entries?_dict {α : Type} {encode : α → Document} {decode : Document → Option α}
    {entries : List (String × α)} (h : ∀ e ∈ entries, decode (encode e.2) = some e.2) :
    (dict encode entries).entries? decode = some entries := by
  rw [dict, struct, Document.entries?]
  induction entries with
  | nil => rfl
  | cons e entries ih =>
    obtain ⟨he, hentries⟩ := List.forall_mem_cons.1 h
    simp only [List.map_cons, List.mapM_cons, ih hentries, he]
    rfl

theorem everyEntry_isPlain {fields : List (String × Document)}
    (h : ∀ f ∈ fields, f.2.Every IsPlain) :
    EveryEntry IsPlain (fields.map fun p => (str p.1, p.2)) := by
  induction fields with
  | nil => trivial
  | cons f fields ih =>
    obtain ⟨hf, hfields⟩ := List.forall_mem_cons.1 h
    exact ⟨trivial, hf, ih hfields⟩

/-- A structure is plain if its fields are. -/
theorem every_isPlain_struct {fields : List (String × Document)}
    (h : ∀ f ∈ fields, f.2.Every IsPlain) : (struct fields).Every IsPlain := by
  refine ⟨fun e he => ?_, everyEntry_isPlain h⟩
  obtain ⟨f, -, rfl⟩ := List.mem_map.1 he
  exact ⟨f.1, rfl⟩

end Document

end ReactiveState
