import ReactiveState.KeyMap

/-! # Field keys

A `FieldKey` names one field of one container: the dotted path of the container and the name of
the field.  The empty path stands for "the container this is written in", and `rebased` fills in
what that is.  Keys are ordered by path, then by field, both by code point. -/

namespace ReactiveState

/-- The address of a field. -/
structure FieldKey where
  /-- The dotted path of the container; empty for the enclosing container. -/
  path : String
  /-- The name of the field. -/
  field : String
deriving DecidableEq, Repr, Inhabited

namespace FieldKey

/-- A field of the enclosing container. -/
def relative (field : String) : FieldKey := ⟨"", field⟩

/-- Whether the key is relative to the enclosing container. -/
def isRelative (k : FieldKey) : Bool := k.path = ""

/-- A relative key put under a base path; an absolute key is left alone. -/
def rebased (base : String) (k : FieldKey) : FieldKey :=
  if k.isRelative then ⟨base, k.field⟩ else k

/-- The key as it is shown in messages. -/
def text (k : FieldKey) : String :=
  if k.isRelative then "self." ++ k.field else k.path ++ "." ++ k.field

instance : Ord FieldKey where
  compare a b := (compare a.path b.path).then (compare a.field b.field)

/-- Keys are compared by their paths first. -/
theorem compare_def (a b : FieldKey) :
    compare a b = (compare a.path b.path).then (compare a.field b.field) := rfl

instance : Std.OrientedOrd FieldKey where
  eq_swap {a b} := by
    rw [compare_def, compare_def, Ordering.swap_then, Std.OrientedOrd.eq_swap (a := a.path),
      Std.OrientedOrd.eq_swap (a := a.field)]

instance : Std.LawfulEqOrd FieldKey where
  eq_of_compare {a b} h := by
    rw [compare_def, Ordering.then_eq_eq] at h
    have hp := Std.LawfulEqOrd.eq_of_compare h.1
    have hf := Std.LawfulEqOrd.eq_of_compare h.2
    cases a
    cases b
    simp_all

instance : Std.TransOrd FieldKey where
  isLE_trans {a b c} hab hbc := by
    simp only [compare_def, Ordering.isLE_then_iff_and] at *
    refine ⟨Std.TransOrd.isLE_trans hab.1 hbc.1, ?_⟩
    rcases hab.2 with h | h
    · exact .inl (Std.TransCmp.lt_of_lt_of_isLE h hbc.1)
    · rcases hbc.2 with h' | h'
      · exact .inl (Std.TransCmp.lt_of_isLE_of_lt hab.1 h')
      · exact .inr (Std.TransOrd.isLE_trans h h')

@[simp] theorem rebased_relative (base field : String) :
    (relative field).rebased base = ⟨base, field⟩ :=
  rfl

/-- Rebasing leaves a key with a path as it is. -/
theorem rebased_of_not_isRelative {k : FieldKey} (base : String) (h : k.isRelative = false) :
    k.rebased base = k := by
  simp [rebased, h]

/-- Under a non-empty base no key stays relative. -/
theorem isRelative_rebased {base : String} (h : base ≠ "") (k : FieldKey) :
    (k.rebased base).isRelative = false := by
  by_cases hk : k.path = "" <;> simp [rebased, isRelative, hk, h]

end FieldKey

end ReactiveState
