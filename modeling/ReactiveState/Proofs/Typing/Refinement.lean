import ReactiveState.Proofs.Typing.Accepts
import ReactiveState.Expr.Typing

/-!
# Types of which less is known

`t.refines u` says that `u` is `t` with some parts not known.  There is one lemma for each form of
type that says what is left of it (`refines_sequence_iff` and so on), and `refines` is an order
(`refines_refl`, `refines_trans`) in which the unknown type is above all others.

Two types that may be compared may still be compared when less is known of them, with one exception
(`comparable_of_refines`).  Object types are compared as they are and not attribute by attribute, so
they must be the same ones still; `Meets` finds the objects that a comparison comes down to.
-/

namespace ReactiveState

namespace ValueType

variable {a b a' b' t u : ValueType}

/-! ### Less known types -/

/-- Nothing is less specific than the unknown type. -/
@[simp] theorem refines_unknown (t : ValueType) : t.refines unknown = true := by
  cases t <;> rfl

/-- What a list type refines; there is one such lemma for every form of type. -/
theorem refines_sequence_iff :
    (sequence a).refines u = true ↔ u = unknown ∨ ∃ b, u = sequence b ∧ a.refines b = true := by
  cases u <;> simp [refines]

theorem refines_mapping_iff :
    (mapping a).refines u = true ↔ u = unknown ∨ ∃ b, u = mapping b ∧ a.refines b = true := by
  cases u <;> simp [refines]

theorem refines_optional_iff :
    (optional a).refines u = true ↔ u = unknown ∨ ∃ b, u = optional b ∧ a.refines b = true := by
  cases u <;> simp [refines]

/-- An object refines objects of as many attributes, among which each of its own has a
counterpart. -/
theorem refines_object_iff {as : List (String × ValueType)} :
    (object as).refines u = true ↔ u = unknown ∨ ∃ bs, u = object bs ∧ as.length = bs.length ∧
      ∀ p ∈ as, ∃ b, KeyMap.find? p.1 bs = some b ∧ p.2.refines b = true := by
  cases u <;> simp [refines, refinesAttributes_iff]

/-- Whether the type has no parts, so that only itself and the unknown type are less known. -/
def isAtom : ValueType → Bool
  | null => true
  | bool => true
  | int => true
  | float => true
  | str => true
  | unknown => true
  | _ => false

/-- A type without parts refines itself and the unknown type only. -/
theorem refines_atom_iff (ha : a.isAtom = true) : a.refines u = true ↔ u = unknown ∨ u = a := by
  cases a <;> cases ha <;> cases u <;> simp [refines]

/-- The unknown type refines nothing but itself. -/
theorem unknown_refines_iff : unknown.refines u = true ↔ u = unknown := by
  rw [refines_atom_iff rfl, or_self]

/-- Numbers have no parts. -/
theorem isAtom_of_isNumeric (h : a.isNumeric = true) : a.isAtom = true := by
  cases a <;> cases h <;> rfl

theorem refines_self_of_isAtom (h : a.isAtom = true) : a.refines a = true :=
  (refines_atom_iff h).2 (.inr rfl)

/-- What is more specific than a known type is known. -/
theorem ne_unknown_of_refines (h : a.refines a' = true) (ha' : a' ≠ unknown) : a ≠ unknown := by
  rintro rfl
  exact ha' (unknown_refines_iff.1 h)

/-- The only known type that an atom refines is the atom. -/
theorem eq_of_refines_atom (ha : a.isAtom = true) (h : a.refines a' = true) (ha' : a' ≠ unknown) :
    a' = a :=
  ((refines_atom_iff ha).1 h).resolve_left ha'

mutual

/-- A type is as known as itself. -/
theorem refines_refl : ∀ {t : ValueType}, t.WellFormed → t.refines t = true
  | null, _ => rfl
  | bool, _ => rfl
  | int, _ => rfl
  | float, _ => rfl
  | str, _ => rfl
  | unknown, _ => rfl
  | sequence t, h => refines_refl (t := t) h
  | mapping t, h => refines_refl (t := t) h
  | optional t, h => refines_refl (t := t) h
  | object attributes, h => by
    -- Names are distinct, so an attribute is what is found under its name
    refine refines_object_iff.2 (.inr ⟨attributes, rfl, rfl, fun p hp => ?_⟩)
    exact ⟨p.2, KeyMap.find?_of_mem (KeyMap.nodup_of_sorted h.1) hp,
      refines_reflAttributes h.2 p hp⟩

/-- Reflexivity for the attributes of an object, along with `refines_refl`. -/
theorem refines_reflAttributes : ∀ {attributes : List (String × ValueType)},
    WellFormedAttributes attributes → ∀ p ∈ attributes, p.2.refines p.2 = true
  | [], _ => nofun
  | (_, _) :: _, h => List.forall_mem_cons.2 ⟨refines_refl h.1, refines_reflAttributes h.2⟩

end

/-- Transitivity from an atom: all there is above it is itself and the unknown type. -/
private theorem refines_trans_atom (ha : a.isAtom = true) (h : a.refines t = true)
    (h' : t.refines u = true) : a.refines u = true := by
  rcases (refines_atom_iff ha).1 h with rfl | rfl
  · rw [unknown_refines_iff.1 h']
    exact refines_unknown a
  · exact h'

mutual

/-- Refinement is transitive.  The cases are the forms of the first type, as it is the most specific
one. -/
theorem refines_trans : ∀ {t u s : ValueType}, t.refines u = true → u.refines s = true →
    t.refines s = true
  | sequence a, u, s, h, h' => by
    rcases refines_sequence_iff.1 h with rfl | ⟨b, rfl, h⟩
    · -- Only the unknown type is above the unknown type
      rw [unknown_refines_iff.1 h']
      exact refines_unknown _
    · rcases refines_sequence_iff.1 h' with rfl | ⟨c, rfl, h'⟩
      · exact refines_unknown _
      · -- Both steps are between the types inside
        exact refines_trans (t := a) h h'
  | mapping a, u, s, h, h' => by
    rcases refines_mapping_iff.1 h with rfl | ⟨b, rfl, h⟩
    · rw [unknown_refines_iff.1 h']
      exact refines_unknown _
    · rcases refines_mapping_iff.1 h' with rfl | ⟨c, rfl, h'⟩
      · exact refines_unknown _
      · exact refines_trans (t := a) h h'
  | optional a, u, s, h, h' => by
    rcases refines_optional_iff.1 h with rfl | ⟨b, rfl, h⟩
    · rw [unknown_refines_iff.1 h']
      exact refines_unknown _
    · rcases refines_optional_iff.1 h' with rfl | ⟨c, rfl, h'⟩
      · exact refines_unknown _
      · exact refines_trans (t := a) h h'
  | object as, u, s, h, h' => by
    rcases refines_object_iff.1 h with rfl | ⟨bs, rfl, hlength, h⟩
    · rw [unknown_refines_iff.1 h']
      exact refines_unknown _
    · rcases refines_object_iff.1 h' with rfl | ⟨cs, rfl, hlength', h'⟩
      · exact refines_unknown _
      · -- An attribute of the first is found in the second, and from there in the third
        refine refines_object_iff.2 (.inr ⟨cs, rfl, hlength.trans hlength', fun p hp => ?_⟩)
        obtain ⟨b, hb, hab⟩ := h p hp
        obtain ⟨c, hc, hbc⟩ := h' _ (KeyMap.mem_of_find? hb)
        exact ⟨c, hc, refines_transAttributes p hp hab hbc⟩
  | null, _, _, h, h' => refines_trans_atom rfl h h'
  | bool, _, _, h, h' => refines_trans_atom rfl h h'
  | int, _, _, h, h' => refines_trans_atom rfl h h'
  | float, _, _, h, h' => refines_trans_atom rfl h h'
  | str, _, _, h, h' => refines_trans_atom rfl h h'
  | unknown, _, _, h, h' => refines_trans_atom rfl h h'

/-- Transitivity at the attributes of an object. -/
theorem refines_transAttributes : ∀ {as : List (String × ValueType)}, ∀ p ∈ as,
    ∀ {u s : ValueType}, p.2.refines u = true → u.refines s = true → p.2.refines s = true
  | [] => nofun
  | (_, _) :: _ => List.forall_mem_cons.2 ⟨refines_trans, refines_transAttributes⟩

end

/-- The optional types of two types are ordered as these are. -/
theorem refines_orNull (h : t.refines u = true) : t.orNull.refines u.orNull = true := by
  -- Unless the second type is unknown, both are of one form, and `orNull` looks at the form only
  cases t with
  | optional a =>
    rcases refines_optional_iff.1 h with rfl | ⟨b, rfl, -⟩
    · exact refines_unknown _
    · exact h
  | sequence a =>
    rcases refines_sequence_iff.1 h with rfl | ⟨b, rfl, -⟩
    · exact refines_unknown _
    · exact h
  | mapping a =>
    rcases refines_mapping_iff.1 h with rfl | ⟨b, rfl, -⟩
    · exact refines_unknown _
    · exact h
  | object as =>
    rcases refines_object_iff.1 h with rfl | ⟨bs, rfl, -⟩
    · exact refines_unknown _
    · exact h
  | _ =>
    rcases (refines_atom_iff rfl).1 h with rfl | rfl
    · exact refines_unknown _
    · rfl

/-- Only an optional type refines an optional one. -/
theorem refines_optional_right (h : t.refines (optional b) = true) :
    ∃ a, t = optional a ∧ a.refines b = true := by
  cases t with
  | optional a => exact ⟨a, rfl, h⟩
  | _ => cases h

/-- A type that is not optional is its own non-null part. -/
theorem withoutNull_of_ne (h : ∀ a, t ≠ optional a) : t.withoutNull = t := by
  cases t with
  | optional a => exact absurd rfl (h a)
  | _ => rfl

/-- The non-null parts of two types are ordered as these are. -/
theorem refines_withoutNull (h : t.refines u = true) :
    t.withoutNull.refines u.withoutNull = true := by
  fun_induction withoutNull t generalizing u with
  | case1 a ih =>
    -- Above an optional type stands an optional type or the unknown one
    rcases refines_optional_iff.1 h with rfl | ⟨b, rfl, hab⟩
    · exact refines_unknown _
    · exact ih (u := b) hab
  | case2 t hne =>
    -- Only optional types refine optional types
    have hu : ∀ b, u ≠ optional b := by
      rintro b rfl
      obtain ⟨a, rfl, -⟩ := refines_optional_right h
      exact hne a rfl
    rwa [withoutNull_of_ne hu]

/-! ### Types that are compared -/

/-- The comparison of two types comes down to one of these two object types, inside any number of
sequences, mappings and optionals. -/
inductive Meets : ValueType → ValueType → ValueType → ValueType → Prop where
  | object (as bs : List (String × ValueType)) :
    Meets (object as) (object bs) (object as) (object bs)
  | optionalLeft {a b x y : ValueType} : Meets a b x y → Meets (optional a) b x y
  | optionalRight {a b x y : ValueType} : Meets a b x y → Meets a (optional b) x y
  | sequence {a b x y : ValueType} : Meets a b x y → Meets (sequence a) (sequence b) x y
  | mapping {a b x y : ValueType} : Meets a b x y → Meets (mapping a) (mapping b) x y

/-- What meets without null meets with it. -/
theorem Meets.of_withoutNull {x y : ValueType} (h : Meets a b.withoutNull x y) : Meets a b x y := by
  fun_induction withoutNull b with
  | case1 b ih => exact .optionalRight (ih h)
  | case2 b _ => exact h

/-- What can be compared with a type can be compared with it or null. -/
theorem comparable_optional_right : ∀ a b : ValueType, a.comparable (optional b) = a.comparable b
  | optional a, b => comparable_optional_right a b
  | null, _ | unknown, _ => rfl
  | bool, _ | int, _ | float, _ | str, _ | sequence _, _ | mapping _, _ | object _, _ => by
    unfold comparable
    rfl

/-- Whether types can be compared does not depend on null. -/
theorem comparable_withoutNull (a b : ValueType) : a.comparable b.withoutNull = a.comparable b := by
  fun_induction withoutNull b with
  | case1 b ih => rw [ih, comparable_optional_right]
  | case2 => rfl

/-- Every type can be compared with the unknown type. -/
theorem comparable_unknown_right : ∀ a : ValueType, a.comparable unknown = true
  | optional a => comparable_unknown_right a
  | null | bool | int | float | str | sequence _ | mapping _ | object _ | unknown => rfl

/-- A non-null part is not optional again. -/
theorem withoutNull_ne_optional (a : ValueType) : ∀ b, a.withoutNull ≠ optional b := by
  fun_induction withoutNull a with
  | case1 a ih => exact ih
  | case2 a hne => exact hne

/-- Object types that are not the same are not comparable, nor is what holds them. -/
theorem Meets.not_comparable {x y : ValueType} (h : Meets a b x y) (hne : x ≠ y) :
    a.comparable b = false := by
  induction h with
  | object as bs =>
    change (ValueType.object as == ValueType.object bs || false) = false
    simpa using hne
  | optionalLeft _ ih => exact ih hne
  | optionalRight _ ih => rw [comparable_optional_right, ih hne]
  | sequence _ ih => exact ih hne
  | mapping _ ih => exact ih hne

/-- What a list type can be compared with. -/
theorem comparable_sequence_iff : (sequence a).comparable b = true ↔ b.withoutNull = unknown ∨
    b.withoutNull = null ∨ ∃ c, b.withoutNull = sequence c ∧ a.comparable c = true := by
  conv_lhs => unfold comparable
  cases hc : b.withoutNull <;> simp [isNumeric]

theorem comparable_mapping_iff : (mapping a).comparable b = true ↔ b.withoutNull = unknown ∨
    b.withoutNull = null ∨ ∃ c, b.withoutNull = mapping c ∧ a.comparable c = true := by
  conv_lhs => unfold comparable
  cases hc : b.withoutNull <;> simp [isNumeric]

/-- Of the known types an object type can be compared with itself only, null apart. -/
theorem comparable_object_iff {as : List (String × ValueType)} :
    (object as).comparable b = true ↔ b.withoutNull = unknown ∨ b.withoutNull = null ∨
      object as = b.withoutNull := by
  conv_lhs => unfold comparable
  cases hc : b.withoutNull <;> simp [isNumeric]

/-- What compares with a type without parts has none itself, unless it is optional. -/
theorem isAtom_of_comparable (ha : a.isAtom = true) (hnull : a ≠ null) (hunknown : a ≠ unknown)
    (h : a.comparable b = true) : b.withoutNull.isAtom = true := by
  rw [← comparable_withoutNull] at h
  cases hc : b.withoutNull with
  | optional c => exact absurd hc (withoutNull_ne_optional b c)
  | sequence _ | mapping _ | object _ =>
    rw [hc] at h
    cases a <;> contradiction
  | _ => rfl

/-- An atom stays comparable when the other type gets less specific. -/
theorem comparable_atom_of_refines (ha : a.isAtom = true) (hb : b.refines b' = true)
    (h : a.comparable b = true) : a.comparable b' = true := by
  -- Null and the unknown type compare with everything
  by_cases hnull : a = null
  · rw [hnull]
    rfl
  by_cases hunknown : a = unknown
  · rw [hunknown]
    rfl
  -- Any other atom compares with atoms only, and these have no less specific form but the unknown
  -- type
  have hatom := isAtom_of_comparable ha hnull hunknown h
  rw [← comparable_withoutNull] at h ⊢
  rcases (refines_atom_iff hatom).1 (refines_withoutNull hb) with hb' | hb'
  · rw [hb']
    exact comparable_unknown_right a
  · rwa [hb']

/-- Types of which less is known are still comparable, unless this comes down to different object
types. -/
theorem comparable_of_refines : ∀ {a a' b b' : ValueType}, a.refines a' = true →
    b.refines b' = true → a.comparable b = true → (∀ x y, Meets a' b' x y → x = y) →
    a'.comparable b' = true
  | optional a, u, b, b', ha, hb, h, hmeet => by
    -- The null of an optional type plays no part in the comparison
    rcases refines_optional_iff.1 ha with rfl | ⟨a', rfl, haa⟩
    · rfl
    · show a'.comparable b' = true
      exact comparable_of_refines haa hb h fun x y hxy => hmeet x y hxy.optionalLeft
  | sequence a, u, b, b', ha, hb, h, hmeet => by
    rcases refines_sequence_iff.1 ha with rfl | ⟨a', rfl, haa⟩
    · rfl
    have hb := refines_withoutNull hb
    rw [comparable_sequence_iff] at h ⊢
    -- The other type is unknown, null, or a sequence as well
    rcases h with hc | hc | ⟨c, hc, h⟩ <;> rw [hc] at hb
    · exact .inl (unknown_refines_iff.1 hb)
    · exact ((refines_atom_iff rfl).1 hb).imp id .inl
    · refine (refines_sequence_iff.1 hb).imp id fun ⟨c', hc', hcc⟩ => .inr ⟨c', hc', ?_⟩
      refine comparable_of_refines haa hcc h fun x y hxy => hmeet x y (.of_withoutNull ?_)
      rw [hc']
      exact hxy.sequence
  | mapping a, u, b, b', ha, hb, h, hmeet => by
    rcases refines_mapping_iff.1 ha with rfl | ⟨a', rfl, haa⟩
    · rfl
    have hb := refines_withoutNull hb
    rw [comparable_mapping_iff] at h ⊢
    -- Likewise, or a mapping
    rcases h with hc | hc | ⟨c, hc, h⟩ <;> rw [hc] at hb
    · exact .inl (unknown_refines_iff.1 hb)
    · exact ((refines_atom_iff rfl).1 hb).imp id .inl
    · refine (refines_mapping_iff.1 hb).imp id fun ⟨c', hc', hcc⟩ => .inr ⟨c', hc', ?_⟩
      refine comparable_of_refines haa hcc h fun x y hxy => hmeet x y (.of_withoutNull ?_)
      rw [hc']
      exact hxy.mapping
  | object as, u, b, b', ha, hb, h, hmeet => by
    rcases refines_object_iff.1 ha with rfl | ⟨as', rfl, -⟩
    · rfl
    have hb := refines_withoutNull hb
    rw [comparable_object_iff] at h ⊢
    rcases h with hc | hc | hc
    · exact .inl (unknown_refines_iff.1 (hc ▸ hb))
    · exact ((refines_atom_iff rfl).1 (hc ▸ hb)).imp id .inl
    · -- Two objects are left, and these are the same
      refine (refines_object_iff.1 (hc ▸ hb)).imp id fun ⟨bs', hc', _⟩ => .inr ?_
      have hmeets : Meets (object as') b' (object as') (object bs') := by
        refine .of_withoutNull ?_
        rw [hc']
        exact .object as' bs'
      rw [hc', hmeet _ _ hmeets]
  | null, u, b, b', ha, hb, h, _ | bool, u, b, b', ha, hb, h, _ | int, u, b, b', ha, hb, h, _
  | float, u, b, b', ha, hb, h, _ | str, u, b, b', ha, hb, h, _
  | unknown, u, b, b', ha, hb, h, _ => by
    -- An atom became the unknown type, or is the same
    rcases (refines_atom_iff rfl).1 ha with rfl | rfl
    · rfl
    · exact comparable_atom_of_refines rfl hb h

end ValueType

end ReactiveState
