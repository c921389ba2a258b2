import Mathlib.Data.List.Perm.Subperm
import ReactiveState.Proofs.KeyMap
import ReactiveState.ValueType

/-!
# The values of a type

`t.Accepts v` says that `t` takes the value as it is.  There is one lemma for each form of type that
says which values these are, and five facts that go through types of every form:

* `accepts_orNull`: what the optional type of a type takes,
* `accepts_ofValue`: a value has the type that is read off it,
* `accepts_of_coerce`: a coerced value is taken as it is,
* `Accepts.of_refined`: a value of a type has every type that the type refines,
* `Accepts.of_refines`: a type that refines a concrete one takes every value of it.
-/

namespace ReactiveState

namespace ValueType

/-- The type takes the value as it is. -/
def Accepts (t : ValueType) (v : Value) : Prop := t.coerce v = some v

mutual

/-- Every object inside the type has its attributes in strictly ascending order. -/
def WellFormed : ValueType → Prop
  | sequence t => WellFormed t
  | mapping t => WellFormed t
  | optional t => WellFormed t
  | object attributes => KeyMap.Sorted attributes ∧ WellFormedAttributes attributes
  | _ => True

/-- The type of every attribute is well formed. -/
def WellFormedAttributes : List (String × ValueType) → Prop
  | [] => True
  | (_, t) :: attributes => WellFormed t ∧ WellFormedAttributes attributes

end

variable {t u : ValueType} {v : Value} {attributes : List (String × ValueType)}

/-- Attributes are concrete if each of their types is. -/
theorem isConcreteAttributes_iff :
    isConcreteAttributes attributes = true ↔ ∀ p ∈ attributes, p.2.isConcrete = true := by
  induction attributes with
  | nil => simp [isConcreteAttributes]
  | cons p attributes ih => simp [isConcreteAttributes, ih]

/-! ### Values by type -/

section Coerced

attribute [local simp] coerce

/-- Every value is accepted where nothing is known about the type. -/
@[simp] theorem accepts_unknown : unknown.Accepts v := rfl

/-- What each form of type accepts, form by form. -/
@[simp] theorem accepts_null : null.Accepts v ↔ v = .null := by
  cases v <;> simp [Accepts]

@[simp] theorem accepts_bool : bool.Accepts v ↔ ∃ b, v = .bool b := by
  cases v <;> simp [Accepts]

@[simp] theorem accepts_int : int.Accepts v ↔ ∃ n, v = .int n := by
  cases v <;> simp [Accepts]

/-- An integer is not taken as it is. -/
@[simp] theorem accepts_float : float.Accepts v ↔ ∃ x, v = .float x := by
  cases v <;> simp [Accepts]

@[simp] theorem accepts_str : str.Accepts v ↔ ∃ s, v = .str s := by
  cases v <;> simp [Accepts]

/-- A map over a list changes nothing and never fails if it does so at each element. -/
private theorem mapM'_eq_some_self {α : Type} {f : α → Option α} {xs : List α} :
    xs.mapM' f = some xs ↔ ∀ x ∈ xs, f x = some x := by
  induction xs with
  | nil => simp [List.mapM']
  | cons x xs ih =>
    simp only [List.mapM', Option.bind_eq_bind, Option.pure_def, Option.bind_eq_some_iff,
      Option.some.injEq, List.cons.injEq, List.forall_mem_cons, ← ih]
    constructor
    · rintro ⟨y, hy, ys, hys, rfl, rfl⟩
      exact ⟨hy, hys⟩
    · exact fun ⟨hx, hxs⟩ => ⟨x, hx, xs, hxs, rfl, rfl⟩

/-- A list type accepts the lists of items that it accepts. -/
@[simp] theorem accepts_sequence :
    (sequence t).Accepts v ↔ ∃ items, v = .list items ∧ ∀ i ∈ items, t.Accepts i := by
  cases v <;> simp [Accepts, mapM'_eq_some_self]

/-- A dictionary type accepts the dictionaries of values that it accepts. -/
@[simp] theorem accepts_mapping :
    (mapping t).Accepts v ↔ ∃ entries, v = .dict entries ∧ ∀ p ∈ entries, t.Accepts p.2 := by
  cases v <;> simp [Accepts, mapM'_eq_some_self]

/-- An optional type accepts null and what its other part accepts. -/
@[simp] theorem accepts_optional : (optional t).Accepts v ↔ v = .null ∨ t.Accepts v := by
  cases v <;> simp [Accepts]

/-- The value of an attribute is coerced to the type that is looked up under its name. -/
theorem coerceAttribute_eq (attributes : List (String × ValueType)) (name : String) (v : Value) :
    coerceAttribute attributes name v = (KeyMap.find? name attributes).bind (coerce · v) := by
  induction attributes with
  | nil => rfl
  | cons p attributes ih =>
    obtain ⟨k, t⟩ := p
    simp only [coerceAttribute, KeyMap.find?, ih]
    split <;> rfl

/-- An object type accepts dictionaries of as many entries as it has attributes, each of them under
the name of one and accepted by its type. -/
@[simp] theorem accepts_object : (object attributes).Accepts v ↔
    ∃ entries, v = .dict entries ∧ entries.length = attributes.length ∧
      ∀ p ∈ entries, ∃ t, KeyMap.find? p.1 attributes = some t ∧ t.Accepts p.2 := by
  cases v <;> simp [Accepts, mapM'_eq_some_self, coerceAttribute_eq,
    Option.bind_eq_some_iff]

end Coerced

/-- Making a type optional adds null, if it is not there already. -/
@[simp] theorem accepts_orNull : t.orNull.Accepts v ↔ v = .null ∨ t.Accepts v := by
  cases t <;> simp [orNull]

/-- What is accepted is accepted with null beside it. -/
theorem Accepts.orNull (h : t.Accepts v) : t.orNull.Accepts v :=
  accepts_orNull.2 (.inr h)

/-- Null is accepted by every type with null. -/
theorem Accepts.orNull_of_null (h : null.Accepts v) : t.orNull.Accepts v :=
  accepts_orNull.2 (.inl (accepts_null.1 h))

theorem Accepts.orNull_of_optional (h : (optional t).Accepts v) : t.orNull.Accepts v :=
  accepts_orNull.2 (accepts_optional.1 h)

/-! ### Types of values -/

/-- Types have one in common only if they are all this type. -/
theorem common?_eq_some {ts : List ValueType} (h : common? ts = some t) : ∀ u ∈ ts, u = t := by
  cases ts with
  | nil => cases h
  | cons u ts =>
    simp only [common?, Option.ite_none_right_eq_some, List.all_eq_true, decide_eq_true_eq,
      Option.some.injEq] at h
    obtain ⟨hall, rfl⟩ := h
    exact List.forall_mem_cons.2 ⟨rfl, hall⟩

/-- The recursion over items as a `map`. -/
theorem ofItems_eq_map (items : List Value) : ofItems items = items.map ofValue := by
  induction items with
  | nil => rfl
  | cons v items ih => rw [ofItems, ih, List.map_cons]

/-- The recursion over entries as a `map`. -/
theorem ofEntries_eq_map (entries : List (String × Value)) :
    ofEntries entries = entries.map fun p => (p.1, ofValue p.2) := by
  induction entries with
  | nil => rfl
  | cons p entries ih => rw [ofEntries, ih, List.map_cons]

mutual

/-- A value has the type that is read off it. -/
theorem accepts_ofValue : ∀ {v : Value}, v.WellFormed → (ofValue v).Accepts v
  | .null, _ => rfl
  | .bool _, _ => rfl
  | .int _, _ => rfl
  | .float _, _ => rfl
  | .str _, _ => rfl
  | .list items, h => by
    simp only [ofValue, accepts_sequence]
    refine ⟨items, rfl, fun i hi => ?_⟩
    -- The items have a common type, or anything is accepted
    cases hc : common? (ofItems items) with
    | none => exact accepts_unknown
    | some t =>
      have ht := common?_eq_some hc (ofValue i) (ofItems_eq_map items ▸ List.mem_map_of_mem hi)
      exact ht ▸ accepts_ofItems h i hi
  | .dict entries, h => by
    have haccepts := accepts_ofEntries h.2
    -- Without a common type it is an object, unless it is empty
    simp only [ofValue]
    split
    · next t hc =>
      refine accepts_mapping.2 ⟨entries, rfl, fun p hp => ?_⟩
      have ht := common?_eq_some hc (ofValue p.2)
        (by rw [ofEntries_eq_map, List.map_map]; exact List.mem_map_of_mem hp)
      exact ht ▸ haccepts p hp
    · split
      · exact accepts_mapping.2 ⟨entries, rfl, fun _ _ => accepts_unknown⟩
      · -- Each entry has the type that was read off it under its own name
        refine accepts_object.2 ⟨entries, rfl, by simp [ofEntries_eq_map], fun p hp => ?_⟩
        refine ⟨ofValue p.2, ?_, haccepts p hp⟩
        rw [ofEntries_eq_map, KeyMap.find?_map p.1 (fun _ v => ofValue v),
          KeyMap.find?_of_mem (KeyMap.nodup_of_sorted h.1) hp, Option.map_some]

/-- Each item of a well-formed list is accepted by its own type. -/
theorem accepts_ofItems : ∀ {items : List Value}, Value.WellFormedList items →
    ∀ v ∈ items, (ofValue v).Accepts v
  | [], _ => nofun
  | _ :: _, h => List.forall_mem_cons.2 ⟨accepts_ofValue h.1, accepts_ofItems h.2⟩

/-- Each value of a well-formed dictionary is accepted by its own type. -/
theorem accepts_ofEntries : ∀ {entries : List (String × Value)}, Value.WellFormedEntries entries →
    ∀ p ∈ entries, (ofValue p.2).Accepts p.2
  | [], _ => nofun
  | (_, _) :: _, h => List.forall_mem_cons.2 ⟨accepts_ofValue h.1, accepts_ofEntries h.2⟩

end

/-! ### Coerced values -/

/-- The results of a map over a list come from its elements. -/
private theorem mapM'_eq_some {α β : Type} {f : α → Option β} {xs : List α} {ys : List β}
    (h : xs.mapM' f = some ys) : ys.length = xs.length ∧ ∀ y ∈ ys, ∃ x ∈ xs, f x = some y := by
  induction xs generalizing ys with
  | nil =>
    obtain rfl := Option.some.inj h
    exact ⟨rfl, nofun⟩
  | cons x xs ih =>
    simp only [List.mapM', Option.bind_eq_bind, Option.pure_def, Option.bind_eq_some_iff,
      Option.some.injEq] at h
    obtain ⟨y, hy, ys', hys', rfl⟩ := h
    -- The first result comes from the first element, the others from the rest
    obtain ⟨hlength, hmem⟩ := ih hys'
    refine ⟨congrArg (· + 1) hlength, List.forall_mem_cons.2 ⟨?_, fun z hz => ?_⟩⟩
    · exact ⟨x, List.mem_cons_self, hy⟩
    · obtain ⟨x', hx', hz⟩ := hmem z hz
      exact ⟨x', List.mem_cons_of_mem x hx', hz⟩

mutual

/-- A type takes what it has coerced. -/
theorem accepts_of_coerce : ∀ {t : ValueType} {v w : Value}, t.coerce v = some w → t.Accepts w
  | null, v, w, h => by
    cases v <;> cases h
    rfl
  | bool, v, w, h => by
    cases v <;> cases h
    rfl
  | int, v, w, h => by
    cases v <;> cases h
    rfl
  | float, v, w, h => by
    -- An integer has become a float
    cases v <;> cases h <;> rfl
  | str, v, w, h => by
    cases v <;> cases h
    rfl
  | unknown, _, _, _ => accepts_unknown
  | sequence t, v, w, h => by
    cases v with
    | list items =>
      obtain ⟨items', hitems, rfl⟩ := Option.map_eq_some_iff.1 h
      refine accepts_sequence.2 ⟨items', rfl, fun i hi => ?_⟩
      -- Each item was coerced from one of the items before
      obtain ⟨j, -, hj⟩ := (mapM'_eq_some hitems).2 i hi
      exact accepts_of_coerce hj
    | _ => cases h
  | mapping t, v, w, h => by
    cases v with
    | dict entries =>
      obtain ⟨entries', hentries, rfl⟩ := Option.map_eq_some_iff.1 h
      refine accepts_mapping.2 ⟨entries', rfl, fun p hp => ?_⟩
      obtain ⟨q, -, hq⟩ := (mapM'_eq_some hentries).2 p hp
      obtain ⟨u, hu, rfl⟩ := Option.map_eq_some_iff.1 hq
      exact accepts_of_coerce hu
    | _ => cases h
  | optional t, v, w, h => by
    cases v with
    -- Nothing is kept, and anything else is coerced to the type inside
    | null => exact accepts_optional.2 (.inl (Option.some.inj h).symm)
    | _ => exact accepts_optional.2 (.inr (accepts_of_coerce (t := t) h))
  | object attributes, v, w, h => by
    cases v with
    | dict entries =>
      simp only [coerce, Option.ite_none_right_eq_some] at h
      obtain ⟨hcount, h⟩ := h
      obtain ⟨entries', hentries, rfl⟩ := Option.map_eq_some_iff.1 h
      obtain ⟨hlength, hmem⟩ := mapM'_eq_some hentries
      refine accepts_object.2 ⟨entries', rfl, hlength.trans hcount, fun p hp => ?_⟩
      -- An entry keeps its name, and so its attribute
      obtain ⟨q, -, hq⟩ := hmem p hp
      obtain ⟨u, hu, rfl⟩ := Option.map_eq_some_iff.1 hq
      rw [coerceAttribute_eq] at hu
      obtain ⟨t, ht, hu⟩ := Option.bind_eq_some_iff.1 hu
      exact ⟨t, ht, accepts_of_coerceAttributes _ (KeyMap.mem_of_find? ht) hu⟩
    | _ => cases h

/-- Coercing to the type of an attribute gives what this type accepts. -/
theorem accepts_of_coerceAttributes : ∀ {attributes : List (String × ValueType)},
    ∀ p ∈ attributes, ∀ {v w : Value}, p.2.coerce v = some w → p.2.Accepts w
  | [] => nofun
  | (_, _) :: _ => List.forall_mem_cons.2 ⟨accepts_of_coerce, accepts_of_coerceAttributes⟩

end

/-! ### Refinement -/

/-- As many attributes of distinct names leave no name of the other attributes out. -/
private theorem keys_subset_of_length {as bs : List (String × ValueType)}
    (hnodup : (KeyMap.keys as).Nodup) (hlength : as.length = bs.length)
    (hsub : KeyMap.keys as ⊆ KeyMap.keys bs) : KeyMap.keys bs ⊆ KeyMap.keys as := by
  have hle : (KeyMap.keys bs).length ≤ (KeyMap.keys as).length := by simp [KeyMap.keys, hlength]
  exact ((hnodup.subperm hsub).perm_of_length_le hle).symm.subset

/-- Attributes refine others if each of them has a counterpart that it refines. -/
theorem refinesAttributes_iff {as bs : List (String × ValueType)} :
    refinesAttributes as bs = true ↔
      ∀ p ∈ as, ∃ b, KeyMap.find? p.1 bs = some b ∧ p.2.refines b = true := by
  induction as with
  | nil => simp [refinesAttributes]
  | cons p as ih =>
    obtain ⟨k, a⟩ := p
    rw [List.forall_mem_cons, ← ih]
    cases h : KeyMap.find? k bs <;> simp [refinesAttributes, h]

mutual

/-- What a type takes every less specific type takes. -/
theorem Accepts.of_refined : ∀ {t u : ValueType} {v : Value}, t.refines u = true → t.Accepts v →
    u.Accepts v
  | sequence a, u, v, h, hv => by
    cases u with
    | sequence b =>
      obtain ⟨items, rfl, hitems⟩ := accepts_sequence.1 hv
      exact accepts_sequence.2 ⟨items, rfl, fun i hi => (hitems i hi).of_refined h⟩
    | unknown => exact accepts_unknown
    | _ => cases h
  | mapping a, u, v, h, hv => by
    cases u with
    | mapping b =>
      obtain ⟨entries, rfl, hentries⟩ := accepts_mapping.1 hv
      exact accepts_mapping.2 ⟨entries, rfl, fun p hp => (hentries p hp).of_refined h⟩
    | unknown => exact accepts_unknown
    | _ => cases h
  | optional a, u, v, h, hv => by
    cases u with
    | optional b =>
      exact accepts_optional.2 ((accepts_optional.1 hv).imp id fun hv => hv.of_refined h)
    | unknown => exact accepts_unknown
    | _ => cases h
  | object as, u, v, h, hv => by
    cases u with
    | object bs =>
      simp only [refines, Bool.and_eq_true, beq_iff_eq, refinesAttributes_iff] at h
      obtain ⟨hlength, hrefines⟩ := h
      obtain ⟨entries, rfl, hentries, hall⟩ := accepts_object.1 hv
      refine accepts_object.2 ⟨entries, rfl, hentries.trans hlength, fun p hp => ?_⟩
      -- The attribute of the entry's name refines the one on the other side
      obtain ⟨a, ha, hav⟩ := hall p hp
      have hmem := KeyMap.mem_of_find? ha
      obtain ⟨b, hb, hab⟩ := hrefines _ hmem
      exact ⟨b, hb, Accepts.of_refinedAttributes _ hmem hab hav⟩
    | unknown => exact accepts_unknown
    | _ => cases h
  -- The other types refine only themselves and what is unknown
  | null, u, v, h, hv => by cases u <;> simp_all [refines]
  | bool, u, v, h, hv => by cases u <;> simp_all [refines]
  | int, u, v, h, hv => by cases u <;> simp_all [refines]
  | float, u, v, h, hv => by cases u <;> simp_all [refines]
  | str, u, v, h, hv => by cases u <;> simp_all [refines]
  | unknown, u, v, h, hv => by cases u <;> simp_all [refines]

/-- The attributes of a more specific object accept less. -/
theorem Accepts.of_refinedAttributes : ∀ {as : List (String × ValueType)},
    ∀ p ∈ as, ∀ {b : ValueType} {v : Value}, p.2.refines b = true → p.2.Accepts v → b.Accepts v
  | [] => nofun
  | (_, _) :: _ => List.forall_mem_cons.2 ⟨fun h hv => hv.of_refined h,
      Accepts.of_refinedAttributes⟩

end

mutual

/-- A type that refines a concrete one takes its values. -/
theorem Accepts.of_refines : ∀ {t u : ValueType} {v : Value}, t.WellFormed → t.refines u = true →
    u.isConcrete = true → u.Accepts v → t.Accepts v
  | sequence a, u, v, ha, h, hu, hv => by
    cases u with
    | sequence b =>
      obtain ⟨items, rfl, hitems⟩ := accepts_sequence.1 hv
      exact accepts_sequence.2 ⟨items, rfl, fun i hi => (hitems i hi).of_refines ha h hu⟩
    | unknown => cases hu
    | _ => cases h
  | mapping a, u, v, ha, h, hu, hv => by
    cases u with
    | mapping b =>
      obtain ⟨entries, rfl, hentries⟩ := accepts_mapping.1 hv
      exact accepts_mapping.2 ⟨entries, rfl, fun p hp => (hentries p hp).of_refines ha h hu⟩
    | unknown => cases hu
    | _ => cases h
  | optional a, u, v, ha, h, hu, hv => by
    cases u with
    | optional b =>
      exact accepts_optional.2 ((accepts_optional.1 hv).imp id fun hv => hv.of_refines ha h hu)
    | unknown => cases hu
    | _ => cases h
  | object as, u, v, ha, h, hu, hv => by
    cases u with
    | object bs =>
      simp only [refines, Bool.and_eq_true, beq_iff_eq, refinesAttributes_iff] at h
      obtain ⟨hlength, hrefines⟩ := h
      obtain ⟨entries, rfl, hentries, hall⟩ := accepts_object.1 hv
      -- The two objects have the same names, since they have equally many
      have hkeys : KeyMap.keys bs ⊆ KeyMap.keys as := by
        refine keys_subset_of_length (KeyMap.nodup_of_sorted ha.1) hlength fun k hk => ?_
        obtain ⟨p, hp, rfl⟩ := List.mem_map.1 hk
        obtain ⟨b, hb, _⟩ := hrefines p hp
        exact KeyMap.find?_isSome_iff.1 (by rw [hb]; rfl)
      refine accepts_object.2 ⟨entries, rfl, hentries.trans hlength.symm, fun p hp => ?_⟩
      obtain ⟨b, hb, hbv⟩ := hall p hp
      obtain ⟨a, ha'⟩ := Option.isSome_iff_exists.1
        (KeyMap.find?_isSome_iff.2 (hkeys (KeyMap.find?_isSome_iff.1 (by rw [hb]; rfl))))
      have hmem := KeyMap.mem_of_find? ha'
      -- The name has one type on each side, and these refine each other
      obtain ⟨b', hb', hab⟩ := hrefines _ hmem
      obtain rfl : b = b' := Option.some.inj (hb.symm.trans hb')
      have hconcrete := isConcreteAttributes_iff.1 hu _ (KeyMap.mem_of_find? hb)
      exact ⟨a, ha', Accepts.of_refinesAttributes ha.2 _ hmem hab hconcrete hbv⟩
    | unknown => cases hu
    | _ => cases h
  -- A concrete type is never unknown, so the other types refine only themselves here
  | null, u, v, _, h, hu, hv => by cases u <;> simp_all [refines, isConcrete]
  | bool, u, v, _, h, hu, hv => by cases u <;> simp_all [refines, isConcrete]
  | int, u, v, _, h, hu, hv => by cases u <;> simp_all [refines, isConcrete]
  | float, u, v, _, h, hu, hv => by cases u <;> simp_all [refines, isConcrete]
  | str, u, v, _, h, hu, hv => by cases u <;> simp_all [refines, isConcrete]
  | unknown, u, v, _, h, hu, hv => accepts_unknown

/-- The attributes of a more specific object accept as much, if those of the other one are
concrete. -/
theorem Accepts.of_refinesAttributes : ∀ {as : List (String × ValueType)},
    WellFormedAttributes as → ∀ p ∈ as, ∀ {b : ValueType} {v : Value}, p.2.refines b = true →
      b.isConcrete = true → b.Accepts v → p.2.Accepts v
  | [], _ => nofun
  | (_, _) :: _, ha => List.forall_mem_cons.2 ⟨fun h hu hv => hv.of_refines ha.1 h hu,
      Accepts.of_refinesAttributes ha.2⟩

end

end ValueType

end ReactiveState
