import ReactiveState.Proofs.Schema.Built
import ReactiveState.Proofs.Typing.Refinement

/-!
# Coercion, refinement and zero values

What a type has coerced it takes as it is, and so does every type it refines; the zero value is one
that it takes as it is (`ValueType.accepts_zero`).  Hence a field that is declared without a default
is refused for its name only (`Schema.declare_zero`).  Refinement is a partial order; of two types
that refine each other neither knows more (`ValueType.refines_antisymm`).

All of this is about well-formed types, whose objects have each name once and in order.
-/

namespace ReactiveState

namespace ValueType

variable {t u s : ValueType} {attributes : List (String × ValueType)}

/-! ### Zero values -/

theorem zeroAttributes_eq_map (attributes : List (String × ValueType)) :
    zeroAttributes attributes = attributes.map fun p => (p.1, p.2.zero) := by
  induction attributes with
  | nil => rfl
  | cons p attributes ih => rw [zeroAttributes, ih, List.map_cons]

mutual

/-- A type takes its zero value as it is. -/
theorem accepts_zero : ∀ {t : ValueType}, t.WellFormed → t.Accepts t.zero
  | null, _ | bool, _ | int, _ | float, _ | str, _ | unknown, _ => rfl
  | sequence _, _ => accepts_sequence.2 ⟨[], rfl, nofun⟩
  | mapping _, _ => accepts_mapping.2 ⟨[], rfl, nofun⟩
  | optional _, _ => accepts_optional.2 (.inl rfl)
  | object attributes, h => by
    refine accepts_object.2 ⟨zeroAttributes attributes, rfl, ?_, fun p hp => ?_⟩
    · rw [zeroAttributes_eq_map, List.length_map]
    · rw [zeroAttributes_eq_map] at hp
      obtain ⟨q, hq, rfl⟩ := List.mem_map.1 hp
      -- Names are distinct, so the zero stands under the name of its own attribute
      exact ⟨q.2, KeyMap.find?_of_mem (KeyMap.nodup_of_sorted h.1) hq,
        accepts_zeroAttributes h.2 q hq⟩

theorem accepts_zeroAttributes : ∀ {attributes : List (String × ValueType)},
    WellFormedAttributes attributes → ∀ p ∈ attributes, p.2.Accepts p.2.zero
  | [], _ => nofun
  | (_, _) :: _, h => List.forall_mem_cons.2 ⟨accepts_zero h.1, accepts_zeroAttributes h.2⟩

end

/-! ### Refinement as an order -/

theorem WellFormedAttributes.of_mem (h : WellFormedAttributes attributes) :
    ∀ p ∈ attributes, p.2.WellFormed := by
  induction attributes with
  | nil => exact nofun
  | cons p attributes ih => exact List.forall_mem_cons.2 ⟨h.1, ih h.2⟩

mutual

/-- Types that refine each other are the same. -/
theorem refines_antisymm : ∀ {t u : ValueType}, t.WellFormed → u.WellFormed →
    t.refines u = true → u.refines t = true → t = u
  | sequence a, u, ht, hu, h, h' => by
    rcases refines_sequence_iff.1 h with rfl | ⟨b, rfl, hab⟩
    · exact unknown_refines_iff.1 h'
    · exact congrArg sequence (refines_antisymm ht hu hab h')
  | mapping a, u, ht, hu, h, h' => by
    rcases refines_mapping_iff.1 h with rfl | ⟨b, rfl, hab⟩
    · exact unknown_refines_iff.1 h'
    · exact congrArg mapping (refines_antisymm ht hu hab h')
  | optional a, u, ht, hu, h, h' => by
    rcases refines_optional_iff.1 h with rfl | ⟨b, rfl, hab⟩
    · exact unknown_refines_iff.1 h'
    · exact congrArg optional (refines_antisymm ht hu hab h')
  | object as, u, ht, hu, h, h' => by
    rcases refines_object_iff.1 h with rfl | ⟨bs, rfl, -, hab⟩
    · exact unknown_refines_iff.1 h'
    · obtain ⟨_, heq, -, hba⟩ := (refines_object_iff.1 h').resolve_left nofun
      obtain rfl := object.inj heq
      -- Under every name the same is found on both sides
      refine congrArg object (KeyMap.ext_of_sorted ht.1 hu.1 fun k => ?_)
      cases hk : KeyMap.find? k as with
      | none =>
        cases hk' : KeyMap.find? k bs with
        | none => rfl
        | some b =>
          obtain ⟨a, ha, -⟩ := hba _ (KeyMap.mem_of_find? hk')
          rw [hk] at ha
          cases ha
      | some a =>
        have hmem := KeyMap.mem_of_find? hk
        -- From the first object to the second and back, which ends at the same attribute
        obtain ⟨b, hb, hab⟩ := hab _ hmem
        have hmem' := KeyMap.mem_of_find? hb
        obtain ⟨a', ha', hba⟩ := hba _ hmem'
        obtain rfl : a = a' := Option.some.inj (hk.symm.trans ha')
        have heq := refines_antisymmAttributes ht.2 _ hmem (hu.2.of_mem _ hmem') hab hba
        exact (congrArg some heq).trans hb.symm
  | null, u, _, _, h, h' | bool, u, _, _, h, h' | int, u, _, _, h, h' | float, u, _, _, h, h'
  | str, u, _, _, h, h' | unknown, u, _, _, h, h' => by
    -- An atom refines itself and the unknown type only
    rcases (refines_atom_iff rfl).1 h with rfl | rfl
    · exact unknown_refines_iff.1 h'
    · rfl

theorem refines_antisymmAttributes : ∀ {as : List (String × ValueType)}, WellFormedAttributes as →
    ∀ p ∈ as, ∀ {u : ValueType}, u.WellFormed → p.2.refines u = true → u.refines p.2 = true →
      p.2 = u
  | [], _ => nofun
  | (_, _) :: _, h => List.forall_mem_cons.2 ⟨refines_antisymm h.1, refines_antisymmAttributes h.2⟩

end

end ValueType

/-! ### Fields without a default -/

namespace Schema

/-- A name is refused as a name. -/
theorem reserve_ne_fieldTypeMismatch (s : Schema) (name container field : String)
    (expected : ValueType) (found : String) :
    s.reserve name ≠ .error (.fieldTypeMismatch container field expected found) := by
  unfold reserve
  split
  · exact nofun
  · split <;> exact nofun

/-- A field whose default is the zero of its type is declared whenever its name can be. -/
theorem declare_zero (s : Schema) {decl : FieldDecl} (ht : decl.type.WellFormed)
    (hzero : decl.default = decl.type.zero) :
    s.declare decl = (s.reserve decl.name).map fun _ => s.addField decl := by
  have haccepts : decl.type.coerce decl.default = some decl.default :=
    hzero ▸ ValueType.accepts_zero ht
  rw [declare, haccepts]
  cases s.reserve decl.name <;> rfl

/-- A declaration whose default is the zero value never has a default of the wrong type. -/
theorem declare_zero_ne_fieldTypeMismatch (s : Schema) {decl : FieldDecl}
    (ht : decl.type.WellFormed) (hzero : decl.default = decl.type.zero) (container field : String)
    (expected : ValueType) (found : String) :
    s.declare decl ≠ .error (.fieldTypeMismatch container field expected found) := by
  intro h
  rw [s.declare_zero ht hzero] at h
  -- What can still fail is reserving the name, and that has errors of its own
  cases hname : s.reserve decl.name with
  | ok => rw [hname] at h; cases h
  | error e =>
    rw [hname] at h
    obtain rfl := Except.error.inj h
    exact s.reserve_ne_fieldTypeMismatch _ _ _ _ _ hname

end Schema

/-! ### The laws together -/

open ValueType

/-- Coercion is idempotent and keeps zero values, so a field without a default never has the wrong
type; refinement is a partial order; and what a type has coerced, every type it refines takes as it
is. -/
theorem ValueType.coercion_laws {t u s : ValueType} (ht : t.WellFormed) (hu : u.WellFormed) :
    (∀ v w, t.coerce v = some w → t.coerce w = some w) ∧
      t.coerce t.zero = some t.zero ∧
      (∀ (schema : Schema) (decl : FieldDecl), decl.type = t → decl.default = t.zero →
        schema.declare decl = (schema.reserve decl.name).map (fun _ => schema.addField decl) ∧
          ∀ container field expected found, schema.declare decl ≠
            .error (.fieldTypeMismatch container field expected found)) ∧
      t.refines t = true ∧
      (t.refines u = true → u.refines s = true → t.refines s = true) ∧
      (t.refines u = true → u.refines t = true → t = u) ∧
      (t.refines u = true → ∀ v w, t.coerce v = some w → u.coerce w = some w) := by
  refine ⟨fun v w => accepts_of_coerce, accepts_zero ht, ?_, refines_refl ht, refines_trans,
    refines_antisymm ht hu, fun h v w hv => (accepts_of_coerce hv).of_refined h⟩
  rintro schema decl rfl hzero
  exact ⟨schema.declare_zero ht hzero, schema.declare_zero_ne_fieldTypeMismatch ht hzero⟩

/-- An integer inside a list of objects becomes a float, which stays one where less is known. -/
theorem ValueType.coercion_laws_nested :
    let t : ValueType := .sequence (.object [("a", .optional .float), ("b", .mapping .int)])
    let u : ValueType := .sequence (.object [("a", .optional .unknown), ("b", .unknown)])
    let v : Value := .list [.dict [("a", .int 2), ("b", .dict [])]]
    let w : Value := .list [.dict [("a", .float 2.0), ("b", .dict [])]]
    t.WellFormed ∧ u.WellFormed ∧ t.refines u = true ∧ u.refines t = false ∧
      t.coerce v = some w ∧ t.coerce w = some w ∧ u.coerce w = some w ∧ t.refines .unknown = true ∧
      ∀ s : Schema, s.reserve "x" = .ok () →
        s.declare (.ofType "x" t) = .ok (s.addField (.ofType "x" t)) := by
  intro t u v w
  have ht : t.WellFormed := ⟨by unfold KeyMap.Sorted; decide, trivial, trivial, trivial⟩
  have hu : u.WellFormed := ⟨by unfold KeyMap.Sorted; decide, trivial, trivial, trivial⟩
  have htu : t.refines u = true := by decide
  have hv : t.coerce v = some w := by rfl
  -- All of it is read off the laws, but for what coercion makes of the value
  obtain ⟨hidem, -, hdeclare, -, htrans, -, hrefined⟩ := coercion_laws (s := .unknown) ht hu
  refine ⟨ht, hu, htu, by decide, hv, hidem v w hv, hrefined htu v w hv,
    htrans htu (refines_unknown u), fun s hs => ?_⟩
  rw [(hdeclare s (.ofType "x" t) rfl rfl).1]
  simp only [FieldDecl.ofType, hs]
  rfl

end ReactiveState
