import Mathlib.Data.List.Nodup
import ReactiveState.Proofs.Except
import ReactiveState.Proofs.KeyMap
import ReactiveState.Proofs.Typing.Accepts
import ReactiveState.Schema

/-!
# Schemas that can be built

`Schema.Built` are the schemas that the declarations can make.  Whatever the order of the
declarations, no two members of such a schema share a name and every name is an identifier
(`Built.wellNamed`), and the default of every stored field is a value of its type
(`Built.accepts_default`).
-/

namespace ReactiveState

namespace Schema

/-- The schemas that come out of a sequence of declarations. -/
inductive Built : Schema → Prop where
  | start {name : String} {s : Schema} (h : start name = .ok s) : Built s
  | declare {s s' : Schema} {decl : FieldDecl} (hs : Built s) (h : s.declare decl = .ok s') :
    Built s'
  | declareComputed {s s' : Schema} {name : String} {e : Expr} (hs : Built s)
    (h : s.declareComputed name e = .ok s') : Built s'
  | declareHandler {s s' : Schema} {name : String} {handler : Handler} (hs : Built s)
    (h : s.declareHandler name handler = .ok s') : Built s'
  | declareChild {s s' child : Schema} {name : String} (hs : Built s) (hchild : Built child)
    (h : s.declareChild name child = .ok s') : Built s'
  | extending {s s' base : Schema} (hs : Built s) (hbase : Built base)
    (h : s.extending base = .ok s') : Built s'

/-- The names of the members. -/
def names : Schema → List String
  | mk _ fields computed handlers children _ =>
    fields.map (·.name) ++ (KeyMap.keys computed ++ (KeyMap.keys handlers ++ KeyMap.keys children))

/-- No two members share a name, every name is an identifier, and so it is in the children. -/
structure WellNamed (s : Schema) : Prop where
  nodup : s.names.Nodup
  isIdentifier : ∀ n ∈ s.names, isIdentifier n = true
  name_isIdentifier : ReactiveState.isIdentifier s.name = true
  children : ∀ c ∈ s.children, c.2.Built

variable {s s' : Schema} {name : String}

/-- A schema declares exactly the names it lists. -/
theorem declares_iff : s.declares name = true ↔ name ∈ s.names := by
  obtain ⟨n, fs, cs, hs, ks, is⟩ := s
  have hfield : (fs.find? (·.name = name)).isSome = true ↔ name ∈ fs.map (·.name) := by
    simp [List.find?_isSome]
  simp only [declares, hasField, field?, computed?, handler?, child?, fields, computed, handlers,
    children, names, Bool.or_eq_true, hfield, KeyMap.find?_isSome_iff, List.mem_append, or_assoc]

/-- A name is reserved only if it is an identifier that is not taken yet. -/
theorem reserve_eq_ok (h : s.reserve name = .ok ()) :
    ReactiveState.isIdentifier name = true ∧ name ∉ s.names := by
  unfold reserve at h
  split at h
  · cases h
  · next hid =>
    split at h
    · cases h
    · next hdecl => exact ⟨by simpa using hid, fun hm => hdecl (declares_iff.2 hm)⟩

/-- A schema stays well named when a member with a reserved name is put between the others. -/
theorem WellNamed.add (before after : List String) (h : s.WellNamed)
    (hr : s.reserve name = .ok ()) (hname : s'.name = s.name)
    (hnames : s.names = before ++ after) (hnames' : s'.names = before ++ name :: after)
    (hchildren : ∀ c ∈ s'.children, c.2.Built) : s'.WellNamed := by
  obtain ⟨hid, hfresh⟩ := reserve_eq_ok hr
  -- Where the name stands among the others makes no difference
  have hperm : s'.names.Perm (name :: s.names) := by
    rw [hnames, hnames']
    exact List.perm_middle
  refine ⟨hperm.nodup_iff.2 (List.nodup_cons.2 ⟨hfresh, h.nodup⟩), fun n hn => ?_,
    hname ▸ h.name_isIdentifier, hchildren⟩
  -- The new name was checked when it was reserved
  rcases List.mem_cons.1 (hperm.mem_iff.1 hn) with rfl | hn
  · exact hid
  · exact h.isIdentifier n hn

/-- A field under a reserved name keeps the names apart. -/
theorem WellNamed.addField {decl : FieldDecl} (h : s.WellNamed)
    (hr : s.reserve decl.name = .ok ()) : (s.addField decl).WellNamed := by
  obtain ⟨n, fs, cs, hs, ks, is⟩ := s
  exact h.add (fs.map (·.name)) (KeyMap.keys cs ++ (KeyMap.keys hs ++ KeyMap.keys ks)) hr rfl rfl
    (by simp [Schema.addField, names]) h.children

/-- So does a computed field. -/
theorem WellNamed.addComputed {e : Expr} (h : s.WellNamed) (hr : s.reserve name = .ok ()) :
    (s.addComputed name e).WellNamed := by
  obtain ⟨n, fs, cs, hs, ks, is⟩ := s
  exact h.add (fs.map (·.name) ++ KeyMap.keys cs) (KeyMap.keys hs ++ KeyMap.keys ks) hr rfl
    (by simp [names]) (by simp [Schema.addComputed, names, KeyMap.keys]) h.children

/-- So does a handler. -/
theorem WellNamed.addHandler {handler : Handler} (h : s.WellNamed)
    (hr : s.reserve name = .ok ()) : (s.addHandler name handler).WellNamed := by
  obtain ⟨n, fs, cs, hs, ks, is⟩ := s
  exact h.add (fs.map (·.name) ++ KeyMap.keys cs ++ KeyMap.keys hs) (KeyMap.keys ks) hr rfl
    (by simp [names]) (by simp [Schema.addHandler, names, KeyMap.keys]) h.children

/-- So does a container in it, whose own names are apart because it was built by declarations. -/
theorem WellNamed.addChild {child : Schema} (h : s.WellNamed) (hchild : child.Built)
    (hr : s.reserve name = .ok ()) : (s.addChild name child).WellNamed := by
  obtain ⟨n, fs, cs, hs, ks, is⟩ := s
  refine h.add (fs.map (·.name) ++ KeyMap.keys cs ++ KeyMap.keys hs ++ KeyMap.keys ks) [] hr rfl
    (by simp [names]) (by simp [Schema.addChild, names, KeyMap.keys]) fun c hc => ?_
  rcases List.mem_append.1 hc with hc | hc
  · exact h.children c hc
  · rw [List.mem_singleton.1 hc]
    exact hchild

/-- Marking a name as copied changes no member. -/
theorem WellNamed.addInherited (h : s.WellNamed) : (s.addInherited name).WellNamed := by
  obtain ⟨n, fs, cs, hs, ks, is⟩ := s
  exact ⟨h.nodup, h.isIdentifier, h.name_isIdentifier, h.children⟩

/-! ### Names of one kind -/

/-- No computed field is declared twice. -/
theorem WellNamed.nodup_computed (h : s.WellNamed) : (KeyMap.keys s.computed).Nodup := by
  obtain ⟨n, fs, cs, hs, ks, is⟩ := s
  exact (List.nodup_append.1 (List.nodup_append.1 h.nodup).2.1).1

/-- No container is declared twice. -/
theorem WellNamed.nodup_children (h : s.WellNamed) : (KeyMap.keys s.children).Nodup := by
  obtain ⟨n, fs, cs, hs, ks, is⟩ := s
  exact (List.nodup_append.1 (List.nodup_append.1 (List.nodup_append.1 h.nodup).2.1).2.1).2.1

/-- A declared field is the one that is found under its name. -/
theorem WellNamed.field?_of_mem (h : s.WellNamed) {decl : FieldDecl} (hd : decl ∈ s.fields) :
    s.field? decl.name = some decl := by
  obtain ⟨n, fs, cs, hs, ks, is⟩ := s
  cases hf : field? (Schema.mk n fs cs hs ks is) decl.name with
  | none => exact absurd (List.find?_eq_none.1 hf decl hd) (by simp)
  | some decl' =>
    have hname : decl'.name = decl.name := by simpa using List.find?_some hf
    -- The first declaration of the name is the only one
    rw [List.inj_on_of_nodup_map (List.nodup_append.1 h.nodup).1
      (List.mem_of_find?_eq_some hf) hd hname]

/-- No stored field has the name of a computed one. -/
theorem WellNamed.field?_eq_none (h : s.WellNamed) (hc : (s.computed? name).isSome = true) :
    s.field? name = none := by
  obtain ⟨n, fs, cs, hs, ks, is⟩ := s
  have hmem : name ∈ KeyMap.keys cs := KeyMap.find?_isSome_iff.1 hc
  refine List.find?_eq_none.2 fun decl hdecl heq => ?_
  refine (List.nodup_append.1 h.nodup).2.2 decl.name (List.mem_map_of_mem hdecl) name
    (List.mem_append_left _ hmem) (by simpa using heq)

/-! ### Declarations -/

/-- A loop of declarations keeps what each of them keeps. -/
theorem foldlM_keeps {P : Schema → Prop} {α : Type _} {f : Schema → α → Building}
    {members : List α} (hstep : ∀ s s' a, a ∈ members → P s → f s a = .ok s' → P s') (hs : P s)
    (h : members.foldlM f s = .ok s') : P s' := by
  induction members generalizing s with
  | nil => exact Except.ok.inj h ▸ hs
  | cons a members ih =>
    rw [List.foldlM_cons] at h
    obtain ⟨t, ht, h⟩ := bind_eq_ok h
    exact ih (fun s s' a ha => hstep s s' a (List.mem_cons_of_mem _ ha))
      (hstep s t a List.mem_cons_self hs ht) h

/-- Copying the declarations of a base keeps the names apart, since a name that is taken is
refused. -/
theorem wellNamed_extending {base : Schema} (hs : s.WellNamed) (hbase : base.WellNamed)
    (h : s.extending base = .ok s') : s'.WellNamed := by
  unfold extending at h
  obtain ⟨s₁, h₁, h⟩ := bind_eq_ok h
  obtain ⟨s₂, h₂, h⟩ := bind_eq_ok h
  obtain ⟨s₃, h₃, h⟩ := bind_eq_ok h
  -- The four loops reserve each copied name like a declaration of its own
  have w₁ : s₁.WellNamed := by
    refine foldlM_keeps (fun s s' decl _ hs h => ?_) hs h₁
    obtain ⟨⟨⟩, hr, h⟩ := bind_eq_ok h
    exact Except.ok.inj h ▸ (hs.addField hr).addInherited
  have w₂ : s₂.WellNamed := by
    refine foldlM_keeps (fun s s' c _ hs h => ?_) w₁ h₂
    obtain ⟨⟨⟩, hr, h⟩ := bind_eq_ok h
    exact Except.ok.inj h ▸ (hs.addComputed hr).addInherited
  have w₃ : s₃.WellNamed := by
    refine foldlM_keeps (fun s s' c _ hs h => ?_) w₂ h₃
    obtain ⟨⟨⟩, hr, h⟩ := bind_eq_ok h
    exact Except.ok.inj h ▸ (hs.addHandler hr).addInherited
  refine foldlM_keeps (fun s s' k hk hs h => ?_) w₃ h
  obtain ⟨⟨⟩, hr, h⟩ := bind_eq_ok h
  exact Except.ok.inj h ▸ (hs.addChild (hbase.children k hk) hr).addInherited

/-- Every schema that declarations can make is well named. -/
theorem Built.wellNamed (h : s.Built) : s.WellNamed := by
  induction h with
  | @start name s h =>
    unfold Schema.start at h
    split at h
    · -- A schema begins without members, under an identifier
      next hid =>
      obtain rfl := Except.ok.inj h
      exact ⟨by simp [names, KeyMap.keys], by simp [names, KeyMap.keys], hid,
        by simp [Schema.children]⟩
    · cases h
  | @declare s s' decl _ h ih =>
    unfold Schema.declare at h
    obtain ⟨⟨⟩, hr, h⟩ := bind_eq_ok h
    split at h
    · next v _ =>
      -- Coercing the default leaves the name as it is
      have hadd : (s.addField { decl with default := v }).WellNamed := ih.addField hr
      exact Except.ok.inj h ▸ hadd
    · cases h
  | declareComputed _ h ih =>
    obtain ⟨⟨⟩, hr, h⟩ := bind_eq_ok h
    exact Except.ok.inj h ▸ ih.addComputed hr
  | declareHandler _ h ih =>
    obtain ⟨⟨⟩, hr, h⟩ := bind_eq_ok h
    exact Except.ok.inj h ▸ ih.addHandler hr
  | declareChild _ hchild h ih =>
    obtain ⟨⟨⟩, hr, h⟩ := bind_eq_ok h
    -- The child was built as well
    exact Except.ok.inj h ▸ ih.addChild hchild hr
  | extending _ _ h ihs ihb => exact wellNamed_extending ihs ihb h

/-! ### Defaults -/

/-- Every stored field starts with a value of its type. -/
def DefaultsAccepted (s : Schema) : Prop :=
  ∀ decl ∈ s.fields, decl.type.Accepts decl.default

/-- A declared field comes last. -/
theorem fields_addField (s : Schema) (decl : FieldDecl) :
    (s.addField decl).fields = s.fields ++ [decl] := by
  cases s
  rfl

/-- Computed fields leave the stored ones alone. -/
theorem fields_addComputed (s : Schema) (name : String) (e : Expr) :
    (s.addComputed name e).fields = s.fields := by
  cases s
  rfl

/-- So do handlers. -/
theorem fields_addHandler (s : Schema) (name : String) (handler : Handler) :
    (s.addHandler name handler).fields = s.fields := by
  cases s
  rfl

/-- So do containers. -/
theorem fields_addChild (s : Schema) (name : String) (child : Schema) :
    (s.addChild name child).fields = s.fields := by
  cases s
  rfl

/-- So does noting what a base has declared. -/
theorem fields_addInherited (s : Schema) (name : String) :
    (s.addInherited name).fields = s.fields := by
  cases s
  rfl

/-- Whether the defaults fit depends on the stored fields only. -/
theorem DefaultsAccepted.congr (h : s.DefaultsAccepted) (hfields : s'.fields = s.fields) :
    s'.DefaultsAccepted := by
  intro decl hdecl
  rw [hfields] at hdecl
  exact h decl hdecl

/-- A field whose default fits may be added. -/
theorem DefaultsAccepted.addField {decl : FieldDecl} (h : s.DefaultsAccepted)
    (hdecl : decl.type.Accepts decl.default) : (s.addField decl).DefaultsAccepted := by
  intro d hd
  rw [fields_addField] at hd
  rcases List.mem_append.1 hd with hd | hd
  · exact h d hd
  · rw [List.mem_singleton.1 hd]
    exact hdecl

/-- Defaults that fit in the base fit in the schema that extends it, for fields are copied as they
are. -/
theorem defaultsAccepted_extending {base : Schema} (hs : s.DefaultsAccepted)
    (hbase : base.DefaultsAccepted) (h : s.extending base = .ok s') : s'.DefaultsAccepted := by
  unfold extending at h
  obtain ⟨s₁, h₁, h⟩ := bind_eq_ok h
  obtain ⟨s₂, h₂, h⟩ := bind_eq_ok h
  obtain ⟨s₃, h₃, h⟩ := bind_eq_ok h
  -- Only the first loop copies stored fields, with the defaults they have in the base
  have w₁ : s₁.DefaultsAccepted := by
    refine foldlM_keeps (fun s s' decl hdecl hs h => ?_) hs h₁
    obtain ⟨⟨⟩, -, h⟩ := bind_eq_ok h
    exact Except.ok.inj h ▸ (hs.addField (hbase decl hdecl)).congr (fields_addInherited _ _)
  have w₂ : s₂.DefaultsAccepted := by
    refine foldlM_keeps (fun s s' c _ hs h => ?_) w₁ h₂
    obtain ⟨⟨⟩, -, h⟩ := bind_eq_ok h
    exact Except.ok.inj h ▸
      (hs.congr (fields_addComputed _ _ _)).congr (fields_addInherited _ _)
  have w₃ : s₃.DefaultsAccepted := by
    refine foldlM_keeps (fun s s' c _ hs h => ?_) w₂ h₃
    obtain ⟨⟨⟩, -, h⟩ := bind_eq_ok h
    exact Except.ok.inj h ▸
      (hs.congr (fields_addHandler _ _ _)).congr (fields_addInherited _ _)
  refine foldlM_keeps (fun s s' k _ hs h => ?_) w₃ h
  obtain ⟨⟨⟩, -, h⟩ := bind_eq_ok h
  exact Except.ok.inj h ▸ (hs.congr (fields_addChild _ _ _)).congr (fields_addInherited _ _)

/-- Declaring coerces the default, and copying keeps it. -/
theorem Built.accepts_default (h : s.Built) : s.DefaultsAccepted := by
  induction h with
  | @start name s h =>
    unfold Schema.start at h
    -- A schema begins without fields
    split at h
    · obtain rfl := Except.ok.inj h
      exact nofun
    · cases h
  | @declare s s' decl _ h ih =>
    unfold Schema.declare at h
    obtain ⟨⟨⟩, -, h⟩ := bind_eq_ok h
    split at h
    · next v hv =>
      -- The default that is stored is what came out of the coercion
      obtain rfl := Except.ok.inj h
      exact ih.addField (ValueType.accepts_of_coerce hv)
    · cases h
  | declareComputed _ h ih =>
    obtain ⟨⟨⟩, -, h⟩ := bind_eq_ok h
    exact Except.ok.inj h ▸ ih.congr (fields_addComputed _ _ _)
  | declareHandler _ h ih =>
    obtain ⟨⟨⟩, -, h⟩ := bind_eq_ok h
    exact Except.ok.inj h ▸ ih.congr (fields_addHandler _ _ _)
  | declareChild _ _ h ih =>
    obtain ⟨⟨⟩, -, h⟩ := bind_eq_ok h
    exact Except.ok.inj h ▸ ih.congr (fields_addChild _ _ _)
  | extending _ _ h ihs ihb => exact defaultsAccepted_extending ihs ihb h

end Schema

end ReactiveState
