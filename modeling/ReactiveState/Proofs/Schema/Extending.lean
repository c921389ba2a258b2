import ReactiveState.Proofs.Schema.Unmarked
import ReactiveState.Proofs.Tree.Reachable

/-!
# Extending is redeclaring

`Schema.extending` copies the members of a base.  It does what declaring them one by one does
(`redeclaring`), and marks their names besides:

* `extending_eq_map_redeclaring` is the equation, errors included.  The defaults of a base were
  coerced when they were declared, so coercing them again keeps them,
* `Exchanged.unmarked_eq`: the schemas that are built on from the two results are equal but for the
  marks, at whatever depth the results are used, so their trees do the same,
* `readsOwn`: at a container of a compiled tree, what was copied from a base reads the container's
  own fields.
-/

namespace ReactiveState

namespace Schema

/-- Declares the members of a base schema one by one, in the order stored fields, computed fields,
handlers and children. -/
def redeclaring (s base : Schema) : Building := do
  let s ← base.fields.foldlM declare s
  let s ← base.computed.foldlM (fun s c => s.declareComputed c.1 c.2) s
  let s ← base.handlers.foldlM (fun s h => s.declareHandler h.1 h.2) s
  base.children.foldlM (fun s k => s.declareChild k.1 k.2) s

/-- The schema with more names marked as copied. -/
def marking (copied : List String) : Schema → Schema
  | mk n fs cs hs ks is => mk n fs cs hs ks (is ++ copied)

variable {s t s₁ s₂ base : Schema}

theorem marking_nil (s : Schema) : s.marking [] = s := by
  cases s
  simp [marking]

theorem addInherited_marking (s : Schema) (copied : List String) (name : String) :
    (s.marking copied).addInherited name = s.marking (copied ++ [name]) := by
  cases s
  simp [marking, addInherited]

theorem unmarked_marking (s : Schema) (copied : List String) :
    (s.marking copied).unmarked = s.unmarked := by
  cases s
  rfl

/-- Marks make no difference to which names are taken. -/
theorem reserve_marking (s : Schema) (copied : List String) (name : String) :
    (s.marking copied).reserve name = s.reserve name := by
  rw [← reserve_unmarked, unmarked_marking, reserve_unmarked]

/-! ### One declaration -/

/-- A default that is coerced already is declared as it is. -/
theorem declare_eq_of_accepts {decl : FieldDecl} (h : decl.type.Accepts decl.default)
    (s : Schema) :
    s.declare decl = do
      s.reserve decl.name
      return s.addField decl := by
  rw [declare, show decl.type.coerce decl.default = some decl.default from h]

/-- Copying a member is declaring it and marking its name. -/
theorem copy_member (add : Schema → Schema) (s : Schema) (copied : List String) (name : String)
    (hadd : add (s.marking copied) = (add s).marking copied) :
    (do
      (s.marking copied).reserve name
      return (add (s.marking copied)).addInherited name : Building) =
      marking (copied ++ [name]) <$> (do
        s.reserve name
        return add s) := by
  -- Reserving a name does not look at marks, and the new mark comes behind the others
  rw [reserve_marking, map_bind, hadd, addInherited_marking]
  exact bind_congr fun _ => rfl

/-! ### All declarations -/

/-- A loop that copies members, where each copy is a declaration and a mark. -/
theorem foldlM_marking {α : Type _} (copy declare : Schema → α → Building) (name : α → String)
    {members : List α} (hcopy : ∀ a ∈ members, ∀ (s : Schema) (copied : List String),
      copy (s.marking copied) a = marking (copied ++ [name a]) <$> declare s a)
    (s : Schema) (copied : List String) :
    members.foldlM copy (s.marking copied) =
      marking (copied ++ members.map name) <$> members.foldlM declare s := by
  induction members generalizing s copied with
  | nil => simp
  | cons a members ih =>
    obtain ⟨ha, hmembers⟩ := List.forall_mem_cons.1 hcopy
    -- The first copy declares and marks; the other members follow by induction
    rw [List.foldlM_cons, List.foldlM_cons, ha, map_bind, bind_map_left]
    refine bind_congr fun s' => ?_
    rw [ih hmembers, List.append_assoc, List.map_cons, List.singleton_append]

theorem names_eq (s : Schema) : s.names = s.fields.map (·.name) ++
    (s.computed.map (·.1) ++ (s.handlers.map (·.1) ++ s.children.map (·.1))) := by
  cases s
  rfl

/-- Extending gives what redeclaring gives, the same error or the same schema with the copied names
marked. -/
theorem extending_eq_map_redeclaring (hbase : base.Built) (s : Schema) :
    s.extending base = marking base.names <$> s.redeclaring base := by
  rw [extending, redeclaring]
  -- The marks that one loop leaves are there when the next one starts
  nth_rewrite 1 [← s.marking_nil]
  rw [foldlM_marking _ Schema.declare (·.name) fun decl hdecl s copied => ?fields, bind_map_left,
    map_bind]
  · refine bind_congr fun s => ?_
    rw [foldlM_marking _ (fun s c => s.declareComputed c.1 c.2) (·.1) fun c _ s copied =>
      copy_member (addComputed · c.1 c.2) s copied c.1 (by cases s; rfl), bind_map_left, map_bind]
    refine bind_congr fun s => ?_
    rw [foldlM_marking _ (fun s h => s.declareHandler h.1 h.2) (·.1) fun h _ s copied =>
      copy_member (addHandler · h.1 h.2) s copied h.1 (by cases s; rfl), bind_map_left, map_bind]
    refine bind_congr fun s => ?_
    rw [foldlM_marking _ (fun s k => s.declareChild k.1 k.2) (·.1) fun k _ s copied =>
      copy_member (addChild · k.1 k.2) s copied k.1 (by cases s; rfl)]
    simp only [names_eq, List.append_assoc, List.nil_append]
  case fields =>
    -- The default of a built field fits, so declaring it does not change it
    rw [declare_eq_of_accepts (hbase.accepts_default decl hdecl)]
    exact copy_member (addField · decl) s copied decl.name (by cases s; rfl)

/-! ### The members -/

/-- A loop that copies members of one kind puts them behind those of the kind that are there. -/
theorem foldlM_appends {α : Type _} {add : Schema → α → Schema} {name : α → String}
    (build : List α → List String → Schema)
    (hadd : ∀ as marks a, (add (build as marks) a).addInherited (name a) =
      build (as ++ [a]) (marks ++ [name a])) {members as : List α} {marks : List String}
    (h : members.foldlM (fun s a => (do
      s.reserve (name a)
      return (add s a).addInherited (name a) : Building)) (build as marks) = .ok t) :
    t = build (as ++ members) (marks ++ members.map name) := by
  induction members generalizing as marks with
  | nil => simpa using (Except.ok.inj h).symm
  | cons a members ih =>
    rw [List.foldlM_cons] at h
    obtain ⟨s', hs', h⟩ := bind_eq_ok h
    -- The name was free, or the loop would have failed
    obtain ⟨⟨⟩, -, hs'⟩ := bind_eq_ok hs'
    rw [← Except.ok.inj hs', hadd] at h
    rw [ih h]
    simp

/-- Extending puts the members of the base behind those that are there, and marks their names. -/
theorem eq_of_extending (h : s.extending base = .ok t) :
    t = mk s.name (s.fields ++ base.fields) (s.computed ++ base.computed)
      (s.handlers ++ base.handlers) (s.children ++ base.children) (s.inherited ++ base.names) := by
  obtain ⟨n, fs, cs, hs, ks, is⟩ := s
  rw [extending] at h
  -- One loop for each kind of members
  obtain ⟨s₁, h₁, h⟩ := bind_eq_ok h
  obtain ⟨s₂, h₂, h⟩ := bind_eq_ok h
  obtain ⟨s₃, h₃, h⟩ := bind_eq_ok h
  -- What the loops before it have built stays around what a loop builds
  obtain rfl := foldlM_appends (fun fs is => mk n fs cs hs ks is) (fun _ _ _ => rfl) h₁
  obtain rfl := foldlM_appends (fun cs is => mk n _ cs hs ks is) (fun _ _ _ => rfl) h₂
  obtain rfl := foldlM_appends (fun hs is => mk n _ _ hs ks is) (fun _ _ _ => rfl) h₃
  obtain rfl := foldlM_appends (fun ks is => mk n _ _ _ ks is) (fun _ _ _ => rfl) h
  simp only [names_eq, List.append_assoc]
  rfl

/-! ### Building on -/

/-- Two schemas that differ at most in that the second is built from `s₂` where the first is built
from `s₁`: both are declared further in the same way, be it as they are, as children or as bases. -/
inductive Exchanged (s₁ s₂ : Schema) : Schema → Schema → Prop where
  | exchange : Exchanged s₁ s₂ s₁ s₂
  | keep (s : Schema) : Exchanged s₁ s₂ s s
  | declare {s s' t t' : Schema} {decl : FieldDecl} (h : Exchanged s₁ s₂ s t)
    (hs : s.declare decl = .ok s') (ht : t.declare decl = .ok t') : Exchanged s₁ s₂ s' t'
  | declareComputed {s s' t t' : Schema} {name : String} {e : Expr} (h : Exchanged s₁ s₂ s t)
    (hs : s.declareComputed name e = .ok s') (ht : t.declareComputed name e = .ok t') :
    Exchanged s₁ s₂ s' t'
  | declareHandler {s s' t t' : Schema} {name : String} {handler : Handler}
    (h : Exchanged s₁ s₂ s t) (hs : s.declareHandler name handler = .ok s')
    (ht : t.declareHandler name handler = .ok t') : Exchanged s₁ s₂ s' t'
  | declareChild {s s' t t' k l : Schema} {name : String} (h : Exchanged s₁ s₂ s t)
    (hchild : Exchanged s₁ s₂ k l) (hs : s.declareChild name k = .ok s')
    (ht : t.declareChild name l = .ok t') : Exchanged s₁ s₂ s' t'
  | extending {s s' t t' b c : Schema} (h : Exchanged s₁ s₂ s t) (hbase : Exchanged s₁ s₂ b c)
    (hs : s.extending b = .ok s') (ht : t.extending c = .ok t') : Exchanged s₁ s₂ s' t'

/-- Steps that do not look at marks, one after another. -/
theorem bind_unmarked_congr {x y : Building} {f g : Schema → Building}
    (hxy : unmarked <$> x = unmarked <$> y)
    (hfg : ∀ s t, s.unmarked = t.unmarked → unmarked <$> f s = unmarked <$> g t) :
    unmarked <$> (x >>= f) = unmarked <$> (y >>= g) := by
  cases x <;> cases y
  · exact congrArg Except.error (Except.error.inj hxy)
  · cases hxy
  · cases hxy
  · exact hfg _ _ (Except.ok.inj hxy)

/-- A loop of declarations that do not look at marks, over members that are equal but for marks. -/
theorem foldlM_unmarked_congr {α β : Type _} {f : Schema → α → Building} (view : α → β)
    (hf : ∀ (s t : Schema) (a b : α), s.unmarked = t.unmarked → view a = view b →
      unmarked <$> f s a = unmarked <$> f t b)
    {as bs : List α} (hmembers : as.map view = bs.map view) (s t : Schema)
    (h : s.unmarked = t.unmarked) :
    unmarked <$> as.foldlM f s = unmarked <$> bs.foldlM f t := by
  induction as generalizing bs s t with
  | nil =>
    obtain rfl := List.map_eq_nil_iff.1 hmembers.symm
    exact congrArg Except.ok h
  | cons a as ih =>
    -- The other list has a member in the same place
    obtain ⟨b, bs, rfl, hview, hrest⟩ := List.map_eq_cons_iff.1 hmembers.symm
    rw [List.foldlM_cons, List.foldlM_cons]
    exact bind_unmarked_congr (hf s t a b h hview.symm) fun s t => ih hrest.symm s t

/-- Copying a member does not look at marks, if putting it in does not. -/
theorem copy_unmarked_congr (h : s.unmarked = t.unmarked) (name : String) {s' t' : Schema}
    (hadd : s'.unmarked = t'.unmarked) :
    unmarked <$> (do
      s.reserve name
      return s'.addInherited name : Building) = unmarked <$> (do
      t.reserve name
      return t'.addInherited name) := by
  rw [← s.reserve_unmarked, h, t.reserve_unmarked, map_bind, map_bind]
  refine bind_congr fun _ => congrArg Except.ok ?_
  rw [addInherited_unmarked, addInherited_unmarked, hadd]

/-- Extending does not look at marks, neither of the schema nor of the base. -/
theorem extending_unmarked_congr {base' : Schema} (h : s.unmarked = t.unmarked)
    (hbase : base.unmarked = base'.unmarked) :
    unmarked <$> s.extending base = unmarked <$> t.extending base' := by
  -- Stored fields, computed fields and handlers have no marks in them
  have hfields : base.fields = base'.fields := by
    rw [← base.fields_unmarked, hbase, base'.fields_unmarked]
  have hcomputed : base.computed = base'.computed := by
    rw [← base.computed_unmarked, hbase, base'.computed_unmarked]
  have hhandlers : base.handlers = base'.handlers := by
    rw [← base.handlers_unmarked, hbase, base'.handlers_unmarked]
  have hchildren := congrArg children hbase
  rw [children_unmarked, children_unmarked] at hchildren
  rw [extending, extending, hfields, hcomputed, hhandlers]
  refine bind_unmarked_congr (foldlM_unmarked_congr id ?_ rfl s t h) fun s t h => ?_
  · rintro s t d d' h (rfl : d = d')
    exact copy_unmarked_congr h d.name (by rw [← addField_unmarked, h, addField_unmarked])
  refine bind_unmarked_congr (foldlM_unmarked_congr id ?_ rfl s t h) fun s t h => ?_
  · rintro s t c c' h (rfl : c = c')
    exact copy_unmarked_congr h c.1 (by rw [← addComputed_unmarked, h, addComputed_unmarked])
  refine bind_unmarked_congr (foldlM_unmarked_congr id ?_ rfl s t h) fun s t h => ?_
  · rintro s t c c' h (rfl : c = c')
    exact copy_unmarked_congr h c.1 (by rw [← addHandler_unmarked, h, addHandler_unmarked])
  -- The children of the two bases are equal but for marks
  refine foldlM_unmarked_congr (fun k => (k.1, k.2.unmarked)) ?_ hchildren s t h
  rintro s t ⟨n, k⟩ ⟨n', k'⟩ h hk
  obtain ⟨rfl, hk⟩ := Prod.mk.inj hk
  exact copy_unmarked_congr h n (by rw [← addChild_unmarked, h, hk, addChild_unmarked])

/-- Where schemas that are equal but for marks are exchanged, what is built is so, too. -/
theorem Exchanged.unmarked_eq {root₁ root₂ : Schema} (h : Exchanged s₁ s₂ root₁ root₂)
    (hunmarked : s₁.unmarked = s₂.unmarked) : root₁.unmarked = root₂.unmarked := by
  induction h with
  | exchange => exact hunmarked
  | keep s => rfl
  | @declare s s' t t' decl _ hs ht ih =>
    -- Both declarations succeed and look at no marks
    have heq := s.declare_unmarked decl
    rw [ih, declare_unmarked, hs, ht] at heq
    exact (Except.ok.inj heq).symm
  | @declareComputed s s' t t' name e _ hs ht ih =>
    have heq := s.declareComputed_unmarked name e
    rw [ih, declareComputed_unmarked, hs, ht] at heq
    exact (Except.ok.inj heq).symm
  | @declareHandler s s' t t' name handler _ hs ht ih =>
    have heq := s.declareHandler_unmarked name handler
    rw [ih, declareHandler_unmarked, hs, ht] at heq
    exact (Except.ok.inj heq).symm
  | @declareChild s s' t t' k l name _ _ hs ht ih ihchild =>
    have heq := s.declareChild_unmarked name k
    rw [ih, ihchild, declareChild_unmarked, hs, ht] at heq
    exact (Except.ok.inj heq).symm
  | extending _ _ hs ht ih ihbase =>
    have heq := extending_unmarked_congr ih ihbase
    rw [hs, ht] at heq
    exact Except.ok.inj heq

/-! ### Reading -/

/-- At this container every field of the base is a field of the container's own, and every computed
field of the base reads the container's own fields where it refers to relative keys. -/
structure ReadsOwn (l : Layout) (c : ContainerInfo) (base : Schema) : Prop where
  field : ∀ decl ∈ base.fields, l.field? ⟨c.path, decl.name⟩ = some decl
  computed : ∀ p ∈ base.computed, l.computed? ⟨c.path, p.1⟩ = some (p.2.rebased c.path)
  /-- Its expression, with the field of this container for each relative key. -/
  get : ∀ t, Tree.Reachable l t → ∀ p ∈ base.computed,
    ((Tree.get l ⟨c.path, p.1⟩).run t).1 =
      (p.2.evalWith fun k => t.scratch l (k.rebased c.path)).mapError (.eval ⟨c.path, p.1⟩)

/-- The declarations of a base that a container has are read under the container's own path. -/
theorem readsOwn {root : Schema} {l : Layout} {c : ContainerInfo} (hroot : root.Built)
    (hl : Layout.compile root = .ok l) (hc : c ∈ l.containers)
    (hfields : base.fields ⊆ c.schema.fields) (hcomputed : base.computed ⊆ c.schema.computed) :
    ReadsOwn l c base := by
  have hsound := Layout.compile_sound hroot hl
  obtain ⟨hpaths, hw⟩ := Layout.containers_of_compile hroot hl
  have hfind : l.container? c.path = some c := Layout.findContainer?_of_mem hpaths hc
  -- The copied expressions refer to fields of the container itself
  have hexpr : ∀ p ∈ base.computed, l.computed? ⟨c.path, p.1⟩ = some (p.2.rebased c.path) := by
    intro p hp
    rw [hsound.computed?_eq, hfind, Option.bind_some, Schema.computed?,
      (KeyMap.find?_eq_some_iff (hw c hc).nodup_computed).2 (hcomputed hp)]
    rfl
  refine ⟨fun decl hdecl => ?_, hexpr, fun t ht p hp => ?_⟩
  · rw [Layout.field?, Layout.findField?, Layout.findContainer?_of_mem hpaths hc, Option.bind_some]
    exact (hw c hc).field?_of_mem (hfields hdecl)
  · -- Reading a copied field evaluates the copied expression, its relative keys under this path
    have hk : l.isComputed ⟨c.path, p.1⟩ = true := by rw [Layout.isComputed, hexpr p hp]; rfl
    obtain ⟨t', hrun, -⟩ := Tree.get_run hsound (ht.coherent hsound) (.inr hk)
    rw [hrun, Tree.scratch_computed hsound ((ht.coherent hsound).stored?_eq_none hsound hk)
      (hexpr p hp)]
    exact congrArg (Except.mapError _) (Expr.eval_rebased c.path (t.scratch l) p.2)

/-! ### The two ways compared -/

/-- Extending `s` with the base is declaring the members of the base one by one. -/
structure Redeclares (s base : Schema) : Prop where
  /-- Both succeed, -/
  ok_iff : (∃ s₁, s.extending base = .ok s₁) ↔ ∃ s₂, s.redeclaring base = .ok s₂
  /-- or both fail with the same error. -/
  error_iff : ∀ e, s.extending base = .error e ↔ s.redeclaring base = .error e
  /-- Both put the members of the base behind those of `s`, in the same order and unchanged, and
  only the marks are different. -/
  members : ∀ s₁ s₂, s.extending base = .ok s₁ → s.redeclaring base = .ok s₂ →
    s₂ = mk s.name (s.fields ++ base.fields) (s.computed ++ base.computed)
      (s.handlers ++ base.handlers) (s.children ++ base.children) s.inherited ∧
    s₁ = s₂.marking base.names
  /-- Roots that are built on from the one and from the other have trees that do the same. -/
  trees : ∀ s₁ s₂, s.extending base = .ok s₁ → s.redeclaring base = .ok s₂ →
    ∀ root₁ root₂, Exchanged s₁ s₂ root₁ root₂ → CompileAlike root₁ root₂
  /-- A container that declares what the extended schema declares, and maybe more, has copies of its
  own of what is in the base. -/
  own : ∀ s₁, s.extending base = .ok s₁ → ∀ (root : Schema) (l : Layout), root.Built →
    Layout.compile root = .ok l → ∀ c ∈ l.containers, s₁.fields ⊆ c.schema.fields →
      s₁.computed ⊆ c.schema.computed → ReadsOwn l c base

/-- Extending a schema is redeclaring the base in it. -/
theorem Built.redeclares (hbase : base.Built) (s : Schema) : Redeclares s base := by
  have heq := extending_eq_map_redeclaring hbase s
  refine ⟨?_, fun e => ?_, fun s₁ s₂ h₁ h₂ => ?_, fun s₁ s₂ h₁ h₂ root₁ root₂ hroots => ?_,
    fun s₁ h₁ root l hroot hl c hc hfields hcomputed => ?_⟩
  · rw [heq]
    -- The same success and the same error, as marking cannot fail
    cases s.redeclaring base <;> simp [Functor.map, Except.map]
  · rw [heq]
    cases s.redeclaring base <;> simp [Functor.map, Except.map]
  · rw [heq, h₂] at h₁
    have hmembers := eq_of_extending (heq.trans (congrArg _ h₂))
    obtain ⟨n, fs, cs, hs, ks, is⟩ := s₂
    -- The marks of the base stand behind those that were there
    obtain ⟨rfl, rfl, rfl, rfl, rfl, his⟩ := Schema.mk.inj hmembers
    obtain rfl := List.append_cancel_right his
    exact ⟨rfl, (Except.ok.inj h₁).symm⟩
  · -- Marks are not looked at when a schema is compiled
    refine compileAlike_of_unmarked_eq (hroots.unmarked_eq ?_)
    rw [heq, h₂] at h₁
    rw [← Except.ok.inj h₁, unmarked_marking]
  · obtain rfl := eq_of_extending h₁
    exact readsOwn hroot hl hc (fun d hd => hfields (List.mem_append_right _ hd))
      fun p hp => hcomputed (List.mem_append_right _ hp)

/-- A page with one field. -/
def page (field : String) : Schema := .mk "page" [.ofType field .str] [] [] [] []

/-- A page takes over the counter, whose computed fields then read the count of the page. -/
theorem redeclares_page :
    counter.Built ∧ Redeclares (page "title") counter ∧
      ∃ s₁ s₂, (page "title").extending counter = .ok s₁ ∧
        (page "title").redeclaring counter = .ok s₂ ∧ s₁.isInherited "double" = true ∧
        s₂.isInherited "double" = false ∧ CompileAlike s₁ s₂ ∧
        (Layout.compile s₁).toOption.bind (·.computed? ⟨"page", "double"⟩) =
          some (.binary .mul (.field ⟨"page", "count"⟩ .int) (.literal (.int 2)) .int) := by
  have hpage := built_counter.redeclares (page "title")
  exact ⟨built_counter, hpage, _, _, rfl, rfl, rfl, rfl, hpage.trees _ _ rfl rfl _ _ .exchange, rfl⟩

/-- Both ways stop at a name that is taken. -/
example :
    (page "double").extending counter = .error (.schemaConflict "page" "double") ∧
      (page "double").redeclaring counter = .error (.schemaConflict "page" "double") :=
  ⟨rfl, rfl⟩

end Schema

end ReactiveState
