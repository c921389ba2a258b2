import ReactiveState.Proofs.Flush.Rounds
import ReactiveState.Proofs.Typing.Partial

/-!
# Typed trees

A stored field always has a value of its declared type: its default is one, and `set` coerces what
it is given (`Reachable.storedTyped`).  From there the types go up through the computed fields, each
of which reads only fields that rank below it (`scratch_admits`).

Compiling accepts two kinds of expressions that break this: a reference may read a field as a more
specific type than the one it is declared with, and joined lists have the item type of the one
operand whose items are known.  `ReadsAsDeclared` and `Expr.joinsUnlike` rule them out.
-/

namespace ReactiveState

namespace Layout

/-- Every reference reads a field as the type it is declared with or a less specific one. -/
def ReadsAsDeclared (l : Layout) : Prop :=
  ∀ p ∈ l.computed, ∀ r ∈ p.2.references,
    ∀ t ∈ declaredType? l.containers l.computed r.1, t.refines r.2 = true

instance (l : Layout) : Decidable l.ReadsAsDeclared :=
  inferInstanceAs (Decidable (∀ p ∈ l.computed, _))

/-- A field that is there has a type. -/
theorem exists_declaredType? {l : Layout} {k : FieldKey}
    (h : (l.field? k).isSome = true ∨ l.isComputed k = true) :
    ∃ t, declaredType? l.containers l.computed k = some t := by
  rw [isComputed, computed?] at h
  unfold declaredType?
  -- A computed field has the type of its expression; any other one is stored
  cases he : KeyMap.find? k l.computed with
  | some e => exact ⟨e.type, rfl⟩
  | none =>
    rw [he] at h
    obtain ⟨decl, hdecl⟩ := Option.isSome_iff_exists.1 (h.resolve_right Bool.false_ne_true)
    rw [field?] at hdecl
    exact ⟨decl.type, by rw [hdecl]; rfl⟩

/-- Every stored field of a compiled layout starts with a value of its type. -/
theorem accepts_default {root : Schema} {l : Layout} (hroot : root.Built)
    (h : compile root = .ok l) {k : FieldKey} {decl : FieldDecl} (hk : l.field? k = some decl) :
    decl.type.Accepts decl.default := by
  obtain ⟨hcs, -⟩ := compile_cases h
  obtain ⟨c, hc, hdecl⟩ := Option.bind_eq_some_iff.1 hk
  have hmem : c ∈ root.containersAt root.name none := hcs ▸ mem_of_findContainer? hc
  have hbuilt := Schema.built_of_mem_containersAt _ _ root hroot c hmem
  exact hbuilt.accepts_default decl (List.mem_of_find?_eq_some hdecl)

end Layout

namespace Tree

variable {l : Layout} {t t' : Tree} {k : FieldKey} {vs : List (FieldKey × Value)}

/-- Every stored field has a value of its type. -/
def StoredTyped (l : Layout) (t : Tree) : Prop :=
  ∀ k decl v, l.field? k = some decl → t.stored? k = some v → decl.type.Accepts v

/-! ### Stored values -/

/-- Whether the stored values fit depends on these values only. -/
theorem StoredTyped.of_values_eq (h : StoredTyped l t) (hvalues : t'.values = t.values) :
    StoredTyped l t' := by
  intro k decl v hk hv
  rw [stored?, hvalues] at hv
  exact h k decl v hk hv

/-- Assigning a value that fits keeps all of them fitting. -/
theorem StoredTyped.assign (h : StoredTyped l t) {decl : FieldDecl} {w : Value}
    (hk : l.field? k = some decl) (hw : decl.type.Accepts w) : StoredTyped l (t.assign l k w) := by
  intro m decl' v hm hv
  rw [stored?_assign] at hv
  split at hv
  · next heq =>
    -- The field has the declaration that took the value
    rw [heq, hk] at hm
    obtain rfl := Option.some.inj hm
    obtain ⟨_, _, rfl⟩ := Option.map_eq_some_iff.1 hv
    exact hw
  · exact h m decl' v hm hv

/-- What is assigned was coerced before. -/
theorem StoredTyped.set (h : StoredTyped l t) (k : FieldKey) (v : Value) :
    StoredTyped l ((Tree.set l k v).run t).2 := by
  rcases set_cases l k v t with ⟨e, hrun⟩ | ⟨decl, w, hk, hcoerce, hrun⟩
  · rw [hrun]
    exact h
  · rw [hrun]
    exact h.assign hk (ValueType.accepts_of_coerce hcoerce)

section Keeps

open TreeM

variable (hl : l.Sound)

include hl

/-- Reading a field leaves the stored values alone. -/
theorem keeps_values_getField (k : FieldKey) :
    Keeps (fun t => t.Coherent l ∧ t.values = vs) (get l k) := by
  intro t ⟨ht, hvalues⟩
  obtain ⟨hbare, ht'⟩ := get_keeps hl ht k
  exact ⟨ht', (values_of_bare_eq hbare).trans hvalues⟩

/-- So does collecting values for the client. -/
theorem keeps_values_collect (ks : List FieldKey) (delta : Delta) :
    Keeps (fun t => t.Coherent l ∧ t.values = vs) (collect l ks delta) := by
  induction ks generalizing delta with
  | nil => exact keeps_pure delta
  | cons k ks ih =>
    refine (keeps_values_getField hl k).bind fun v => ?_
    split
    · -- Noting a value as told leaves the stored ones alone
      have hsync : Keeps (fun t => t.Coherent l ∧ t.values = vs) (sync k v) :=
        keeps_modify fun t ht => ⟨ht.1.sync v, ht.2⟩
      exact hsync.bind fun _ => ih _
    · exact (keeps_pure ()).bind fun _ => ih _

/-- A snapshot changes no stored value. -/
theorem values_snapshot (ht : t.Coherent l) : ((snapshot l).run t).2.values = t.values := by
  have hkeep : Keeps (fun s => s.Coherent l ∧ s.values = t.values) (snapshot l) :=
    (keeps_values_collect hl _ _).bind fun delta =>
      (keeps_modify fun s hs => ⟨hs.1.marks s.dirty [], hs.2⟩).bind fun _ => keeps_pure delta
  exact (hkeep t ⟨ht, rfl⟩).2

/-- So does a flush. -/
theorem values_flush (ht : t.Coherent l) : (flush l t).2.values = t.values := by
  rw [flush_snd]
  exact (recorded_settled hl ht).refreshed.values

/-- In every reachable tree the stored values fit their types: defaults fit, and what is assigned
was coerced. -/
theorem Reachable.storedTyped
    (hdefault : ∀ k decl, l.field? k = some decl → decl.type.Accepts decl.default)
    (ht : Reachable l t) : StoredTyped l t := by
  induction ht with
  | start h =>
    -- Starting only evaluates, so the stored values are the defaults
    have hstart : StoredTyped l (instantiate l) := by
      intro k decl v hk hv
      rw [stored?_instantiate hl.nodup_paths, hk] at hv
      obtain rfl := Option.some.inj hv
      exact hdefault k decl hk
    exact hstart.of_values_eq (values_start hl h)
  | get ht k ih => exact ih.of_values_eq (values_of_bare_eq (get_keeps hl (ht.coherent hl) k).1)
  | set _ k v ih => exact ih.set k v
  | modifyField ht k f ih =>
    -- It is a reading, which stores nothing, and then an assignment
    obtain ⟨t₁, hbare, -, ⟨e, hrun⟩ | ⟨v, hrun⟩⟩ :=
      modifyField_cases hl (ht.coherent hl) k f
    · rw [hrun]
      exact ih.of_values_eq (values_of_bare_eq hbare)
    · rw [hrun]
      exact (ih.of_values_eq (values_of_bare_eq hbare)).set k (f v)
  | flush ht ih => exact ih.of_values_eq (values_flush hl (ht.coherent hl))
  | snapshot ht ih => exact ih.of_values_eq (values_snapshot hl (ht.coherent hl))

end Keeps

/-! ### Computed values -/

/-- Every field has values of its declared type from scratch, by induction on the rank: what a
field reads ranks below it, and is read as its type or a less specific one. -/
theorem scratch_admits (hl : l.Sound) (ht : t.Coherent l) (hstored : StoredTyped l t)
    (hexprs : ∀ p ∈ l.computed, p.2.WellTyped)
    (hannotates : ∀ p ∈ l.computed, ∀ sub ∈ p.2.subexpressions, sub.annotates = false)
    (hjoin : ∀ p ∈ l.computed, ∀ sub ∈ p.2.subexpressions, sub.joinsUnlike = false)
    (hreads : l.ReadsAsDeclared) {type : ValueType}
    (hk : Layout.declaredType? l.containers l.computed k = some type) :
    type.Admits (t.scratch l k) := by
  induction hrank : l.rank k using Nat.strongRecOn generalizing k type with
  | ind n ih =>
    unfold Layout.declaredType? at hk
    split at hk
    · next e he =>
      -- A computed field has the type of its expression
      obtain rfl := Option.some.inj hk
      have hcomputed : l.isComputed k = true := by
        rw [Layout.isComputed, Layout.computed?, he]
        rfl
      have hmem := KeyMap.mem_of_find? he
      rw [scratch_computed hl (ht.stored?_eq_none hl hcomputed) he]
      refine (hexprs _ hmem).eval_admits (hannotates _ hmem) (hjoin _ hmem) fun d u hd => ?_
      -- The field that is read is there, and so has a type
      have hread : l.Reads k d := ⟨e, he, Expr.mem_dependencies_of_mem_references hd⟩
      obtain ⟨declared, hdeclared⟩ := Layout.exists_declaredType? (hl.reads_known k d hread)
      -- What is read has its declared type, and so every less specific one
      have hadmits := ih (l.rank d) (hrank ▸ hl.rank_lt hread) hdeclared rfl
      have hrefines := hreads _ hmem _ hd declared hdeclared
      exact fun v hv => (hadmits v hv).of_refined hrefines
    · -- A stored field has its value from scratch
      obtain ⟨decl, hdecl, rfl⟩ := Option.map_eq_some_iff.1 hk
      have hsome : (t.stored? k).isSome = true := by
        rw [ht.stored, Layout.field?, hdecl]
        rfl
      obtain ⟨v, hv⟩ := Option.isSome_iff_exists.1 hsome
      rw [scratch_stored hl hv]
      exact ValueType.admits_ok (hstored k decl v hdecl hv)

/-- In every reachable tree a computed field has no value but of the type of its expression, if the
expressions annotate nothing, read every field as its declared type or a less specific one, and join
no unlike lists. -/
theorem Reachable.computed_accepts {root : Schema} (hroot : root.Built)
    (hl : Layout.compile root = .ok l) (ht : Reachable l t)
    (hexprs : ∀ p ∈ l.computed, p.2.Built)
    (hannotates : ∀ p ∈ l.computed, ∀ sub ∈ p.2.subexpressions, sub.annotates = false)
    (hjoin : ∀ p ∈ l.computed, ∀ sub ∈ p.2.subexpressions, sub.joinsUnlike = false)
    (hreads : l.ReadsAsDeclared) {e : Expr} (hk : l.computed? k = some e) {v : Value}
    (hv : ((Tree.get l k).run t).1 = .ok v) : e.type.Accepts v := by
  have hsound := Layout.compile_sound hroot hl
  have hcoherent := ht.coherent hsound
  have hstored := ht.storedTyped hsound fun k decl => Layout.accepts_default hroot hl
  have hcomputed : l.isComputed k = true := by rw [Layout.isComputed, hk]; rfl
  obtain ⟨t', hrun, -⟩ := get_run hsound hcoherent (.inr hcomputed)
  rw [hrun] at hv
  -- A value that is read is the one from scratch
  have hscratch : t.scratch l k = .ok v := by
    cases h : t.scratch l k with
    | error err =>
      rw [h] at hv
      cases hv
    | ok w =>
      rw [h] at hv
      exact congrArg Except.ok (Except.ok.inj hv)
  -- The type of the expression is the one that is declared
  have htype : Layout.declaredType? l.containers l.computed k = some e.type := by
    rw [Layout.computed?] at hk
    rw [Layout.declaredType?, hk]
  have hwell : ∀ p ∈ l.computed, p.2.WellTyped := fun p hp => (hexprs p hp).wellTyped
  exact scratch_admits hsound hcoherent hstored hwell hannotates hjoin hreads htype v hscratch

end Tree

/-! ### Samples -/

namespace Schema

/-- Some numbers, the numbers joined with the empty list, and how many these are. -/
def numbers : Schema :=
  .mk "app" [⟨"items", .sequence .int, .list [.int 3], false, none⟩]
    [("joined", .binary .add (.field (.relative "items") (.sequence .int)) (.literal (.list []))
        (.sequence .int)),
      ("count", .unary .length (.field (.relative "joined") (.sequence .unknown)) .int)]
    [] [] []

/-- The schema can be built. -/
theorem built_numbers : numbers.Built := by
  have hstart : Built (.mk "app" [] [] [] [] []) := .start (show start "app" = _ from rfl)
  have hitems := hstart.declare
    (show declare _ ⟨"items", .sequence .int, .list [.int 3], false, none⟩ = _ from rfl)
  have hjoined := hitems.declareComputed (show declareComputed _ "joined"
    (.binary .add (.field (.relative "items") (.sequence .int)) (.literal (.list []))
      (.sequence .int)) = _ from rfl)
  exact hjoined.declareComputed (show declareComputed _ "count"
    (.unary .length (.field (.relative "joined") (.sequence .unknown)) .int) = _ from rfl)

/-- Two fields of which little is known: a value that is read as an integer, and a list that is
joined with one of integers. -/
def misread : Schema :=
  .mk "app" [⟨"x", .unknown, .str "a", false, none⟩,
      ⟨"xs", .sequence .unknown, .list [.str "a"], false, none⟩]
    [("y", .field (.relative "x") .int),
      ("ys", .binary .add (.field (.relative "xs") (.sequence .unknown))
        (.literal (.list [.int 1])) (.sequence .int))]
    [] [] []

/-- The schema can be built. -/
theorem built_misread : misread.Built := by
  have hstart : Built (.mk "app" [] [] [] [] []) := .start (show start "app" = _ from rfl)
  have hx := hstart.declare (show declare _ ⟨"x", .unknown, .str "a", false, none⟩ = _ from rfl)
  have hxs := hx.declare
    (show declare _ ⟨"xs", .sequence .unknown, .list [.str "a"], false, none⟩ = _ from rfl)
  have hy := hxs.declareComputed
    (show declareComputed _ "y" (.field (.relative "x") .int) = _ from rfl)
  exact hy.declareComputed (show declareComputed _ "ys"
    (.binary .add (.field (.relative "xs") (.sequence .unknown)) (.literal (.list [.int 1]))
      (.sequence .int)) = _ from rfl)

end Schema

/-- The layout of the numbers. -/
def Layout.numbers : Layout := (Layout.compile Schema.numbers).toOption.get rfl

/-- It compiles to the layout. -/
theorem Layout.compile_numbers : Layout.compile Schema.numbers = .ok Layout.numbers := rfl

/-- The layout of the fields that are read as more than is known of them. -/
def Layout.misread : Layout := (Layout.compile Schema.misread).toOption.get rfl

/-- It compiles to the layout. -/
theorem Layout.compile_misread : Layout.compile Schema.misread = .ok Layout.misread := rfl

namespace Tree

/-- The joined numbers, after other numbers were set, are integers. -/
theorem computed_accepts_numbers :
    let t := ((Tree.set Layout.numbers ⟨"app", "items"⟩ (.list [.int 5, .int 6])).run
      ((Tree.start Layout.numbers).toOption.get rfl)).2
    ((Tree.get Layout.numbers ⟨"app", "joined"⟩).run t).1 = .ok (.list [.int 5, .int 6]) ∧
      (ValueType.sequence .int).Accepts (.list [.int 5, .int 6]) := by
  intro t
  have ht : Reachable Layout.numbers t := .set (.start rfl) _ _
  have hexprs : ∀ p ∈ Layout.numbers.computed, p.2.Built := by
    -- Both expressions follow the rules of their operators
    have hcount : (Expr.unary .length (.field ⟨"app", "joined"⟩ (.sequence .unknown))
        .int).Built := .unary (.field _ _) nofun rfl
    have hjoined : (Expr.binary .add (.field ⟨"app", "items"⟩ (.sequence .int))
        (.literal (.list [])) (.sequence .int)).Built :=
      .binary (.field _ _) (.literal trivial) rfl
    exact List.forall_mem_cons.2 ⟨hcount, List.forall_mem_singleton.2 hjoined⟩
  have hv : ((Tree.get Layout.numbers ⟨"app", "joined"⟩).run t).1 =
      .ok (.list [.int 5, .int 6]) := rfl
  have hk : Layout.numbers.computed? ⟨"app", "joined"⟩ =
      some (.binary .add (.field ⟨"app", "items"⟩ (.sequence .int)) (.literal (.list []))
        (.sequence .int)) := rfl
  exact ⟨hv, ht.computed_accepts Schema.built_numbers Layout.compile_numbers hexprs
    (by decide) (by decide) (by decide) hk hv⟩

/-- A text under the type of integers, and a list that holds one under that of lists of integers:
without the two conditions on references and joined lists the types are not kept. -/
theorem not_accepts_misread :
    let t := (Tree.start Layout.misread).toOption.get rfl
    Schema.misread.Built ∧ Layout.compile Schema.misread = .ok Layout.misread ∧
      Reachable Layout.misread t ∧ (∀ p ∈ Layout.misread.computed, p.2.Built) ∧
      (∀ p ∈ Layout.misread.computed, ∀ sub ∈ p.2.subexpressions, sub.annotates = false) ∧
      (Layout.misread.computed? ⟨"app", "y"⟩).map (·.type) = some .int ∧
      ((Tree.get Layout.misread ⟨"app", "y"⟩).run t).1 = .ok (.str "a") ∧
      ¬ ValueType.int.Accepts (.str "a") ∧
      (Layout.misread.computed? ⟨"app", "ys"⟩).map (·.type) = some (.sequence .int) ∧
      ((Tree.get Layout.misread ⟨"app", "ys"⟩).run t).1 = .ok (.list [.str "a", .int 1]) ∧
      ¬ (ValueType.sequence .int).Accepts (.list [.str "a", .int 1]) := by
  -- Both expressions were built, so it is not for a lack of rules that the types are missed
  have hexprs : ∀ p ∈ Layout.misread.computed, p.2.Built := by
    have hy : (Expr.field ⟨"app", "x"⟩ .int).Built := .field _ _
    have hys : (Expr.binary .add (.field ⟨"app", "xs"⟩ (.sequence .unknown))
        (.literal (.list [.int 1])) (.sequence .int)).Built :=
      .binary (.field _ _) (.literal ⟨trivial, trivial⟩) rfl
    exact List.forall_mem_cons.2 ⟨hy, List.forall_mem_singleton.2 hys⟩
  exact ⟨Schema.built_misread, Layout.compile_misread, .start rfl, hexprs, by decide, rfl, rfl,
    by simp, rfl, rfl, by simp⟩

end Tree

end ReactiveState
