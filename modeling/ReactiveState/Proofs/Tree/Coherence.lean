import ReactiveState.Proofs.Tree.Operations
import ReactiveState.Proofs.Tree.Scratch
import ReactiveState.Proofs.Tree.Slots

/-!
# Coherent caches

A tree is `Coherent` when every cached value is the value from scratch.  In a coherent tree a
reading gives what evaluation from scratch gives, error or value, and changes nothing but caches
(`read_run`, `get_run`); the tree stays coherent under assignments (`Coherent.assign`), because the
graph says of each computed field what it reads.
-/

namespace ReactiveState

namespace Tree

/-- The tree has the fields of its layout, and what is cached is the value from scratch. -/
structure Coherent (l : Layout) (t : Tree) : Prop where
  stored : ∀ k, (t.stored? k).isSome = (l.field? k).isSome
  slot : ∀ k, (t.slot? k).isSome = l.isComputed k
  cached : ∀ k s v, t.slot? k = some s → s.cached = some v → t.scratch l k = .ok v

variable {l : Layout} {t t' : Tree} {k d : FieldKey}

/-- A computed field is not stored. -/
theorem stored?_eq_none (hl : l.Sound) (hstored : ∀ k, (t.stored? k).isSome = (l.field? k).isSome)
    (hk : l.isComputed k = true) : t.stored? k = none := by
  have hfield := hstored k
  rw [hl.field?_of_isComputed k hk] at hfield
  simpa using hfield

/-- A computed field holds no stored value. -/
theorem Coherent.stored?_eq_none (h : t.Coherent l) (hl : l.Sound) (hk : l.isComputed k = true) :
    t.stored? k = none :=
  Tree.stored?_eq_none hl h.stored hk

/-- Every computed field has a slot. -/
theorem Coherent.exists_slot (h : t.Coherent l) (hk : l.isComputed k = true) :
    ∃ s, t.slot? k = some s :=
  Option.isSome_iff_exists.1 ((h.slot k).trans hk)

/-- From the same stored values, a tree with fewer caches is coherent too. -/
theorem Coherent.mono (h : t.Coherent l) (hvalues : t'.values = t.values)
    (hslot : ∀ k, (t'.slot? k).isSome = (t.slot? k).isSome)
    (hcached : ∀ k s v, t'.slot? k = some s → s.cached = some v → t.scratch l k = .ok v) :
    t'.Coherent l where
  stored k := by
    rw [← h.stored k, stored?, stored?, hvalues]
  slot k := (hslot k).trans (h.slot k)
  cached k s v hs hv := by
    rw [scratch_eq_of_values_eq hvalues]
    exact hcached k s v hs hv

/-- A slot may be emptied, and what the client holds may be noted. -/
theorem Coherent.modifySlot (h : t.Coherent l) {f : Slot → Slot}
    (hf : ∀ s v, (f s).cached = some v → s.cached = some v) : (t.modifySlot k f).Coherent l := by
  refine h.mono rfl (fun m => isSome_slot?_modifySlot t k m f) fun m s v hs hv => ?_
  rw [slot?_modifySlot] at hs
  split at hs
  · obtain ⟨s', hs', rfl⟩ := Option.map_eq_some_iff.1 hs
    exact h.cached m s' v hs' (hf s' v hv)
  · exact h.cached m s v hs hv

/-- Emptying a cache is always allowed. -/
theorem Coherent.invalidate (h : t.Coherent l) : (t.modifySlot k Slot.invalidate).Coherent l :=
  h.modifySlot fun _ _ hv => nomatch hv

/-- So is noting a value as sent, which no evaluation reads. -/
theorem Coherent.sync (h : t.Coherent l) (v : Value) : (t.modifySlot k (·.sync v)).Coherent l :=
  h.modifySlot fun s w hw => by simpa using hw

/-- The value from scratch may be cached. -/
theorem Coherent.store (h : t.Coherent l) {v : Value} (hv : t.scratch l k = .ok v) :
    (t.modifySlot k (·.store v)).Coherent l := by
  refine h.mono rfl (fun m => isSome_slot?_modifySlot t k m _) fun m s w hs hw => ?_
  rw [slot?_modifySlot] at hs
  split at hs
  · next hm =>
    obtain ⟨s', _, rfl⟩ := Option.map_eq_some_iff.1 hs
    -- The slot caches the value that was put there, the others what they had
    rw [Slot.cached_store, Option.some.injEq] at hw
    rw [hm, hv, hw]
  · exact h.cached m s w hs hw

/-- Marks are no part of it. -/
theorem Coherent.marks (h : t.Coherent l) (dirty unsent : List FieldKey) :
    ({ t with dirty := dirty, unsent := unsent } : Tree).Coherent l :=
  h.mono rfl (fun _ => rfl) h.cached

/-! ### Reading -/

/-- What looking a computed field up does: a stored or a cached value is given, and only an empty
cache evaluates. -/
theorem run_known (k : FieldKey) (evaluate : TreeM EvalError Value) (t : Tree) :
    (known k evaluate).run t =
      match t.stored? k, t.slot? k with
      | some v, _ => (.ok v, t)
      | none, none => (.error (.unknownField k), t)
      | none, some s =>
        match s.cached with
        | some v => (.ok v, t)
        | none => evaluate.run t := by
  rw [known, run_bind_ok (TreeM.run_get t)]
  cases t.stored? k with
  | some v => rfl
  | none =>
    cases t.slot? k with
    | none => rfl
    -- A slot answers from its cache or has to be evaluated
    | some s => cases hs : s.cached <;> simp [hs]

/-- What is known is the value from scratch; it is left to find the values of empty slots. -/
theorem Coherent.known_run (hl : l.Sound) (ht : t.Coherent l) {evaluate : TreeM EvalError Value}
    (heval : ∀ e, t.stored? k = none → l.computed? k = some e → ∃ t',
      evaluate.run t = (e.evalWith (t.scratch l), t') ∧ t'.bare = t.bare ∧ t'.Coherent l) :
    ∃ t', (known k evaluate).run t = (t.scratch l k, t') ∧ t'.bare = t.bare ∧
      t'.Coherent l := by
  rw [run_known]
  cases hs : t.stored? k with
  | some v => exact ⟨t, by rw [scratch_stored hl hs], rfl, ht⟩
  | none =>
    have hslot := ht.slot k
    cases hk : l.computed? k with
    | none =>
      -- Neither stored nor computed, so there is no slot either
      have hnone : t.slot? k = none := by simpa [Layout.isComputed, hk] using hslot
      exact ⟨t, by rw [hnone, scratch_unknown hl hs hk], rfl, ht⟩
    | some e =>
      -- A computed field has a slot, whose cached value is the one from scratch
      obtain ⟨s, hsome⟩ := ht.exists_slot (k := k) (by simp [Layout.isComputed, hk])
      rw [hsome]
      cases hc : s.cached with
      | some v => exact ⟨t, by simp only [hc, ht.cached k s v hsome hc], rfl, ht⟩
      | none =>
        simp only [hc]
        rw [scratch_computed hl hs hk]
        exact heval e hs hk

/-- In a coherent tree a reading gives the value from scratch. -/
theorem read_run (hl : l.Sound) {depth : Nat} (ht : t.Coherent l) (hk : l.rank k ≤ depth) :
    ∃ t', (read l depth k).run t = (t.scratch l k, t') ∧ t'.bare = t.bare ∧ t'.Coherent l := by
  induction depth generalizing t k with
  | zero =>
    -- A computed field has a positive rank, so nothing is left to evaluate at depth zero
    refine ht.known_run hl fun e _ he => ?_
    have hcomp : l.isComputed k = true := by simp [Layout.isComputed, he]
    rw [Layout.rank_of_isComputed hcomp] at hk
    omega
  | succ depth ih =>
    refine ht.known_run hl fun e hs he => ?_
    -- Evaluation answers like `t.scratch` as long as only caches are filled
    have hread : ∀ d ∈ e.dependencies, ∀ t₁, t₁.bare = t.bare ∧ t₁.Coherent l →
        ∃ t₂, (read l depth d).run t₁ = (t.scratch l d, t₂) ∧ t₂.bare = t.bare ∧
          t₂.Coherent l := by
      rintro d hd t₁ ⟨hbare, ht₁⟩
      have hrank := hl.rank_lt ⟨e, he, hd⟩
      obtain ⟨t₂, hrun, hbare', ht₂⟩ := ih (k := d) ht₁ (by omega)
      refine ⟨t₂, ?_, hbare'.trans hbare, ht₂⟩
      rw [hrun, scratch_eq_of_values_eq (values_of_bare_eq hbare)]
    rw [he]
    obtain ⟨t₁, hrun, hbare, ht₁⟩ := e.eval_run hread ⟨rfl, ht⟩
    cases hv : e.evalWith (t.scratch l) with
    | error err =>
      rw [hv] at hrun
      exact ⟨t₁, run_bind_error hrun, hbare, ht₁⟩
    | ok v =>
      rw [hv] at hrun
      -- The value that is cached is the one from scratch, since no stored value changed
      have hscratch : t₁.scratch l k = .ok v := by
        rw [scratch_eq_of_values_eq (values_of_bare_eq hbare), scratch_computed hl hs he, hv]
      exact ⟨t₁.modifySlot k (·.store v), run_bind_ok hrun, (bare_store v).trans hbare,
        ht₁.store hscratch⟩

/-- A computed field has a container. -/
theorem isSome_container?_of_isComputed (hl : l.Sound) (hk : l.isComputed k = true) :
    (l.container? k.path).isSome = true := by
  rw [Layout.isComputed, hl.computed?_eq] at hk
  cases hc : l.container? k.path with
  | none => simp [hc] at hk
  | some c => rfl

/-- A stored field has a container. -/
theorem isSome_container?_of_field? (hk : (l.field? k).isSome = true) :
    (l.container? k.path).isSome = true := by
  rw [Layout.field?, Layout.findField?] at hk
  rw [Layout.container?]
  cases hc : Layout.findContainer? l.containers k.path with
  | none => simp [hc] at hk
  | some c => rfl

/-- What reading a field from outside does, with the checks in the order in which they are made. -/
theorem run_get (l : Layout) (k : FieldKey) (t : Tree) :
    (get l k).run t =
      if (l.container? k.path).isNone then (.error (.unknownContainer k.path), t)
      else
        match t.stored? k, t.slot? k with
        | some v, _ => (.ok v, t)
        | none, some _ => (computedValue l k).run t
        | none, none => (.error (.unknownField k), t) := by
  rw [get, run_bind_ok (TreeM.run_get t)]
  split
  · rfl
  · cases t.stored? k <;> cases t.slot? k <;> rfl

/-- Evaluating a computed field gives its value from scratch, and leaves a coherent tree that
differs in caches at most. -/
theorem computedValue_run (hl : l.Sound) (ht : t.Coherent l) (k : FieldKey) :
    ∃ t', (computedValue l k).run t = ((t.scratch l k).mapError (.eval k), t') ∧
      t'.bare = t.bare ∧ t'.Coherent l := by
  obtain ⟨t', hrun, hbare, ht'⟩ := read_run hl ht (hl.rank_le k)
  refine ⟨t', ?_, hbare, ht'⟩
  rw [computedValue, run_adapt, hrun]

/-- In a coherent tree `get` gives a stored field its value and a computed field the value from
scratch, or the error from scratch. -/
theorem get_run (hl : l.Sound) (ht : t.Coherent l)
    (hk : (l.field? k).isSome = true ∨ l.isComputed k = true) :
    ∃ t', (get l k).run t = ((t.scratch l k).mapError (.eval k), t') ∧ t'.bare = t.bare ∧
      t'.Coherent l := by
  have hcontainer : (l.container? k.path).isSome = true :=
    hk.elim isSome_container?_of_field? (isSome_container?_of_isComputed hl)
  rw [run_get, if_neg (by rw [← Option.not_isSome, hcontainer]; decide)]
  cases hs : t.stored? k with
  | some v => exact ⟨t, by rw [scratch_stored hl hs]; rfl, rfl, ht⟩
  | none =>
    -- A field without a stored value has no declaration of one
    have hcomp : l.isComputed k = true := by
      have hstored := ht.stored k
      rw [hs] at hstored
      rcases hk with hk | hk
      · rw [hk] at hstored
        cases hstored
      · exact hk
    obtain ⟨s, hslot⟩ := ht.exists_slot hcomp
    rw [hslot]
    exact computedValue_run hl ht k

/-- `get` fills caches at most, on any key. -/
theorem get_keeps (hl : l.Sound) (ht : t.Coherent l) (k : FieldKey) :
    ((get l k).run t).2.bare = t.bare ∧ ((get l k).run t).2.Coherent l := by
  -- Only a key that names a field gets as far as an evaluation
  by_cases hk : (l.field? k).isSome = true ∨ l.isComputed k = true
  · obtain ⟨t', hrun, hbare, ht'⟩ := get_run hl ht hk
    rw [hrun]
    exact ⟨hbare, ht'⟩
  · obtain ⟨hfield, hcomp⟩ := not_or.1 hk
    have hstored : t.stored? k = none := by
      simpa [hfield] using ht.stored k
    have hslot : t.slot? k = none := by
      simpa [hcomp] using ht.slot k
    rw [run_get, hstored, hslot]
    split <;> exact ⟨rfl, ht⟩

/-! ### Writing -/

/-- The value and the mark of an assignment. -/
def put (k : FieldKey) (v : Value) (t : Tree) : Tree :=
  { t with
    values := KeyMap.modify k (fun _ => v) t.values
    dirty := if k ∈ t.dirty then t.dirty else t.dirty ++ [k] }

/-- An assignment puts the value and empties the caches of the affected fields, in their order. -/
theorem assign_eq (l : Layout) (k : FieldKey) (v : Value) (t : Tree) :
    t.assign l k v =
      (l.graph.affected [k]).foldl (fun t d => t.modifySlot d Slot.invalidate) (t.put k v) := rfl

/-- Apart from caches, an assignment puts the value and no more. -/
theorem bare_assign (l : Layout) (k : FieldKey) (v : Value) (t : Tree) :
    (t.assign l k v).bare = (t.put k v).bare :=
  bare_foldl_invalidate _ _

/-- Putting a value changes the one field, if there is such a stored field. -/
theorem stored?_put (k m : FieldKey) (v : Value) (t : Tree) :
    (t.put k v).stored? m = if m = k then (t.stored? m).map fun _ => v else t.stored? m :=
  KeyMap.find?_modify k m (fun _ => v) t.values

/-- So does assigning it. -/
theorem stored?_assign (l : Layout) (k m : FieldKey) (v : Value) (t : Tree) :
    (t.assign l k v).stored? m = if m = k then (t.stored? m).map fun _ => v else t.stored? m := by
  rw [stored?_of_bare_eq (bare_assign l k v t), stored?_put]

/-- An assignment changes nothing about what was sent. -/
theorem synced?_assign (l : Layout) (k m : FieldKey) (v : Value) (t : Tree) :
    (t.assign l k v).synced? m = t.synced? m :=
  synced?_of_bare_eq (bare_assign l k v t) m

/-- An assigned field is noted as changed, at the end of the list and once. -/
theorem dirty_assign (l : Layout) (k : FieldKey) (v : Value) (t : Tree) :
    (t.assign l k v).dirty = if k ∈ t.dirty then t.dirty else t.dirty ++ [k] :=
  dirty_of_bare_eq (bare_assign l k v t)

/-- The changed fields after an assignment are those before it and the assigned one. -/
theorem mem_dirty_assign (l : Layout) (k m : FieldKey) (v : Value) (t : Tree) :
    m ∈ (t.assign l k v).dirty ↔ m = k ∨ m ∈ t.dirty := by
  rw [dirty_assign]
  split
  · next hk =>
    refine ⟨.inr, fun hm => hm.elim (fun heq => ?_) id⟩
    rwa [heq]
  · rw [List.mem_append, List.mem_singleton, or_comm]

/-- An assignment leaves the computed fields that are still to be sent alone. -/
theorem unsent_assign (l : Layout) (k : FieldKey) (v : Value) (t : Tree) :
    (t.assign l k v).unsent = t.unsent :=
  (unsent_of_bare_eq (bare_assign l k v t)).trans rfl

/-- A field that does not read the assigned one keeps its value. -/
theorem scratch_assign (hl : l.Sound) {v : Value} (hd : l.isComputed d = true)
    (hk : (l.field? k).isSome = true) (h : ¬ Relation.TransGen l.Reads d k) :
    (t.assign l k v).scratch l d = t.scratch l d := by
  have hne : d ≠ k := by
    rintro rfl
    rw [hl.field?_of_isComputed d hd] at hk
    cases hk
  -- Neither the field itself nor what it reads is the assigned one
  refine scratch_congr ?_ fun m hm => ?_
  · rw [stored?_assign, if_neg hne]
  · rw [stored?_assign, if_neg]
    rintro rfl
    exact h hm

/-- An assignment empties every slot whose value it may change. -/
theorem Coherent.assign (hl : l.Sound) (ht : t.Coherent l) (hk : (l.field? k).isSome = true)
    (v : Value) : (t.assign l k v).Coherent l := by
  have hbare := bare_assign l k v t
  refine ⟨fun m => ?_, fun m => ?_, fun m s w hs hw => ?_⟩
  · rw [stored?_assign, ← ht.stored m]
    split <;> simp
  · rw [isSome_slot?_of_bare_eq hbare]
    exact ht.slot m
  · rw [assign_eq, slot?_foldl_invalidate] at hs
    split at hs
    · -- Slots of affected fields are empty
      obtain ⟨s', _, rfl⟩ := Option.map_eq_some_iff.1 hs
      cases hw
    · next hm =>
      -- A field that is not affected does not read the assigned one, not even through others
      rw [hl.mem_affected] at hm
      have hs' : t.slot? m = some s := hs
      have hcomp : l.isComputed m = true := by rw [← ht.slot m, hs']; rfl
      rw [scratch_assign hl hcomp hk hm]
      exact ht.cached m s w hs' hw

/-- `set` either fails and leaves the tree alone, or assigns a stored field. -/
theorem set_cases (l : Layout) (k : FieldKey) (v : Value) (t : Tree) :
    (∃ e, (set l k v).run t = (.error e, t)) ∨
      ∃ decl w, l.field? k = some decl ∧ decl.type.coerce v = some w ∧
        (set l k v).run t = (.ok (), t.assign l k w) := by
  rw [set, run_bind_ok (TreeM.run_get t)]
  cases hk : l.field? k with
  | none => exact .inl ⟨_, rfl⟩
  | some decl =>
    -- That the field holds a value is asked last, after the value was coerced
    cases hv : decl.type.coerce v with
    | none => exact .inl ⟨_, by simp only [hv]; rfl⟩
    | some w =>
      simp only [hv]
      split
      · exact .inr ⟨decl, w, rfl, hv, rfl⟩
      · exact .inl ⟨_, rfl⟩

/-- `modifyField` fails where the reading does, and else sets the field in the tree that the reading
left. -/
theorem modifyField_cases (hl : l.Sound) (ht : t.Coherent l) (k : FieldKey) (f : Value → Value) :
    ∃ t₁, t₁.bare = t.bare ∧ t₁.Coherent l ∧
      ((∃ e, (modifyField l k f).run t = (.error e, t₁)) ∨
        ∃ v, (modifyField l k f).run t = (set l k (f v)).run t₁) := by
  obtain ⟨hbare, ht₁⟩ := get_keeps hl ht k
  -- The reading keeps everything but caches, whether it fails or not
  rcases hget : (get l k).run t with ⟨e | v, t₁⟩
  · rw [hget] at hbare ht₁
    exact ⟨t₁, hbare, ht₁, .inl ⟨e, run_bind_error hget⟩⟩
  · rw [hget] at hbare ht₁
    exact ⟨t₁, hbare, ht₁, .inr ⟨v, run_bind_ok hget⟩⟩

/-- Setting a field keeps the tree coherent, whether or not the value is accepted. -/
theorem Coherent.set (hl : l.Sound) (ht : t.Coherent l) (k : FieldKey) (v : Value) :
    ((Tree.set l k v).run t).2.Coherent l := by
  rcases set_cases l k v t with ⟨e, hrun⟩ | ⟨decl, w, hk, _, hrun⟩
  · rw [hrun]
    exact ht
  · rw [hrun]
    exact ht.assign hl (by rw [hk]; rfl) w

end Tree

end ReactiveState
