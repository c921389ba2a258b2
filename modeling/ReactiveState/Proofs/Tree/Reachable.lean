import ReactiveState.Proofs.Tree.Coherence
import ReactiveState.Tree.Flush

/-!
# Reachable trees

`Tree.Reachable` are the trees that a session can be in: a fresh one, and what `get`, `set`,
`modifyField`, `flush` and `snapshot` leave behind, whether they fail or not.  Every reachable tree
is coherent (`Reachable.coherent`), since each operation keeps coherence on every way through
it.
-/

namespace ReactiveState

namespace Tree

variable {l : Layout} {t : Tree}

/-- The trees that operations lead to from a fresh one. -/
inductive Reachable (l : Layout) : Tree → Prop where
  | start {t : Tree} (h : start l = .ok t) : Reachable l t
  | get {t : Tree} (ht : Reachable l t) (k : FieldKey) : Reachable l ((get l k).run t).2
  | set {t : Tree} (ht : Reachable l t) (k : FieldKey) (v : Value) :
    Reachable l ((set l k v).run t).2
  | modifyField {t : Tree} (ht : Reachable l t) (k : FieldKey) (f : Value → Value) :
    Reachable l ((modifyField l k f).run t).2
  | flush {t : Tree} (ht : Reachable l t) : Reachable l (flush l t).2
  | snapshot {t : Tree} (ht : Reachable l t) : Reachable l ((snapshot l).run t).2

/-! ### Fresh trees -/

/-- A fresh tree holds the default of every stored field. -/
theorem stored?_instantiate (h : (l.containers.map (·.path)).Nodup) (k : FieldKey) :
    (instantiate l).stored? k = (l.field? k).map (·.default) := by
  rw [stored?, instantiate, Layout.find?_flatMap_containers h (fun c => c.schema.fields) (·.name)
    fun _ decl => decl.default]
  rw [Layout.field?, Layout.findField?]
  cases Layout.findContainer? l.containers k.path <;> rfl

/-- A fresh tree has an empty slot for every computed field. -/
theorem slot?_instantiate (hl : l.Sound) (k : FieldKey) :
    (instantiate l).slot? k = if l.isComputed k then some .fresh else none := by
  have hslots : ∀ c : ContainerInfo, c.computedKeys.map (fun k => (k, Slot.fresh)) =
      c.schema.computed.map fun e => ((⟨c.path, e.1⟩ : FieldKey), Slot.fresh) := fun c => by
    simp [ContainerInfo.computedKeys]
  rw [slot?, instantiate]
  simp only [hslots]
  -- The slots of all containers, as a look-up in the container of the path
  rw [Layout.find?_flatMap_containers hl.nodup_paths (fun c => c.schema.computed) (·.1)
    fun _ _ => Slot.fresh]
  rw [Layout.isComputed, hl.computed?_eq, Layout.container?]
  cases Layout.findContainer? l.containers k.path with
  | none => rfl
  | some c =>
    simp only [Option.bind_some, Schema.computed?, KeyMap.find?_eq_map_find?]
    cases c.schema.computed.find? (·.1 = k.field) <;> rfl

/-- A fresh tree is coherent, as it has nothing cached. -/
theorem coherent_instantiate (hl : l.Sound) : (instantiate l).Coherent l where
  stored k := by simp [stored?_instantiate hl.nodup_paths]
  slot k := by rw [slot?_instantiate hl]; split <;> simp_all
  cached k s v hs hv := by
    rw [slot?_instantiate hl] at hs
    split at hs
    · obtain rfl := Option.some.inj hs
      cases hv
    · cases hs

/-! ### Flushing -/

variable {retry : List FieldKey} {s : FlushState}

/-- A round with nothing to refresh is the last one. -/
theorem settle_of_stale_eq_nil (h : stale l s.changed retry = []) (rounds : Nat) :
    settle l rounds retry s = s := by
  cases rounds <;> simp only [settle, h]

/-- A round with stale fields refreshes them and settles the rest. -/
theorem settle_succ (h : stale l s.changed retry ≠ []) (rounds : Nat) :
    settle l (rounds + 1) retry s = settle l rounds []
      ((stale l s.changed retry).foldl (refreshInto l) { s with changed := [] }) := by
  obtain ⟨k, ks, hks⟩ := List.exists_cons_of_ne_nil h
  rw [settle.eq_def]
  simp only [hks]

/-- Without rounds left the tree stays as it is. -/
theorem tree_settle_zero : (settle l 0 retry s).tree = s.tree := by
  rw [settle.eq_def]
  cases h : stale l s.changed retry <;> simp only [h]

/-- What the rounds of a flush end with. -/
def settled (l : Layout) (t : Tree) : FlushState :=
  settle l l.computedCount t.unsent
    { tree := t, delta := dirtyDelta l t, failures := [], unsent := [], changed := t.dirty }

/-- A flush leaves the settled tree with its marks taken off. -/
theorem flush_snd (l : Layout) (t : Tree) : (flush l t).2 =
    { (settled l t).tree with dirty := [], unsent := (settled l t).unsent } := by
  unfold flush settled
  simp only
  split <;> rfl

/-! ### Operations keep coherence -/

section Keeps

open TreeM

variable (hl : l.Sound)

include hl

/-- Reading any key keeps the tree coherent. -/
theorem keeps_getField (k : FieldKey) : Keeps (Coherent l) (get l k) :=
  fun _ ht => (get_keeps hl ht k).2

/-- Evaluating a computed field keeps the tree coherent. -/
theorem keeps_computedValue (k : FieldKey) : Keeps (Coherent l) (computedValue l k) := by
  intro t ht
  obtain ⟨t', hrun, _, ht'⟩ := computedValue_run hl ht k
  rwa [hrun]

omit hl in
/-- Noting what the client holds keeps the tree coherent. -/
theorem keeps_sync (k : FieldKey) (v : Value) : Keeps (Coherent l) (sync k v) :=
  keeps_modify fun _ ht => ht.sync v

/-- So does evaluating all computed fields. -/
theorem keeps_syncAll (ks : List FieldKey) : Keeps (Coherent l) (syncAll l ks) := by
  induction ks with
  | nil => exact keeps_pure ()
  | cons k ks ih =>
    exact (keeps_computedValue hl k).bind fun v => (keeps_sync k v).bind fun _ => ih

/-- Assigning any value to any key keeps the tree coherent. -/
theorem keeps_setField (k : FieldKey) (v : Value) : Keeps (Coherent l) (set l k v) :=
  fun _ ht => ht.set hl k v

/-- A reading and an assignment keep the tree coherent. -/
theorem keeps_modifyField (k : FieldKey) (f : Value → Value) :
    Keeps (Coherent l) (modifyField l k f) :=
  (keeps_getField hl k).bind fun v => keeps_setField hl k (f v)

/-- Collecting values keeps the tree coherent, by induction on the keys. -/
theorem keeps_collect (ks : List FieldKey) (delta : Delta) :
    Keeps (Coherent l) (collect l ks delta) := by
  induction ks generalizing delta with
  | nil => exact keeps_pure delta
  | cons k ks ih =>
    refine (keeps_getField hl k).bind fun v => ?_
    split
    · exact (keeps_sync k v).bind fun _ => ih _
    · exact (keeps_pure ()).bind fun _ => ih _

/-- Taking a snapshot keeps the tree coherent. -/
theorem keeps_snapshot : Keeps (Coherent l) (snapshot l) :=
  (keeps_collect hl _ _).bind fun delta =>
    (keeps_modify fun t ht => ht.marks t.dirty []).bind fun _ => keeps_pure delta

/-- Evaluating a field afresh keeps the tree coherent. -/
theorem keeps_refresh (k : FieldKey) : Keeps (Coherent l) (refresh l k) := by
  refine (keeps_modify fun _ ht => ht.invalidate).bind fun _ => ?_
  refine (keeps_getField hl k).bind fun v => keeps_get_bind fun t ht => ?_
  cases hs : t.slot? k with
  | none => exact ht
  | some s => exact (keeps_sync k v).bind (fun _ => keeps_pure _) t ht

/-- Each field of a round keeps the tree coherent. -/
theorem coherent_refreshInto (hs : s.tree.Coherent l) (k : FieldKey) :
    (refreshInto l s k).tree.Coherent l := by
  have hkeep := keeps_refresh hl k s.tree hs
  unfold refreshInto
  split <;> next hrun => rwa [hrun] at hkeep

/-- A round keeps the tree coherent. -/
theorem coherent_foldl_refreshInto {ks : List FieldKey} (hs : s.tree.Coherent l) :
    (ks.foldl (refreshInto l) s).tree.Coherent l := by
  induction ks generalizing s with
  | nil => exact hs
  | cons k ks ih => exact ih (coherent_refreshInto hl hs k)

/-- All rounds keep the tree coherent. -/
theorem coherent_settle {rounds : Nat} (hs : s.tree.Coherent l) :
    (settle l rounds retry s).tree.Coherent l := by
  induction rounds generalizing retry s with
  | zero => rwa [tree_settle_zero]
  | succ rounds ih =>
    by_cases h : stale l s.changed retry = []
    · rwa [settle_of_stale_eq_nil h]
    · rw [settle_succ h]
      exact ih (coherent_foldl_refreshInto hl hs)

/-- A flush keeps the tree coherent. -/
theorem Coherent.flush (ht : t.Coherent l) : (Tree.flush l t).2.Coherent l := by
  rw [flush_snd]
  exact (coherent_settle hl ht).marks _ _

/-- The tree that a client starts with is coherent. -/
theorem coherent_start (h : Tree.start l = .ok t) : t.Coherent l := by
  have hkeep := keeps_syncAll hl l.order _ (coherent_instantiate hl)
  unfold Tree.start at h
  split at h
  · next hrun =>
    obtain rfl := Except.ok.inj h
    rwa [hrun] at hkeep
  · cases h

/-- Starting changes no stored value. -/
theorem values_start (h : Tree.start l = .ok t) : t.values = (instantiate l).values := by
  -- Coherence goes along, since it is what evaluation relies on
  have hsync : ∀ ks, Keeps (fun t => t.Coherent l ∧ t.values = (instantiate l).values)
      (syncAll l ks) := by
    intro ks
    induction ks with
    | nil => exact keeps_pure ()
    | cons k ks ih =>
      refine Keeps.bind (fun t ht => ?_) fun v =>
        (keeps_modify fun t ht => ⟨ht.1.sync v, ht.2⟩).bind fun _ => ih
      obtain ⟨t', hrun, hbare, ht'⟩ := computedValue_run hl ht.1 k
      rw [hrun]
      exact ⟨ht', (values_of_bare_eq hbare).trans ht.2⟩
  have hkeep := hsync l.order _ ⟨coherent_instantiate hl, rfl⟩
  unfold Tree.start at h
  split at h
  · next hrun =>
    obtain rfl := Except.ok.inj h
    rw [hrun] at hkeep
    exact hkeep.2
  · cases h

/-- What is cached in a reachable tree is the value from scratch. -/
theorem Reachable.coherent (ht : Reachable l t) : t.Coherent l := by
  induction ht with
  | start h => exact coherent_start hl h
  | get _ k ih => exact keeps_getField hl k _ ih
  | set _ k v ih => exact keeps_setField hl k v _ ih
  | modifyField _ k f ih => exact keeps_modifyField hl k f _ ih
  | flush _ ih => exact ih.flush hl
  | snapshot _ ih => exact keeps_snapshot hl _ ih

end Keeps

/-- In every reachable tree of a compiled layout the cached values are the values from scratch, and
`get` gives a computed field the value from scratch, or fails with the error from scratch.  What was
read or cached before makes no difference. -/
theorem Reachable.cached_eq_scratch {root : Schema} (hroot : root.Built)
    (hl : Layout.compile root = .ok l) (ht : Reachable l t) :
    FromScratch l t (t.scratch l) ∧
      (∀ k s v, t.slot? k = some s → s.cached = some v → t.scratch l k = .ok v) ∧
      ∀ k, l.isComputed k = true →
        ((Tree.get l k).run t).1 = (t.scratch l k).mapError (.eval k) := by
  have hsound := Layout.compile_sound hroot hl
  have hcoh := ht.coherent hsound
  -- The first part says that `t.scratch` is the plain meaning of the fields
  refine ⟨fromScratch_scratch hsound t, hcoh.cached, fun k hk => ?_⟩
  obtain ⟨t', hrun, -⟩ := get_run hsound hcoh (.inr hk)
  rw [hrun]

/-- The counter set to seven after its double was read and sent: no old double is left in a
cache. -/
theorem cached_eq_scratch_counter :
    let t := ((Tree.set Layout.counter ⟨"app", "count"⟩ (.int 7)).run
      ((Tree.start Layout.counter).toOption.getD (instantiate Layout.counter))).2
    ((Tree.get Layout.counter ⟨"app", "double"⟩).run t).1 = .ok (.int 14) := by
  intro t
  have ht : Reachable Layout.counter t := .set (.start rfl) _ _
  have hget := (ht.cached_eq_scratch Schema.built_counter Layout.compile_counter).2.2
    ⟨"app", "double"⟩ rfl
  rw [hget]
  rfl

end Tree

end ReactiveState
