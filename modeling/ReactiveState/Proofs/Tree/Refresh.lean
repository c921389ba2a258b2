import ReactiveState.Proofs.Delta
import ReactiveState.Proofs.Tree.Reachable

/-!
# Telling the client

Operations that note values as known to the client: `refresh`, `syncAll` and `snapshot`.  All of
them lead from a tree to one that is `Refreshed`: the stored values and marks stay, and the client
holds of each field what it held before or the value from scratch.

The comparison with what the client holds is `==`.  What one refresh tells is said for all values
(`news`, `refresh_run`); that the client holds exactly what it was told is said for values on which
`==` is equality (`Value.ExactOn`).
-/

namespace ReactiveState

/-- On these values `==` is equality; so there is no NaN among them, and not both zeros. -/
def Value.ExactOn (vs : List Value) : Prop :=
  ∀ v ∈ vs, ∀ w ∈ vs, (v == w) = true ↔ v = w

/-- Equality that is exact on some values is exact on fewer. -/
theorem Value.ExactOn.mono {vs ws : List Value} (h : ExactOn vs) (hsub : ws ⊆ vs) : ExactOn ws :=
  fun v hv w hw => h v (hsub hv) w (hsub hw)

/-- Only null equals null. -/
theorem Value.null_beq_iff (v : Value) : (Value.null == v) = true ↔ Value.null = v := by
  cases v <;> simp [BEq.beq, Value.beq]

/-- Null equals only null. -/
theorem Value.beq_null_iff (v : Value) : (v == Value.null) = true ↔ v = Value.null := by
  cases v <;> simp [BEq.beq, Value.beq]

/-- Null may always be compared. -/
theorem Value.ExactOn.cons_null {vs : List Value} (h : ExactOn vs) : ExactOn (.null :: vs) := by
  intro v hv w hw
  rcases List.mem_cons.1 hv with rfl | hv
  · exact null_beq_iff w
  · rcases List.mem_cons.1 hw with rfl | hw
    · exact beq_null_iff v
    · exact h v hv w hw

/-- Integers may be compared. -/
theorem Value.exactOn_ints (ns : List Int64) : ExactOn (ns.map .int) := by
  intro v hv w hw
  obtain ⟨m, _, rfl⟩ := List.mem_map.1 hv
  obtain ⟨n, _, rfl⟩ := List.mem_map.1 hw
  simp [BEq.beq, Value.beq]

namespace Tree

variable {l : Layout} {t t' t'' : Tree} {k : FieldKey} {vs : List Value}

/-- The second tree comes from the first one by evaluating some fields and telling the client. -/
structure Refreshed (l : Layout) (t t' : Tree) : Prop where
  coherent : t'.Coherent l
  values : t'.values = t.values
  dirty : t'.dirty = t.dirty
  unsent : t'.unsent = t.unsent
  synced : ∀ m, t'.synced? m = t.synced? m ∨
    ∃ v, t.scratch l m = .ok v ∧ t'.synced? m = some v

/-- Doing nothing refreshes nothing. -/
theorem Refreshed.refl (ht : t.Coherent l) : Refreshed l t t :=
  ⟨ht, rfl, rfl, rfl, fun _ => .inl rfl⟩

/-- Refreshing can go on. -/
theorem Refreshed.trans (h : Refreshed l t t') (h' : Refreshed l t' t'') : Refreshed l t t'' := by
  refine ⟨h'.coherent, h'.values.trans h.values, h'.dirty.trans h.dirty,
    h'.unsent.trans h.unsent, fun m => ?_⟩
  rcases h'.synced m with hm | ⟨v, hv, hm⟩
  · rw [hm]
    exact h.synced m
  · rw [scratch_eq_of_values_eq h.values] at hv
    exact .inr ⟨v, hv, hm⟩

/-- Filling caches counts as refreshing. -/
theorem refreshed_of_bare_eq (h : t'.bare = t.bare) (ht' : t'.Coherent l) : Refreshed l t t' :=
  ⟨ht', values_of_bare_eq h, dirty_of_bare_eq h, unsent_of_bare_eq h,
    fun m => .inl (synced?_of_bare_eq h m)⟩

/-- Refreshing does not change what fields are from scratch. -/
theorem Refreshed.scratch_eq (h : Refreshed l t t') : t'.scratch l = t.scratch l :=
  scratch_eq_of_values_eq h.values

/-- Refreshing does not change stored values. -/
theorem Refreshed.stored?_eq (h : Refreshed l t t') (k : FieldKey) :
    t'.stored? k = t.stored? k := by
  rw [stored?, stored?, h.values]

/-- The client holds something of every computed field. -/
theorem exists_synced (ht : t.Coherent l) (hk : l.isComputed k = true) :
    ∃ w, t.synced? k = some w := by
  obtain ⟨s, hs⟩ := ht.exists_slot hk
  exact ⟨s.synced, by rw [synced?, hs]; rfl⟩

/-- Only of computed fields it is noted what the client holds. -/
theorem isComputed_of_synced {w : Value} (ht : t.Coherent l) (hw : t.synced? k = some w) :
    l.isComputed k = true := by
  rw [← ht.slot k]
  exact Option.isSome_map.symm.trans (congrArg Option.isSome hw)

/-- The values of the computed fields that have one. -/
def computedValues (l : Layout) (t : Tree) : List Value :=
  l.order.filterMap fun k => (t.scratch l k).toOption

/-- The value of a computed field is among the computed values. -/
theorem mem_computedValues (hl : l.Sound) {v : Value} (hk : l.isComputed k = true)
    (hv : t.scratch l k = .ok v) : v ∈ t.computedValues l :=
  List.mem_filterMap.2 ⟨k, (hl.mem_order k).2 hk, by rw [hv]; rfl⟩

/-- The values that may be compared: what the client holds, and what it may be told. -/
structure Comparable (l : Layout) (t : Tree) (vs : List Value) : Prop where
  exact : Value.ExactOn vs
  synced : ∀ k w, t.synced? k = some w → w ∈ vs
  scratch : ∀ k v, l.isComputed k = true → t.scratch l k = .ok v → v ∈ vs

/-- Values that can be compared in a tree can be compared after it was refreshed. -/
theorem Comparable.refreshed (h : Comparable l t vs) (ht' : Refreshed l t t') :
    Comparable l t' vs := by
  refine ⟨h.exact, fun k w hw => ?_, by rw [ht'.scratch_eq]; exact h.scratch⟩
  rcases ht'.synced k with hk | ⟨v, hv, hk⟩
  · exact h.synced k w (hk ▸ hw)
  · rw [hk, Option.some.injEq] at hw
    exact hw ▸ h.scratch k v (isComputed_of_synced ht'.coherent hk) hv

/-- Comparing what the client holds with what it may be told. -/
theorem Comparable.beq_iff (h : Comparable l t vs) (hk : l.isComputed k = true) {v w : Value}
    (hv : t.scratch l k = .ok v) (hw : t.synced? k = some w) : (w == v) = true ↔ w = v :=
  h.exact w (h.synced k w hw) v (h.scratch k v hk hv)

/-! ### Noting one value -/

/-- Noting a value changes one slot and never fails. -/
theorem run_sync (k : FieldKey) (v : Value) (t : Tree) :
    (sync k v).run t = (.ok (), t.modifySlot k (·.sync v)) := rfl

/-- A value that equals the one the client holds is not noted, so the old one stays. -/
theorem synced?_modifySlot_sync (t : Tree) (k m : FieldKey) (v : Value) :
    (t.modifySlot k (·.sync v)).synced? m =
      if m = k then (t.synced? m).map fun w => if w == v then w else v else t.synced? m := by
  rw [synced?, slot?_modifySlot]
  split
  · rw [synced?, Option.map_map, Option.map_map]
    congr 1
    funext s
    -- A value that is equal by `==` is not noted again
    cases h : s.synced == v <;> simp [Slot.sync, Slot.differs, h]
  · rfl

/-- The client holds the value from scratch after it was told. -/
theorem synced?_sync (ht : t.Coherent l) (hc : Comparable l t vs) (hk : l.isComputed k = true)
    {v : Value} (hv : t.scratch l k = .ok v) (m : FieldKey) :
    (t.modifySlot k (·.sync v)).synced? m = if m = k then some v else t.synced? m := by
  rw [synced?_modifySlot_sync]
  split
  · next hm =>
    obtain ⟨w, hw⟩ := exists_synced ht hk
    rw [hm, hw, Option.map_some]
    split
    · -- What is equal is the same value here, as equality is exact on values that occur
      next heq => rw [(hc.beq_iff hk hv hw).1 heq]
    · rfl
  · rfl

/-- Noting the value of a field from scratch counts as refreshing. -/
theorem refreshed_sync (ht : t.Coherent l) {v : Value} (hv : t.scratch l k = .ok v) :
    Refreshed l t (t.modifySlot k (·.sync v)) := by
  refine ⟨ht.sync v, rfl, rfl, rfl, fun m => ?_⟩
  rw [synced?_modifySlot_sync]
  split
  · next hm =>
    cases t.synced? m with
    | none => exact .inl rfl
    | some w =>
      -- The note keeps its value or gets the one from scratch
      rw [Option.map_some]
      split
      · exact .inl rfl
      · exact .inr ⟨v, hm ▸ hv, rfl⟩
  · exact .inl rfl

/-- Telling the client a value from scratch that was evaluated before. -/
theorem sync_after (hc : Comparable l t vs) (hk : l.isComputed k = true) {v : Value}
    (hv : t.scratch l k = .ok v) (h : Refreshed l t t') :
    Refreshed l t (t'.modifySlot k (·.sync v)) ∧
      ∀ m, (t'.modifySlot k (·.sync v)).synced? m = if m = k then some v else t'.synced? m := by
  rw [← h.scratch_eq] at hv
  exact ⟨h.trans (refreshed_sync h.coherent hv),
    synced?_sync h.coherent (hc.refreshed h) hk hv⟩

/-! ### Refreshing one field -/

/-- What there is to tell of a computed field: its value from scratch, unless the client holds an
equal one. -/
def news (l : Layout) (t : Tree) (k : FieldKey) : Except EvalError (Option Value) :=
  (t.scratch l k).map fun v => if (t.synced? k).any (· == v) then none else some v

/-- A field that fails has no news. -/
theorem news_of_error {e : EvalError} (h : t.scratch l k = .error e) :
    news l t k = .error e := by
  rw [news, h]
  rfl

/-- A field has news if its value is not the one that the client holds. -/
theorem news_of_ok {v w : Value} (h : t.scratch l k = .ok v) (hw : t.synced? k = some w) :
    news l t k = .ok (if w == v then none else some v) := by
  rw [news, h, hw]
  rfl

/-- Where the values may be compared, there is something to tell if the client holds another
value. -/
theorem Comparable.news_cases (hc : Comparable l t vs) (ht : t.Coherent l)
    (hk : l.isComputed k = true) {v : Value} (hv : t.scratch l k = .ok v) :
    (t.synced? k = some v ∧ news l t k = .ok none) ∨
      (t.synced? k ≠ some v ∧ news l t k = .ok (some v)) := by
  obtain ⟨w, hw⟩ := exists_synced ht hk
  -- Comparing tells whether the two values are the same
  have hiff := hc.beq_iff hk hv hw
  rw [news_of_ok hv hw, hw]
  by_cases heq : w = v
  · exact .inl ⟨congrArg some heq, by rw [if_pos (hiff.2 heq)]⟩
  · exact .inr ⟨fun h => heq (Option.some.inj h), by rw [if_neg (mt hiff.1 heq)]⟩

/-- A refresh gives what there is to tell, and tells the client. -/
theorem refresh_run (hl : l.Sound) (ht : t.Coherent l) (hk : l.isComputed k = true) :
    ∃ t', (refresh l k).run t = ((news l t k).mapError (.eval k), t') ∧ Refreshed l t t' ∧
      ∀ m, t'.synced? m =
        if m = k then (news l t k).toOption.join.or (t.synced? k) else t.synced? m := by
  -- The slot is emptied first, which leaves the value from scratch as it is
  have hbare₁ : (t.modifySlot k Slot.invalidate).bare = t.bare := bare_invalidate
  obtain ⟨t₂, hrun, hbare₂, ht₂⟩ := get_run hl (ht.invalidate (k := k)) (.inr hk)
  have hbare := hbare₂.trans hbare₁
  have hsynced := synced?_of_bare_eq hbare
  have hrefreshed := refreshed_of_bare_eq hbare ht₂
  rw [scratch_eq_of_values_eq (values_of_bare_eq hbare₁)] at hrun
  rw [refresh, run_bind_ok (TreeM.run_modify _ t)]
  cases hscratch : t.scratch l k with
  | error e =>
    rw [hscratch] at hrun
    rw [news_of_error hscratch]
    -- A field that fails is not told, so all notes are those from before
    refine ⟨t₂, run_bind_error hrun, hrefreshed, fun m => ?_⟩
    rw [hsynced]
    split <;> simp_all [Except.toOption]
  | ok v =>
    rw [hscratch] at hrun
    -- The comparison is with what the client held before it was told
    obtain ⟨s, hs⟩ := ht₂.exists_slot hk
    have hold : t.synced? k = some s.synced := by rw [← hsynced, synced?, hs]; rfl
    rw [news_of_ok hscratch hold]
    refine ⟨t₂.modifySlot k (·.sync v), ?_, hrefreshed.trans (refreshed_sync ht₂ ?_), fun m => ?_⟩
    · rw [run_bind_ok hrun, run_bind_ok (TreeM.run_get t₂), hs]
      simp only [run_bind_ok (run_sync k v t₂), Slot.differs]
      by_cases heq : (s.synced == v) = true
      · simp only [heq]
        rfl
      · simp only [heq]
        rfl
    · rw [hrefreshed.scratch_eq, hscratch]
    · -- The client is told unless it holds the value already
      rw [synced?_modifySlot_sync]
      split
      · next hm =>
        rw [hsynced, hm, hold]
        cases h : s.synced == v <;> simp [Except.toOption, h]
      · rw [hsynced]

/-! ### Telling many fields -/

/-- What was told once stays told. -/
theorem Refreshed.synced_of_synced (h : Refreshed l t t') {v : Value} (hv : t.scratch l k = .ok v)
    (hk : t.synced? k = some v) : t'.synced? k = some v := by
  rcases h.synced k with hm | ⟨w, hw, hm⟩
  · rw [hm, hk]
  · rw [hm, Option.some.injEq]
    exact Except.ok.inj (hw.symm.trans hv)

/-- Evaluating fields one after another stops at the first that fails, or the client holds all of
them from scratch. -/
theorem syncAll_run (hl : l.Sound) {ks : List FieldKey}
    (hks : ∀ k ∈ ks, l.isComputed k = true) (ht : t.Coherent l) (hc : Comparable l t vs) :
    ∃ t', Refreshed l t t' ∧ ((∃ e, (syncAll l ks).run t = (.error e, t')) ∨
      (syncAll l ks).run t = (.ok (), t') ∧
        ∀ k ∈ ks, ∃ v, t.scratch l k = .ok v ∧ t'.synced? k = some v) := by
  induction ks generalizing t with
  | nil => exact ⟨t, .refl ht, .inr ⟨rfl, by simp⟩⟩
  | cons k ks ih =>
    obtain ⟨hk, hks⟩ := List.forall_mem_cons.1 hks
    obtain ⟨t₁, hrun, hbare, ht₁⟩ := computedValue_run hl ht k
    have h₁ := refreshed_of_bare_eq hbare ht₁
    cases hv : t.scratch l k with
    | error e =>
      rw [hv] at hrun
      -- The first field fails, and the walk with it
      exact ⟨t₁, h₁, .inl ⟨_, run_bind_error hrun⟩⟩
    | ok v =>
      rw [hv] at hrun
      obtain ⟨h₂, hheld⟩ := sync_after hc hk hv h₁
      -- The first field is evaluated and told; the others go on from there
      have hcons : (syncAll l (k :: ks)).run t =
          (syncAll l ks).run (t₁.modifySlot k (·.sync v)) := by
        rw [syncAll, run_bind_ok hrun, run_bind_ok (run_sync k v t₁)]
      obtain ⟨t₃, h₃, hrest⟩ := ih hks h₂.coherent (hc.refreshed h₂)
      refine ⟨t₃, h₂.trans h₃, ?_⟩
      rw [hcons]
      rw [h₂.scratch_eq] at hrest
      refine hrest.imp id fun ⟨hok, hall⟩ => ⟨hok, List.forall_mem_cons.2 ⟨⟨v, hv, ?_⟩, hall⟩⟩
      -- What the client holds from scratch is not changed by the fields that follow
      exact h₃.synced_of_synced (h₂.scratch_eq ▸ hv) (by rw [hheld, if_pos rfl])

/-- Collecting a field that has a value: a stored field is only read, a computed one is told too. -/
theorem collect_cons (hl : l.Sound) (ht : t.Coherent l) (hc : Comparable l t vs)
    (hk : (l.field? k).isSome = true ∨ l.isComputed k = true) {v : Value}
    (hv : t.scratch l k = .ok v) (ks : List FieldKey) (delta : Delta) :
    ∃ t', Refreshed l t t' ∧ (l.isComputed k = true → t'.synced? k = some v) ∧
      (collect l (k :: ks) delta).run t =
        (collect l ks (delta.insert k.path k.field v)).run t' := by
  obtain ⟨t₁, hrun, hbare, ht₁⟩ := get_run hl ht hk
  have h₁ := refreshed_of_bare_eq hbare ht₁
  rw [hv] at hrun
  cases hcomp : l.isComputed k with
  -- A stored field is not noted anywhere
  | false =>
    refine ⟨t₁, h₁, nofun, ?_⟩
    rw [collect, run_bind_ok hrun, hcomp]
    rfl
  | true =>
    -- A computed field is noted as told
    obtain ⟨h₂, hheld⟩ := sync_after hc hcomp hv h₁
    refine ⟨_, h₂, fun _ => by rw [hheld, if_pos rfl], ?_⟩
    rw [collect, run_bind_ok hrun, hcomp]
    rfl

/-- Collecting fields stops at the first that fails, or gives all of them from scratch. -/
theorem collect_run (hl : l.Sound) {ks : List FieldKey}
    (hks : ∀ k ∈ ks, (l.field? k).isSome = true ∨ l.isComputed k = true) (ht : t.Coherent l)
    (hc : Comparable l t vs) {delta : Delta} (hdelta : delta.Sorted) :
    ∃ t', Refreshed l t t' ∧ (((∃ e, (collect l ks delta).run t = (.error e, t')) ∧
        ∃ k ∈ ks, ∃ e, t.scratch l k = .error e) ∨
      ∃ delta', (collect l ks delta).run t = (.ok delta', t') ∧ delta'.Sorted ∧
        (∀ k ∈ ks, ∃ v, t.scratch l k = .ok v ∧
          (l.isComputed k = true → t'.synced? k = some v)) ∧
        ∀ k, delta'.get? k.path k.field =
          if k ∈ ks then (t.scratch l k).toOption else delta.get? k.path k.field) := by
  induction ks generalizing t delta with
  | nil => exact ⟨t, .refl ht, .inr ⟨delta, rfl, hdelta, by simp, by simp⟩⟩
  | cons k ks ih =>
    obtain ⟨hk, hks⟩ := List.forall_mem_cons.1 hks
    cases hv : t.scratch l k with
    | error e =>
      obtain ⟨t₁, hrun, hbare, ht₁⟩ := get_run hl ht hk
      rw [hv] at hrun
      -- The first field fails, and it is one of those that are collected
      exact ⟨t₁, refreshed_of_bare_eq hbare ht₁,
        .inl ⟨⟨_, run_bind_error hrun⟩, k, List.mem_cons_self, e, hv⟩⟩
    | ok v =>
      -- The first field is in the delta and told; the others go on from there
      obtain ⟨t₂, h₂, hheld, hcons⟩ := collect_cons hl ht hc hk hv ks delta
      obtain ⟨t₃, h₃, hrest⟩ := ih hks h₂.coherent (hc.refreshed h₂)
        (Delta.sorted_insert hdelta k.path k.field v)
      refine ⟨t₃, h₂.trans h₃, ?_⟩
      rw [hcons]
      rw [h₂.scratch_eq] at hrest
      refine hrest.imp (fun ⟨hrun, m, hm, he⟩ => ⟨hrun, m, List.mem_cons_of_mem k hm, he⟩) ?_
      rintro ⟨delta', hok, hsorted, hall, hget⟩
      refine ⟨delta', hok, hsorted, List.forall_mem_cons.2 ⟨⟨v, hv, fun hcomp => ?_⟩, hall⟩,
        fun m => ?_⟩
      · -- The fields that follow do not take back what was told
        exact h₃.synced_of_synced (h₂.scratch_eq ▸ hv) (hheld hcomp)
      · -- A later insertion of `k` has the same value
        rw [hget, Delta.get?_insert_key]
        by_cases hm : m ∈ ks
        · simp [hm]
        · by_cases hmk : m = k
          · simp [hmk, hv, Except.toOption]
          · simp [hm, hmk]

end Tree

end ReactiveState
