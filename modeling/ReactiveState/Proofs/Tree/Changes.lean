import ReactiveState.Proofs.Tree.Reachable

/-!
# What operations are made of

All that an operation ever does to a tree is to put a value into a stored field, to change a slot,
and to take off marks.  An invariant of these changes (`Invariant`) is kept by every operation,
on every way through it, and so every reachable tree has it (`Reachable.of_invariant`).
-/

namespace ReactiveState

namespace Tree

/-- What the changes that operations are made of keep. -/
structure Invariant (l : Layout) (I : Tree → Prop) : Prop where
  put : ∀ t k v, (l.field? k).isSome = true → I t → I (t.put k v)
  modifySlot : ∀ t k f, I t → I (t.modifySlot k f)
  retry : ∀ t unsent, I t → I { t with unsent := unsent }
  clear : ∀ t, I t → I { t with dirty := [] }

namespace Invariant

open TreeM

variable {l : Layout} {I : Tree → Prop} {t : Tree} {k : FieldKey} (h : Invariant l I)

include h

/-! ### Reading -/

/-- Changing the slot of a computed field keeps the property. -/
theorem keeps_slot (k : FieldKey) (f : Slot → Slot) {ε : Type} :
    Keeps I (modify fun t => t.modifySlot k f : TreeM ε PUnit) :=
  keeps_modify fun t ht => h.modifySlot t k f ht

omit h in
/-- Looking a computed field up keeps it if evaluating the field does. -/
theorem keeps_known {evaluate : TreeM EvalError Value} (heval : Keeps I evaluate) :
    Keeps I (known k evaluate) := by
  intro t ht
  rw [run_known]
  -- Stored and cached values are given as they are; only an empty cache evaluates
  cases t.stored? k with
  | some v => exact ht
  | none =>
    cases t.slot? k with
    | none => exact ht
    | some slot =>
      cases hcached : slot.cached with
      | some v => simpa only [hcached] using ht
      | none => simpa only [hcached] using heval t ht

/-- Reading a field keeps it, to whatever depth: at most caches are filled on the way. -/
theorem keeps_read (depth : Nat) (k : FieldKey) : Keeps I (read l depth k) := by
  induction depth generalizing k with
  | zero => exact keeps_known fun t ht => ht
  | succ depth ih =>
    refine keeps_known ?_
    cases l.computed? k with
    | none => exact fun t ht => ht
    | some e =>
      -- The evaluation reads fields one step less deep
      have heval : Keeps I (e.eval (read l depth)) :=
        Expr.eval_closed keeps_pure (fun _ _ ht => ht) (fun hx hf => hx.bind hf) fun d _ => ih d
      exact heval.bind fun v => (h.keeps_slot k _).bind fun _ => keeps_pure v

/-- Evaluating a computed field keeps it. -/
theorem keeps_computedValue (k : FieldKey) : Keeps I (computedValue l k) :=
  h.keeps_read l.computedCount k

/-- So does reading a field from outside. -/
theorem keeps_get (k : FieldKey) : Keeps I (Tree.get l k) := by
  intro t ht
  rw [Tree.run_get]
  split
  · exact ht
  · split
    · exact ht
    · exact h.keeps_computedValue k t ht
    · exact ht

/-! ### Writing -/

/-- An assignment puts a value and empties caches, and each of these changes keeps it. -/
theorem assign (ht : I t) (hk : (l.field? k).isSome = true) (v : Value) :
    I (t.assign l k v) := by
  -- Emptying caches one after another
  have hfold : ∀ ks : List FieldKey, ∀ t, I t →
      I (ks.foldl (fun t d => t.modifySlot d Slot.invalidate) t) := by
    intro ks
    induction ks with
    | nil => exact fun _ ht => ht
    | cons d ks ih => exact fun t ht => ih _ (h.modifySlot t d _ ht)
  rw [assign_eq]
  exact hfold _ _ (h.put t k v hk ht)

/-- Setting a field keeps it, whether or not the value is accepted. -/
theorem keeps_set (k : FieldKey) (v : Value) : Keeps I (Tree.set l k v) := by
  intro t ht
  rcases set_cases l k v t with ⟨e, hrun⟩ | ⟨decl, w, hk, -, hrun⟩
  · rw [hrun]
    exact ht
  · rw [hrun]
    exact h.assign ht (by rw [hk]; rfl) w

/-- So does changing a field by a function. -/
theorem keeps_modifyField (k : FieldKey) (f : Value → Value) : Keeps I (modifyField l k f) :=
  (h.keeps_get k).bind fun v => h.keeps_set k (f v)

/-! ### Starting and snapshots -/

/-- Noting the values of computed fields as sent keeps it. -/
theorem keeps_syncAll (ks : List FieldKey) : Keeps I (syncAll l ks) := by
  induction ks with
  | nil => exact keeps_pure ()
  | cons k ks ih =>
    exact (h.keeps_computedValue k).bind fun v => (h.keeps_slot k _).bind fun _ => ih

/-- A tree that was started has it if the one that was only instantiated has. -/
theorem start (hinstantiate : I (instantiate l)) (hs : Tree.start l = .ok t) : I t := by
  have hkeep := h.keeps_syncAll l.order _ hinstantiate
  unfold Tree.start at hs
  split at hs
  · next hrun =>
    obtain rfl := Except.ok.inj hs
    rwa [hrun] at hkeep
  · cases hs

/-- Collecting values for the client keeps it. -/
theorem keeps_collect (ks : List FieldKey) (delta : Delta) : Keeps I (collect l ks delta) := by
  induction ks generalizing delta with
  | nil => exact keeps_pure delta
  | cons k ks ih =>
    refine (h.keeps_get k).bind fun v => ?_
    split
    · exact (h.keeps_slot k _).bind fun _ => ih _
    · exact (keeps_pure ()).bind fun _ => ih _

/-- A snapshot keeps it, also when it leaves with an error. -/
theorem keeps_snapshot : Keeps I (snapshot l) :=
  (h.keeps_collect _ _).bind fun delta =>
    (keeps_modify fun t ht => h.retry t [] ht).bind fun _ => keeps_pure delta

/-! ### Flushing -/

/-- Refreshing one computed field keeps it. -/
theorem keeps_refresh (k : FieldKey) : Keeps I (refresh l k) := by
  refine (h.keeps_slot k _).bind fun _ => ?_
  refine (h.keeps_get k).bind fun v => keeps_get_bind fun t ht => ?_
  cases t.slot? k with
  | none => exact ht
  | some slot => exact (h.keeps_slot k _).bind (fun _ => keeps_pure _) t ht

/-- So does refreshing it as a part of a round. -/
theorem refreshInto {s : FlushState} (hs : I s.tree) (k : FieldKey) :
    I (refreshInto l s k).tree := by
  have hkeep := h.keeps_refresh k s.tree hs
  unfold Tree.refreshInto
  split <;> next hrun => rwa [hrun] at hkeep

/-- A round keeps it. -/
theorem foldl_refreshInto {s : FlushState} (hs : I s.tree) (ks : List FieldKey) :
    I (ks.foldl (Tree.refreshInto l) s).tree := by
  induction ks generalizing s with
  | nil => exact hs
  | cons k ks ih => exact ih (h.refreshInto hs k)

/-- The rounds of a flush keep it, however many there are. -/
theorem settle {rounds : Nat} {retry : List FieldKey} {s : FlushState} (hs : I s.tree) :
    I (settle l rounds retry s).tree := by
  induction rounds generalizing retry s with
  | zero => rwa [tree_settle_zero]
  | succ rounds ih =>
    by_cases hnil : stale l s.changed retry = []
    · rwa [settle_of_stale_eq_nil hnil]
    · rw [settle_succ hnil]
      -- A round begins by forgetting what changed, which is no part of the tree
      have hstart : I ({ s with changed := [] } : FlushState).tree := hs
      exact ih (h.foldl_refreshInto hstart _)

/-- A flush keeps it, also when it fails. -/
theorem flush (ht : I t) : I (Tree.flush l t).2 := by
  rw [flush_snd]
  exact h.retry _ _ (h.clear _ (h.settle ht))

end Invariant

/-- What the changes keep, every reachable tree has if the fresh one has it. -/
theorem Reachable.of_invariant {l : Layout} {I : Tree → Prop} {t : Tree} (h : Invariant l I)
    (hinstantiate : I (instantiate l)) (ht : Reachable l t) : I t := by
  induction ht with
  | start hs => exact h.start hinstantiate hs
  | get _ k ih => exact h.keeps_get k _ ih
  | set _ k v ih => exact h.keeps_set k v _ ih
  | modifyField _ k f ih => exact h.keeps_modifyField k f _ ih
  | flush _ ih => exact h.flush ih
  | snapshot _ ih => exact h.keeps_snapshot _ ih

end Tree

end ReactiveState
