import ReactiveState.Proofs.Tree.Reachable

/-!
# Fields that nobody sees

A secret is a field that stays on the server and that no computed field reads.  Trees that differ in
the values and the marks of secrets at most are `Indistinct`, and an operation is `Blind` if it does
the same on indistinct trees and leaves them indistinct.

Reading a field that is no secret is blind (`blind_read`, `blind_get`), and so is assigning one
(`blind_set`); assigning a secret leads from a tree to an indistinct one
(`Indistinct.set_secret`).
-/

namespace ReactiveState

/-- The field stays on the server, and no computed field reads it. -/
def Layout.IsSecret (l : Layout) (k : FieldKey) : Prop :=
  l.isBackend k = true ∧ ∀ c, ¬ l.Reads c k

namespace Tree

variable {l : Layout} {t t' : Tree} {k d : FieldKey} {ε ε' α β : Type}

/-- The trees differ in the values and the marks of secrets at most. -/
structure Indistinct (l : Layout) (t t' : Tree) : Prop where
  stored : ∀ k, ¬ l.IsSecret k → t.stored? k = t'.stored? k
  secrets : ∀ k, l.IsSecret k → (t.stored? k).isSome = true ∧ (t'.stored? k).isSome = true
  slots : t.slots = t'.slots
  mem_dirty : ∀ k, ¬ l.IsSecret k → (k ∈ t.dirty ↔ k ∈ t'.dirty)
  unsent : t.unsent = t'.unsent

/-- Trees that look alike do so in either order. -/
theorem Indistinct.symm (h : Indistinct l t t') : Indistinct l t' t where
  stored k hk := (h.stored k hk).symm
  secrets k hk := (h.secrets k hk).symm
  slots := h.slots.symm
  mem_dirty k hk := (h.mem_dirty k hk).symm
  unsent := h.unsent.symm

/-- Trees that look alike have the same slots. -/
theorem Indistinct.slot?_eq (h : Indistinct l t t') (k : FieldKey) : t.slot? k = t'.slot? k := by
  rw [slot?, slot?, h.slots]

/-- A secret is a stored field. -/
theorem isSome_field?_of_isSecret (hk : l.IsSecret k) : (l.field? k).isSome = true := by
  have hbackend := hk.1
  unfold Layout.isBackend at hbackend
  cases hfield : l.field? k with
  | none => simp [hfield] at hbackend
  | some decl => rfl

/-- A tree with the fields of its layout is indistinct from itself. -/
theorem indistinct_refl (ht : t.Coherent l) : Indistinct l t t where
  stored _ _ := rfl
  secrets k hk := by
    rw [ht.stored k, isSome_field?_of_isSecret hk]
    exact ⟨rfl, rfl⟩
  slots := rfl
  mem_dirty _ _ := Iff.rfl
  unsent := rfl

/-- A computed field is no secret. -/
theorem not_isSecret_of_isComputed (hl : l.Sound) (hk : l.isComputed k = true) :
    ¬ l.IsSecret k := by
  intro hsecret
  have hfield := isSome_field?_of_isSecret hsecret
  rw [hl.field?_of_isComputed k hk] at hfield
  cases hfield

/-! ### Blind operations -/

/-- The operation does the same on indistinct trees, and leaves them indistinct. -/
def Blind (l : Layout) (x : TreeM ε α) : Prop :=
  ∀ ⦃t t'⦄, Indistinct l t t' → (x.run t).1 = (x.run t').1 ∧ Indistinct l (x.run t).2 (x.run t').2

/-- A result is blind to secrets. -/
theorem blind_pure (a : α) : Blind l (pure a : TreeM ε α) := TreeM.respects_pure a

/-- So is an error. -/
theorem blind_throw (e : ε) : Blind l (throw e : TreeM ε α) := TreeM.respects_throw e

/-- Steps that are blind to secrets make up a run that is. -/
theorem Blind.bind {x : TreeM ε α} {f : α → TreeM ε β} (hx : Blind l x) (hf : ∀ a, Blind l (f a)) :
    Blind l (x >>= f) :=
  TreeM.Respects.bind hx hf

/-- Rewriting an error keeps a step blind. -/
theorem Blind.adapt {x : TreeM ε α} (hx : Blind l x) (f : ε → ε') :
    Blind l (ExceptT.adapt f x) := by
  intro t t' h
  obtain ⟨heq, h₁⟩ := hx h
  rw [run_adapt, run_adapt, heq]
  exact ⟨rfl, h₁⟩

/-- A change is blind if it makes trees that look alike look alike again. -/
theorem blind_modify {f : Tree → Tree}
    (hf : ∀ t t', Indistinct l t t' → Indistinct l (f t) (f t')) :
    Blind l (modify f : TreeM ε PUnit) :=
  TreeM.respects_modify hf

/-- An operation that looks at the tree it runs on, as far as the trees are alike. -/
theorem blind_get_bind {f : Tree → TreeM ε α}
    (hf : ∀ t t', Indistinct l t t' → ((f t).run t).1 = ((f t').run t').1 ∧
      Indistinct l ((f t).run t).2 ((f t').run t').2) : Blind l (MonadState.get >>= f) :=
  TreeM.respects_get_bind hf

/-! ### Reading -/

/-- A slot may change in both trees. -/
theorem Indistinct.modifySlot (h : Indistinct l t t') (k : FieldKey) (f : Slot → Slot) :
    Indistinct l (t.modifySlot k f) (t'.modifySlot k f) :=
  { h with slots := by rw [Tree.modifySlot, Tree.modifySlot, h.slots] }

/-- Noting a value as sent is blind. -/
theorem blind_sync (k : FieldKey) (v : Value) : Blind l (sync k v) :=
  blind_modify fun _ _ h => h.modifySlot k _

/-- Looking up a field that is no secret is blind, if its evaluation is. -/
theorem blind_known (hk : ¬ l.IsSecret k) {evaluate : TreeM EvalError Value}
    (heval : Blind l evaluate) : Blind l (known k evaluate) := by
  intro t t' h
  rw [run_known, run_known, h.stored k hk, h.slot?_eq k]
  -- Both trees store the same here, so the two runs take the same way
  cases t'.stored? k with
  | some v => exact ⟨rfl, h⟩
  | none =>
    cases t'.slot? k with
    | none => exact ⟨rfl, h⟩
    | some slot =>
      cases hcached : slot.cached with
      | some v => simpa only [hcached, true_and] using h
      | none => simpa only [hcached] using heval h

/-- A reading never comes to a secret, unless it is asked for one. -/
theorem blind_read (hk : ¬ l.IsSecret k) (depth : Nat) : Blind l (read l depth k) := by
  induction depth generalizing k with
  | zero => exact blind_known hk (blind_throw _)
  | succ depth ih =>
    refine blind_known hk ?_
    cases he : l.computed? k with
    | none => exact blind_throw _
    | some e =>
      -- What a computed field reads is no secret, or the field would depend on one
      have hread : ∀ d ∈ e.dependencies, Blind l (read l depth d) :=
        fun d hd => ih fun hsecret => hsecret.2 k ⟨e, he, hd⟩
      have heval : Blind l (e.eval (read l depth)) :=
        Expr.eval_closed blind_pure blind_throw (fun hx hf => hx.bind hf) hread
      exact heval.bind fun v =>
        (blind_modify fun _ _ h => h.modifySlot k _).bind fun _ => blind_pure v

/-- Reading a field that is no secret is blind. -/
theorem blind_get (hk : ¬ l.IsSecret k) : Blind l (get l k) := by
  refine blind_get_bind fun t t' h => ?_
  rw [h.stored k hk, h.slot?_eq k]
  by_cases hcontainer : (l.container? k.path).isNone = true
  · simp only [if_pos hcontainer]
    exact blind_throw _ h
  · simp only [if_neg hcontainer]
    -- Both trees hold the same for the field, so both give a value, fail, or evaluate
    cases t'.stored? k with
    | some v => exact blind_pure v h
    | none =>
      cases t'.slot? k with
      | none => exact blind_throw _ h
      | some slot => exact (blind_read hk l.computedCount).adapt _ h

/-- Reading a stored field changes nothing. -/
theorem get_stored_snd (hk : (t.stored? k).isSome = true) : ((get l k).run t).2 = t := by
  obtain ⟨v, hv⟩ := Option.isSome_iff_exists.1 hk
  rw [run_get, hv]
  split <;> rfl

/-! ### Writing -/

/-- Emptying caches changes the slots of the fields alone. -/
theorem slots_foldl_invalidate (ks : List FieldKey) (t : Tree) :
    (ks.foldl (fun t d => t.modifySlot d Slot.invalidate) t).slots =
      ks.foldl (fun slots d => KeyMap.modify d Slot.invalidate slots) t.slots := by
  induction ks generalizing t with
  | nil => rfl
  | cons d ks ih => exact ih _

/-- An assignment empties the caches of what depends on the field, whatever the value. -/
theorem slots_assign (l : Layout) (k : FieldKey) (v : Value) (t : Tree) : (t.assign l k v).slots =
    (l.graph.affected [k]).foldl (fun slots d => KeyMap.modify d Slot.invalidate slots) t.slots :=
  slots_foldl_invalidate _ _

/-- The same value may be assigned in both trees. -/
theorem Indistinct.assign (h : Indistinct l t t') (hk : ¬ l.IsSecret k) (v : Value) :
    Indistinct l (t.assign l k v) (t'.assign l k v) where
  stored m hm := by rw [stored?_assign, stored?_assign, h.stored m hm]
  secrets m hm := by
    -- A secret is another field than the one that is assigned
    have hne : m ≠ k := fun heq => hk (heq ▸ hm)
    rw [stored?_assign, stored?_assign, if_neg hne, if_neg hne]
    exact h.secrets m hm
  slots := by rw [slots_assign, slots_assign, h.slots]
  mem_dirty m hm := by rw [mem_dirty_assign, mem_dirty_assign, h.mem_dirty m hm]
  unsent := by rw [unsent_assign, unsent_assign, h.unsent]

/-- Nothing is affected by a secret. -/
theorem affected_eq_nil_of_isSecret (hl : l.Sound) (hk : l.IsSecret k) :
    l.graph.affected [k] = [] := by
  refine List.eq_nil_iff_forall_not_mem.2 fun m hm => ?_
  obtain ⟨c, -, hreads⟩ := Relation.TransGen.tail'_iff.1 ((hl.mem_affected m k).1 hm)
  exact hk.2 c hreads

/-- Any value may be assigned to a secret in one of the trees. -/
theorem Indistinct.assign_secret (hl : l.Sound) (h : Indistinct l t t') (hk : l.IsSecret k)
    (v : Value) : Indistinct l (t.assign l k v) t' where
  stored m hm := by
    have hne : m ≠ k := fun heq => hm (heq ▸ hk)
    rw [stored?_assign, if_neg hne, h.stored m hm]
  secrets m hm := by
    have hsecrets := h.secrets m hm
    rw [stored?_assign]
    split
    · rwa [Option.isSome_map]
    · exact hsecrets
  -- No computed field depends on a secret, so no cache is emptied
  slots := by rw [slots_assign, affected_eq_nil_of_isSecret hl hk, List.foldl_nil, h.slots]
  mem_dirty m hm := by
    have hne : m ≠ k := fun heq => hm (heq ▸ hk)
    rw [mem_dirty_assign, or_iff_right hne, h.mem_dirty m hm]
  unsent := by rw [unsent_assign, h.unsent]

/-- Setting a field that is no secret is blind. -/
theorem blind_set (hk : ¬ l.IsSecret k) (v : Value) : Blind l (set l k v) := by
  refine blind_get_bind fun t t' h => ?_
  rw [h.stored k hk]
  cases l.field? k with
  | none => exact blind_throw _ h
  | some decl =>
    cases hv : decl.type.coerce v with
    | none =>
      simp only [hv]
      exact blind_throw _ h
    | some w =>
      simp only [hv]
      -- Whether the field holds a value is the same in both trees
      split
      · exact ⟨rfl, h.assign hk w⟩
      · exact blind_throw _ h

/-- A secret may be set in one of the trees, to a value of any type. -/
theorem Indistinct.set_secret (hl : l.Sound) (h : Indistinct l t t') (hk : l.IsSecret k)
    (v : Value) : Indistinct l ((set l k v).run t).2 t' := by
  rcases set_cases l k v t with ⟨e, hrun⟩ | ⟨decl, w, -, -, hrun⟩
  · rw [hrun]
    exact h
  · rw [hrun]
    exact h.assign_secret hl hk w

/-- So is changing it by a function. -/
theorem blind_modifyField (hk : ¬ l.IsSecret k) (f : Value → Value) :
    Blind l (modifyField l k f) :=
  (blind_get hk).bind fun v => blind_set hk (f v)

/-- A secret may be changed in one of the trees, whatever the change depends on. -/
theorem Indistinct.modifyField_secret (hl : l.Sound) (h : Indistinct l t t') (hk : l.IsSecret k)
    (f : Value → Value) : Indistinct l ((modifyField l k f).run t).2 t' := by
  have hsame : ((get l k).run t).2 = t := get_stored_snd (h.secrets k hk).1
  -- A secret is stored, so reading it leaves the tree as it is
  rcases hget : (get l k).run t with ⟨e | v, t₁⟩
  · rw [hget] at hsame
    obtain rfl : t₁ = t := hsame
    rw [modifyField, run_bind_error hget]
    exact h
  · rw [hget] at hsame
    obtain rfl : t₁ = t := hsame
    rw [modifyField, run_bind_ok hget]
    exact h.set_secret hl hk (f v)

end Tree

end ReactiveState
