import ReactiveState.Proofs.Tree.Reachable

/-!
# Calls between flushes

A list of `Access`es is what may happen to a tree between two flushes: fields are read and assigned,
and some of the calls fail.  `accessed_afterAll` says what such a list can change besides the stored
values: it marks the fields that were assigned without failure, and fills or empties caches, which
the coherence of the tree makes good for.
-/

namespace ReactiveState

namespace Tree

/-- A call that reads or assigns a field. -/
inductive Access where
  | get (k : FieldKey)
  | set (k : FieldKey) (v : Value)
  | modifyField (k : FieldKey) (f : Value → Value)

namespace Access

/-- The tree after a call, whether it failed or not. -/
def after (l : Layout) (t : Tree) : Access → Tree
  | .get k => ((Tree.get l k).run t).2
  | .set k v => ((Tree.set l k v).run t).2
  | .modifyField k f => ((Tree.modifyField l k f).run t).2

/-- The field that a call assigns, if it does not fail. -/
def assigned (l : Layout) (t : Tree) : Access → List FieldKey
  | .get _ => []
  | .set k v => if ((Tree.set l k v).run t).1.isOk then [k] else []
  | .modifyField k f => if ((Tree.modifyField l k f).run t).1.isOk then [k] else []

/-- The tree after one call after another. -/
def afterAll (l : Layout) (as : List Access) (t : Tree) : Tree :=
  as.foldl (after l) t

/-- The fields that were assigned by one call after another. -/
def assignedAll (l : Layout) : List Access → Tree → List FieldKey
  | [], _ => []
  | a :: as, t => a.assigned l t ++ assignedAll l as (a.after l t)

end Access

/-- The second tree comes from the first one by calls that assigned these fields. -/
structure Accessed (l : Layout) (t : Tree) (ks : List FieldKey) (t' : Tree) : Prop where
  coherent : t'.Coherent l
  synced : ∀ k, t'.synced? k = t.synced? k
  unsent : t'.unsent = t.unsent
  mem_dirty : ∀ k, k ∈ t'.dirty ↔ k ∈ t.dirty ∨ k ∈ ks

variable {l : Layout} {t t' t'' : Tree} {k : FieldKey} {ks ks' : List FieldKey}

/-! ### One call -/

/-- A reading fills caches only. -/
theorem accessed_of_bare_eq (h : t'.bare = t.bare) (ht' : t'.Coherent l) : Accessed l t [] t' where
  coherent := ht'
  synced := synced?_of_bare_eq h
  unsent := unsent_of_bare_eq h
  mem_dirty k := by simp [dirty_of_bare_eq h]

theorem accessed_assign (hl : l.Sound) (ht : t.Coherent l) (hk : (l.field? k).isSome = true)
    (v : Value) : Accessed l t [k] (t.assign l k v) where
  coherent := ht.assign hl hk v
  synced m := synced?_assign l k m v t
  unsent := unsent_assign l k v t
  mem_dirty m := by rw [mem_dirty_assign, List.mem_singleton, or_comm]

theorem Accessed.trans (h : Accessed l t ks t') (h' : Accessed l t' ks' t'') :
    Accessed l t (ks ++ ks') t'' where
  coherent := h'.coherent
  synced k := (h'.synced k).trans (h.synced k)
  unsent := h'.unsent.trans h.unsent
  mem_dirty k := by rw [h'.mem_dirty, h.mem_dirty, List.mem_append, or_assoc]

theorem accessed_set (hl : l.Sound) (ht : t.Coherent l) (k : FieldKey) (v : Value) :
    Accessed l t (if ((set l k v).run t).1.isOk then [k] else []) ((set l k v).run t).2 := by
  rcases set_cases l k v t with ⟨e, hrun⟩ | ⟨decl, w, hdecl, -, hrun⟩
  · rw [hrun]
    exact accessed_of_bare_eq rfl ht
  · have hk : (l.field? k).isSome = true := by rw [hdecl]; rfl
    rw [hrun]
    exact accessed_assign hl ht hk w

/-- A call changes what the client holds in no way, and marks the field that it assigns. -/
theorem accessed_after (hl : l.Sound) (ht : t.Coherent l) (a : Access) :
    Accessed l t (a.assigned l t) (a.after l t) := by
  cases a with
  | get k =>
    obtain ⟨hbare, ht'⟩ := get_keeps hl ht k
    exact accessed_of_bare_eq hbare ht'
  | set k v => exact accessed_set hl ht k v
  | modifyField k f =>
    obtain ⟨t₁, hbare, ht₁, ⟨e, hrun⟩ | ⟨v, hrun⟩⟩ := modifyField_cases hl ht k f
    · -- The reading failed, so nothing is assigned
      rw [Access.assigned, Access.after, hrun]
      exact accessed_of_bare_eq hbare ht₁
    · rw [Access.assigned, Access.after, hrun]
      exact (accessed_of_bare_eq hbare ht₁).trans (accessed_set hl ht₁ k (f v))

/-! ### Many calls -/

theorem accessed_afterAll (hl : l.Sound) (ht : t.Coherent l) (as : List Access) :
    Accessed l t (Access.assignedAll l as t) (Access.afterAll l as t) := by
  induction as generalizing t with
  | nil => exact accessed_of_bare_eq rfl ht
  | cons a as ih =>
    have h := accessed_after hl ht a
    exact h.trans (ih h.coherent)

/-- Readings alone change nothing but caches. -/
theorem bare_afterAll_get (hl : l.Sound) (ht : t.Coherent l) (ks : List FieldKey) :
    (Access.afterAll l (ks.map .get) t).bare = t.bare ∧
      (Access.afterAll l (ks.map .get) t).Coherent l := by
  induction ks generalizing t with
  | nil => exact ⟨rfl, ht⟩
  | cons k ks ih =>
    obtain ⟨hbare, ht₁⟩ := get_keeps hl ht k
    obtain ⟨hrest, ht₂⟩ := ih ht₁
    exact ⟨hrest.trans hbare, ht₂⟩

end Tree

end ReactiveState
