import ReactiveState.Proofs.Expr.Evaluation
import ReactiveState.Tree

/-!
# Operations on trees

How operations that may fail run on a tree: one equation for each of them, and `Expr.eval_run` for
evaluation.  The latter says that an evaluation whose reader may change the tree gives what it would
give with a source that only answers, as long as the reader gives the answers of the source and
keeps an invariant.

`TreeM.Keeps` says that an operation keeps an invariant of the tree, failing runs included, and
`TreeM.Respects` that it keeps a relation between two trees and gives the same on both.
-/

namespace ReactiveState

namespace TreeM

variable {ε α β : Type}

/-- A result leaves the tree alone. -/
@[simp] theorem run_pure (a : α) (t : Tree) : (pure a : TreeM ε α).run t = (.ok a, t) := rfl

/-- Asking for the tree gives it as it is. -/
@[simp] theorem run_get (t : Tree) : (MonadState.get : TreeM ε Tree).run t = (.ok t, t) := rfl

/-- A change is made to the tree. -/
@[simp] theorem run_modify (f : Tree → Tree) (t : Tree) :
    (modify f : TreeM ε PUnit).run t = (.ok ⟨⟩, f t) := rfl

/-- One operation after another, each known by what it does under an invariant.  What the second
gives may depend on the value of the first. -/
theorem run_bind_keeping {I : Tree → Prop} {x : TreeM ε α} {f : α → TreeM ε β} {a : Except ε α}
    {b : α → Except ε β} {t : Tree} (hx : ∃ t', x.run t = (a, t') ∧ I t')
    (hf : ∀ v t', a = .ok v → I t' → ∃ t'', (f v).run t' = (b v, t'') ∧ I t'') :
    ∃ t', (x >>= f).run t = (a.bind b, t') ∧ I t' := by
  obtain ⟨t', hrun, hI⟩ := hx
  cases a with
  | error e => exact ⟨t', run_bind_error hrun, hI⟩
  | ok v =>
    rw [run_bind_ok hrun]
    exact hf v t' rfl hI

/-! ### Invariants -/

/-- The operation keeps the invariant, whether it fails or not. -/
def Keeps (I : Tree → Prop) (x : TreeM ε α) : Prop := ∀ t, I t → I (x.run t).2

section Keeps

variable {I : Tree → Prop}

/-- A result keeps every property. -/
theorem keeps_pure (a : α) : Keeps I (pure a : TreeM ε α) := fun _ h => h

/-- A change keeps a property if it leads from trees that have it to trees that do. -/
theorem keeps_modify {f : Tree → Tree} (h : ∀ t, I t → I (f t)) :
    Keeps I (modify f : TreeM ε PUnit) := h

/-- Steps that keep a property make up a run that keeps it, also where one of them fails. -/
theorem Keeps.bind {x : TreeM ε α} {f : α → TreeM ε β} (hx : Keeps I x) (hf : ∀ a, Keeps I (f a)) :
    Keeps I (x >>= f) := by
  intro t ht
  have ht' := hx t ht
  rw [run_bind]
  rcases hrun : x.run t with ⟨_ | a, t'⟩
  · rwa [hrun] at ht'
  · rw [hrun] at ht'
    exact hf a t' ht'

/-- An operation that first looks at the tree it runs on. -/
theorem keeps_get_bind {f : Tree → TreeM ε α} (h : ∀ t, I t → I ((f t).run t).2) :
    Keeps I (MonadState.get >>= f) := h

end Keeps

/-! ### Relations -/

/-- On related trees the operation gives the same, and it leaves them related. -/
def Respects (R : Tree → Tree → Prop) (x : TreeM ε α) : Prop :=
  ∀ ⦃t t'⦄, R t t' → (x.run t).1 = (x.run t').1 ∧ R (x.run t).2 (x.run t').2

section Respects

variable {R : Tree → Tree → Prop}

/-- A result respects every relation. -/
theorem respects_pure (a : α) : Respects R (pure a : TreeM ε α) := fun _ _ h => ⟨rfl, h⟩

/-- So does an error. -/
theorem respects_throw (e : ε) : Respects R (throw e : TreeM ε α) := fun _ _ h => ⟨rfl, h⟩

/-- A change respects a relation if it leads from related trees to related ones. -/
theorem respects_modify {f : Tree → Tree} (hf : ∀ t t', R t t' → R (f t) (f t')) :
    Respects R (modify f : TreeM ε PUnit) :=
  fun t t' h => ⟨rfl, hf t t' h⟩

/-- Steps that respect a relation make up a run that respects it. -/
theorem Respects.bind {x : TreeM ε α} {f : α → TreeM ε β} (hx : Respects R x)
    (hf : ∀ a, Respects R (f a)) : Respects R (x >>= f) := by
  intro t t' h
  have hx := hx h
  rw [run_bind, run_bind]
  -- The first step has the same result in both runs, so both fail or both go on
  generalize x.run t = p at hx
  generalize x.run t' = p' at hx
  obtain ⟨r, t₁⟩ := p
  obtain ⟨r', t₁'⟩ := p'
  obtain ⟨heq, h₁⟩ := hx
  obtain rfl : r = r' := heq
  cases r with
  | error e => exact ⟨rfl, h₁⟩
  | ok a => exact hf a h₁

/-- An operation that looks at the tree it runs on, as far as the trees are alike. -/
theorem respects_get_bind {f : Tree → TreeM ε α}
    (hf : ∀ t t', R t t' → ((f t).run t).1 = ((f t').run t').1 ∧
      R ((f t).run t).2 ((f t').run t').2) : Respects R (MonadState.get >>= f) :=
  fun t t' h => hf t t' h

end Respects

end TreeM

namespace Expr

/-- Evaluation with a reader that keeps an invariant and answers like a source. -/
theorem eval_run {read : FieldKey → TreeM EvalError Value} {source : FieldKey → Evaluated}
    {I : Tree → Prop} {e : Expr}
    (h : ∀ k ∈ e.dependencies, ∀ t, I t → ∃ t', (read k).run t = (source k, t') ∧ I t')
    {t : Tree} (ht : I t) : ∃ t', (e.eval read).run t = (e.evalWith source, t') ∧ I t' := by
  induction e using eval_induction generalizing t with
  | literal v => exact ⟨t, rfl, ht⟩
  | field k ty => exact h k (by simp [dependencies]) t ht
  | unary op e ty ih =>
    rw [evalWith_unary]
    exact TreeM.run_bind_keeping (ih h ht)
      fun v t' _ ht' => ⟨t', run_ofExcept _ _, ht'⟩
  | binary op l r ty ihl ihr =>
    simp only [dependencies, KeySet.mem_union] at h
    rw [evalWith_binary]
    refine TreeM.run_bind_keeping (ihl (fun k hk => h k (.inl hk)) ht) fun v t' _ ht' => ?_
    exact TreeM.run_bind_keeping (ihr (fun k hk => h k (.inr hk)) ht')
      fun w t'' _ ht'' => ⟨t'', run_ofExcept _ _, ht''⟩
  | logical op l r ty ihl ihr =>
    simp only [dependencies, KeySet.mem_union] at h
    rw [evalWith_logical]
    refine TreeM.run_bind_keeping (ihl (fun k hk => h k (.inl hk)) ht) fun v t' _ ht' => ?_
    -- The source is asked for the right operand where the reader is
    by_cases hd : op.decides v = true
    · rw [if_pos hd, if_pos hd]
      exact ⟨t', rfl, ht'⟩
    · rw [if_neg hd, if_neg hd]
      exact ihr (fun k hk => h k (.inr hk)) ht'
  | cond c y n ty ihc ihy ihn =>
    simp only [dependencies, KeySet.mem_union] at h
    rw [evalWith_cond]
    refine TreeM.run_bind_keeping (ihc (fun k hk => h k (.inl (.inl hk))) ht) fun v t' _ ht' => ?_
    by_cases hd : v.isTruthy = true
    · rw [if_pos hd, if_pos hd]
      exact ihy (fun k hk => h k (.inl (.inr hk))) ht'
    · rw [if_neg hd, if_neg hd]
      exact ihn (fun k hk => h k (.inr hk)) ht'
  | external name args ty => exact ⟨t, rfl, ht⟩

end Expr

end ReactiveState
