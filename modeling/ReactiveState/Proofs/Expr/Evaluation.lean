import ReactiveState.Expr.Eval
import ReactiveState.Proofs.Except

/-!
# What an evaluation depends on

Evaluation of an expression with a source of answers looks at the source only at the dependencies
of the expression.

* `eval_related`: what relates all readings, and what sequencing makes of related operations,
  relates evaluations; `eval_closed` is the same for a property,
* `evalWith_congr`: sources that agree on the dependencies give the same result,
* `evalWith_ok_mono`: a source that keeps the values of another keeps its result, if that is a
  value; what was not read for it may have changed,
* `evalWith_unary` and its companions: one equation for each kind of node,
* `eval_rebased`: rebasing is a change of the source,
* `mem_keys_references`: what is referenced is a dependency, and nothing else is.
-/

namespace ReactiveState

namespace Expr

/-- Induction along evaluation, which never enters the arguments of an external function. -/
@[elab_as_elim]
theorem eval_induction {P : Expr → Prop} (literal : ∀ v, P (.literal v))
    (field : ∀ k t, P (.field k t)) (unary : ∀ op e t, P e → P (.unary op e t))
    (binary : ∀ op l r t, P l → P r → P (.binary op l r t))
    (logical : ∀ op l r t, P l → P r → P (.logical op l r t))
    (cond : ∀ c y n t, P c → P y → P n → P (.cond c y n t))
    (external : ∀ name args t, P (.external name args t)) : ∀ e, P e
  | .literal v => literal v
  | .field k t => field k t
  | .unary op e t =>
    unary op e t (eval_induction literal field unary binary logical cond external e)
  | .binary op l r t =>
    binary op l r t (eval_induction literal field unary binary logical cond external l)
      (eval_induction literal field unary binary logical cond external r)
  | .logical op l r t =>
    logical op l r t (eval_induction literal field unary binary logical cond external l)
      (eval_induction literal field unary binary logical cond external r)
  | .cond c y n t =>
    cond c y n t (eval_induction literal field unary binary logical cond external c)
      (eval_induction literal field unary binary logical cond external y)
      (eval_induction literal field unary binary logical cond external n)
  | .external name args t => external name args t

/-! ### Equations -/

section Equations

variable (source : FieldKey → Evaluated)

/-- A literal is its value. -/
@[simp] theorem evalWith_literal (v : Value) : (literal v).evalWith source = .ok v := rfl

/-- A field is what the source says of it. -/
@[simp] theorem evalWith_field (k : FieldKey) (t : ValueType) :
    (field k t).evalWith source = source k := rfl

/-- Among results that are nothing but results, there is nothing to lift. -/
private theorem ofExcept_eq {α : Type} (x : Except EvalError α) :
    (MonadExcept.ofExcept x : Except EvalError α) = x := by
  cases x <;> rfl

/-- An operation is applied to the value of its operand. -/
@[simp] theorem evalWith_unary (op : UnaryOp) (e : Expr) (t : ValueType) :
    (unary op e t).evalWith source = (e.evalWith source).bind op.apply := by
  simp only [evalWith, eval, ofExcept_eq]
  rfl

/-- The left operand is evaluated first, and the operation is applied to both values. -/
@[simp] theorem evalWith_binary (op : BinaryOp) (l r : Expr) (t : ValueType) :
    (binary op l r t).evalWith source =
      (l.evalWith source).bind fun v => (r.evalWith source).bind fun w => op.apply v w := by
  simp only [evalWith, eval, ofExcept_eq]
  rfl

/-- The right operand is evaluated only where the left one does not decide. -/
@[simp] theorem evalWith_logical (op : LogicalOp) (l r : Expr) (t : ValueType) :
    (logical op l r t).evalWith source =
      (l.evalWith source).bind fun v => if op.decides v then .ok v else r.evalWith source := rfl

/-- Only the branch that is taken is evaluated. -/
@[simp] theorem evalWith_cond (c y n : Expr) (t : ValueType) :
    (cond c y n t).evalWith source =
      (c.evalWith source).bind fun v =>
        if v.isTruthy then y.evalWith source else n.evalWith source := rfl

/-- An external function can only be rendered. -/
@[simp] theorem evalWith_external (name : String) (args : List Expr) (t : ValueType) :
    (external name args t).evalWith source = .error (.renderOnlyFunction name) := rfl

end Equations

/-- What relates the readings of each dependency, and whatever sequencing makes of related
operations, relates the evaluations.  This is about any operations that evaluation can be carried
out with. -/
theorem eval_related {m m' : Type → Type} [Monad m] [MonadExceptOf EvalError m] [Monad m']
    [MonadExceptOf EvalError m'] {R : m Value → m' Value → Prop}
    (hpure : ∀ v, R (pure v) (pure v)) (hthrow : ∀ e : EvalError, R (throw e) (throw e))
    (hbind : ∀ {x : m Value} {x' : m' Value} {f : Value → m Value} {f' : Value → m' Value},
      R x x' → (∀ v, R (f v) (f' v)) → R (x >>= f) (x' >>= f'))
    {r : FieldKey → m Value} {s : FieldKey → m' Value} {e : Expr}
    (hread : ∀ k ∈ e.dependencies, R (r k) (s k)) : R (e.eval r) (e.eval s) := by
  -- A result of an operation is a value or an error, so it is related to itself
  have hresult : ∀ r : Evaluated, R (MonadExcept.ofExcept r) (MonadExcept.ofExcept r) := by
    intro r
    cases r with
    | error e => exact hthrow e
    | ok v => exact hpure v
  induction e using eval_induction with
  | literal v => exact hpure v
  | field k t => exact hread k (by simp [dependencies])
  | unary op e t ih => exact hbind (ih hread) fun v => hresult _
  | binary op l r t ihl ihr =>
    simp only [dependencies, KeySet.mem_union] at hread
    have hl := ihl fun k hk => hread k (.inl hk)
    have hr := ihr fun k hk => hread k (.inr hk)
    exact hbind hl fun v => hbind hr fun w => hresult _
  | logical op l r t ihl ihr =>
    simp only [dependencies, KeySet.mem_union] at hread
    have hl := ihl fun k hk => hread k (.inl hk)
    have hr := ihr fun k hk => hread k (.inr hk)
    refine hbind hl fun v => ?_
    -- Both evaluations have the same left value, so both stop here or both go on
    split
    · exact hpure v
    · exact hr
  | cond c y n t ihc ihy ihn =>
    simp only [dependencies, KeySet.mem_union] at hread
    have hc := ihc fun k hk => hread k (.inl (.inl hk))
    have hy := ihy fun k hk => hread k (.inl (.inr hk))
    have hn := ihn fun k hk => hread k (.inr hk)
    refine hbind hc fun v => ?_
    -- Both take the same branch
    split
    · exact hy
    · exact hn
  | external name args t => exact hthrow _

/-- What holds of reading each dependency, and of whatever sequencing makes of operations of which
it holds, holds of an evaluation. -/
theorem eval_closed {m : Type → Type} [Monad m] [MonadExceptOf EvalError m] {P : m Value → Prop}
    (hpure : ∀ v, P (pure v)) (hthrow : ∀ e : EvalError, P (throw e))
    (hbind : ∀ {x : m Value} {f : Value → m Value}, P x → (∀ v, P (f v)) → P (x >>= f))
    {read : FieldKey → m Value} {e : Expr} (hread : ∀ k ∈ e.dependencies, P (read k)) :
    P (e.eval read) :=
  eval_related (R := fun x _ => P x) (s := read) hpure hthrow hbind hread

/-- A rebased expression is evaluated as the original one is where every key is answered as the
rebased key is. -/
theorem eval_rebased {m : Type → Type} [Monad m] [MonadExceptOf EvalError m] (base : String)
    (read : FieldKey → m Value) (e : Expr) :
    (e.rebased base).eval read = e.eval fun k => read (k.rebased base) := by
  induction e using eval_induction with
  | literal v => rfl
  | field k t => rfl
  | unary op e t ih => simp only [rebased, eval, ih]
  | binary op l r t ihl ihr => simp only [rebased, eval, ihl, ihr]
  | logical op l r t ihl ihr => simp only [rebased, eval, ihl, ihr]
  | cond c y n t ihc ihy ihn => simp only [rebased, eval, ihc, ihy, ihn]
  | external name args t => rfl

/-! ### Dependencies -/

variable {source source' : FieldKey → Evaluated}

/-- An evaluation reads nothing but the dependencies. -/
theorem evalWith_congr {e : Expr} (h : ∀ k ∈ e.dependencies, source k = source' k) :
    e.evalWith source = e.evalWith source' := by
  induction e using eval_induction with
  | literal v => rfl
  | field k t => exact h k (by simp [dependencies])
  | unary op e t ih => simp only [evalWith_unary, ih h]
  | binary op l r t ihl ihr =>
    simp only [dependencies, KeySet.mem_union] at h
    simp only [evalWith_binary, ihl fun k hk => h k (.inl hk), ihr fun k hk => h k (.inr hk)]
  | logical op l r t ihl ihr =>
    simp only [dependencies, KeySet.mem_union] at h
    simp only [evalWith_logical, ihl fun k hk => h k (.inl hk), ihr fun k hk => h k (.inr hk)]
  | cond c y n t ihc ihy ihn =>
    simp only [dependencies, KeySet.mem_union] at h
    simp only [evalWith_cond, ihc fun k hk => h k (.inl (.inl hk)),
      ihy fun k hk => h k (.inl (.inr hk)), ihn fun k hk => h k (.inr hk)]
  -- The arguments of an external function are not evaluated
  | external name args t => rfl

/-- A value that was found with one source is found with every source that has the values the
first one had for the dependencies. -/
theorem evalWith_ok_mono {e : Expr} {v : Value}
    (h : ∀ k ∈ e.dependencies, ∀ w, source k = .ok w → source' k = .ok w)
    (hv : e.evalWith source = .ok v) : e.evalWith source' = .ok v := by
  induction e using eval_induction generalizing v with
  | literal => exact hv
  | field k t => exact h k (by simp [dependencies]) v hv
  | unary op e t ih =>
    simp only [evalWith_unary, bind_eq_ok_iff] at hv ⊢
    obtain ⟨w, hw, hop⟩ := hv
    exact ⟨w, ih h hw, hop⟩
  | binary op l r t ihl ihr =>
    simp only [dependencies, KeySet.mem_union] at h
    simp only [evalWith_binary, bind_eq_ok_iff] at hv ⊢
    obtain ⟨a, ha, b, hb, hop⟩ := hv
    exact ⟨a, ihl (fun k hk => h k (.inl hk)) ha, b, ihr (fun k hk => h k (.inr hk)) hb, hop⟩
  | logical op l r t ihl ihr =>
    simp only [dependencies, KeySet.mem_union] at h
    simp only [evalWith_logical, bind_eq_ok_iff] at hv ⊢
    obtain ⟨a, ha, hr⟩ := hv
    refine ⟨a, ihl (fun k hk => h k (.inl hk)) ha, ?_⟩
    -- The value found decides as before which operand is read next
    by_cases hd : op.decides a = true
    · simpa [hd] using hr
    · rw [if_neg hd] at hr ⊢
      exact ihr (fun k hk => h k (.inr hk)) hr
  | cond c y n t ihc ihy ihn =>
    simp only [dependencies, KeySet.mem_union] at h
    simp only [evalWith_cond, bind_eq_ok_iff] at hv ⊢
    obtain ⟨a, ha, hr⟩ := hv
    refine ⟨a, ihc (fun k hk => h k (.inl (.inl hk))) ha, ?_⟩
    -- The same branch is taken with both sources
    by_cases hd : a.isTruthy = true
    · rw [if_pos hd] at hr ⊢
      exact ihy (fun k hk => h k (.inl (.inr hk))) hr
    · rw [if_neg hd] at hr ⊢
      exact ihn (fun k hk => h k (.inr hk)) hr
  | external name args t => exact hv

mutual

/-- The dependencies are the keys of the references. -/
theorem mem_keys_references : ∀ {e : Expr} {k : FieldKey},
    k ∈ KeyMap.keys e.references ↔ k ∈ e.dependencies
  | .literal _, _ => Iff.rfl
  | .field _ _, _ => Iff.rfl
  | .unary _ _ _, _ => by
    rw [references, dependencies]
    exact mem_keys_references
  | .binary _ _ _ _, _ => by
    rw [references, dependencies, KeyMap.keys, List.map_append, List.mem_append, KeySet.mem_union]
    exact or_congr mem_keys_references mem_keys_references
  | .logical _ _ _ _, _ => by
    rw [references, dependencies, KeyMap.keys, List.map_append, List.mem_append, KeySet.mem_union]
    exact or_congr mem_keys_references mem_keys_references
  | .cond _ _ _ _, _ => by
    rw [references, dependencies, KeyMap.keys, List.map_append, List.map_append, List.mem_append,
      List.mem_append, KeySet.mem_union, KeySet.mem_union, or_assoc]
    exact or_congr mem_keys_references (or_congr mem_keys_references mem_keys_references)
  | .external _ _ _, _ => by
    rw [references, dependencies]
    exact mem_keys_argReferences

/-- The same of a list of arguments. -/
theorem mem_keys_argReferences : ∀ {es : List Expr} {k : FieldKey},
    k ∈ KeyMap.keys (argReferences es) ↔ k ∈ argDependencies es
  | [], _ => Iff.rfl
  | _ :: _, _ => by
    rw [argReferences, argDependencies, KeyMap.keys, List.map_append, List.mem_append,
      KeySet.mem_union]
    exact or_congr mem_keys_references mem_keys_argReferences

end

/-- What an expression refers to is a dependency of it. -/
theorem mem_dependencies_of_mem_references {e : Expr} {k : FieldKey} {t : ValueType}
    (h : (k, t) ∈ e.references) : k ∈ e.dependencies :=
  mem_keys_references.1 (List.mem_map_of_mem h)

end Expr

end ReactiveState
