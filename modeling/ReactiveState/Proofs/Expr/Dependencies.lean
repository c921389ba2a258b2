import ReactiveState.Expr.Typing
import ReactiveState.Proofs.Expr.Evaluation
import ReactiveState.Proofs.KeyMap

/-!
# The dependency set is exact

`Expr.dependencies` is the set of the keys that are referenced, no more and no less, and all that an
evaluation depends on.

* `dependencies_eq_ofList`: the set is known by its members, and so is the set of the references
  (`mem_keys_references`) and the union of the sets of the operands (`Composes.dependencies_eq`),
* `eval_noted`: a source that notes what it is asked for is asked for dependencies only, and
  noting changes nothing,
* `answer_eval_congr`: the answers to the dependencies decide the result, whatever a source does to
  its own state.

A source is asked in the course of an evaluation and may change with every answer, so the facts
about evaluation are instances of `eval_related`: each is a relation that sequencing keeps.
-/

namespace ReactiveState

namespace Expr

variable {e : Expr} {es : List Expr} {k : FieldKey}

/-! ### References -/

mutual

/-- Dependencies are listed in order. -/
theorem sorted_dependencies : ∀ e : Expr, KeySet.Sorted e.dependencies
  | .literal _ => List.Pairwise.nil
  | .field _ _ => List.pairwise_singleton _ _
  | .unary _ e _ => sorted_dependencies e
  | .binary _ l _ _ => KeySet.sorted_union (sorted_dependencies l)
  | .logical _ l _ _ => KeySet.sorted_union (sorted_dependencies l)
  | .cond c _ _ _ => KeySet.sorted_union (KeySet.sorted_union (sorted_dependencies c))
  | .external _ args _ => sorted_argDependencies args

/-- So are those of arguments. -/
theorem sorted_argDependencies : ∀ es : List Expr, KeySet.Sorted (argDependencies es)
  | [] => List.Pairwise.nil
  | e :: _ => KeySet.sorted_union (sorted_dependencies e)

end

/-- A set with the same members is the same set. -/
theorem dependencies_eq_ofList {ks : List FieldKey} (h : ∀ k, k ∈ e.dependencies ↔ k ∈ ks) :
    e.dependencies = KeySet.ofList ks :=
  KeySet.ext_of_sorted (sorted_dependencies e) (KeySet.sorted_ofList ks) fun k => by
    rw [h, KeySet.mem_ofList]

/-- A constant expression is one without references. -/
theorem isConstant_iff_references : e.isConstant = true ↔ e.references = [] := by
  rw [isConstant, List.isEmpty_iff, List.eq_nil_iff_forall_not_mem]
  refine ⟨fun h => ?_, fun h k => ?_⟩
  · have hkeys : KeyMap.keys e.references = [] :=
      List.eq_nil_iff_forall_not_mem.2 fun k hk => h k (mem_keys_references.1 hk)
    exact List.map_eq_nil_iff.1 hkeys
  · rw [← mem_keys_references, h]
    exact List.not_mem_nil

/-! ### Compositions -/

/-- Arguments depend on what one of them depends on. -/
theorem mem_argDependencies : k ∈ argDependencies es ↔ ∃ e ∈ es, k ∈ e.dependencies := by
  induction es with
  | nil => simp [argDependencies]
  | cons e es ih => rw [argDependencies, KeySet.mem_union, ih, List.exists_mem_cons_iff]

/-- What has the dependencies of its operands has their union. -/
private theorem dependencies_eq_union (h : ∀ k, k ∈ e.dependencies ↔ ∃ o ∈ es, k ∈ o.dependencies) :
    e.dependencies = KeySet.ofList (es.flatMap dependencies) :=
  dependencies_eq_ofList fun k => by rw [h, List.mem_flatMap]

/-- The expression is an operation on these operands, with the type that its rule gives. -/
inductive Composes : List Expr → Expr → Prop where
  | unary {op : UnaryOp} {e : Expr} {t : ValueType} (ht : op.resultType e.type = .ok t) :
    Composes [e] (.unary op e t)
  | binary {op : BinaryOp} {l r : Expr} {t : ValueType}
    (ht : op.resultType l.type r.type r.literalText? = .ok t) : Composes [l, r] (.binary op l r t)
  | logical {op : LogicalOp} {l r : Expr} {t : ValueType}
    (ht : op.resultType l.type r.type = .ok t) : Composes [l, r] (.logical op l r t)
  | cond {c y n : Expr} {t : ValueType} (ht : condType y.type n.type = .ok t) :
    Composes [c, y, n] (.cond c y n t)

/-- An operation that was composed has its operands as parts, and the type of its rule. -/
theorem composes_operation {op : Operator} (h : operation op es = .ok e) : Composes es e := by
  unfold operation at h
  -- One case for each number of operands; any other is refused
  split at h
  · obtain ⟨t, ht, h⟩ := bind_eq_ok h
    obtain rfl := Except.ok.inj h
    exact .unary ht
  · obtain ⟨t, ht, h⟩ := bind_eq_ok h
    obtain rfl := Except.ok.inj h
    exact .binary ht
  · obtain ⟨t, ht, h⟩ := bind_eq_ok h
    obtain rfl := Except.ok.inj h
    exact .logical ht
  · obtain ⟨t, ht, h⟩ := bind_eq_ok h
    obtain rfl := Except.ok.inj h
    exact .cond ht
  · cases h

/-- So has a call of a builtin function. -/
theorem composes_call {name : String} (h : call name es = .ok e) : Composes es e := by
  unfold call at h
  split at h
  · cases h
  · split at h
    · obtain ⟨t, ht, h⟩ := bind_eq_ok h
      obtain rfl := Except.ok.inj h
      exact .unary ht
    · cases h
  · split at h
    · obtain ⟨t, ht, h⟩ := bind_eq_ok h
      obtain rfl := Except.ok.inj h
      exact .binary ht
    · cases h

/-- An operation depends on what its operands depend on. -/
theorem Composes.dependencies_eq (h : Composes es e) :
    e.dependencies = KeySet.ofList (es.flatMap dependencies) := by
  refine dependencies_eq_union fun k => ?_
  cases h <;> simp [dependencies, KeySet.mem_union, or_assoc]

/-- A call of an external function depends on what its arguments depend on. -/
theorem dependencies_external (name : String) (args : List Expr) (t : ValueType) :
    (external name args t).dependencies = KeySet.ofList (args.flatMap dependencies) :=
  dependencies_eq_union fun _ => mem_argDependencies

end Expr

/-! ### Sources -/

/-- A source of answers that may change with every answer, as one that fills a cache does. -/
abbrev Source (σ : Type) := FieldKey → ExceptT EvalError (StateM σ) Value

namespace Source

variable {σ : Type}

/-- The answer that a reading, or an evaluation with readings, gives in a state of the source. -/
def answer (x : ExceptT EvalError (StateM σ) Value) (s : σ) : Evaluated := (x.run s).1

/-- The source, which also notes every field that it is asked for. -/
def noted (source : Source σ) : Source (σ × List FieldKey) := fun k =>
  ExceptT.mk fun (s, asked) => (((source k).run s).1, ((source k).run s).2, asked ++ [k])

end Source

namespace Expr

variable {e : Expr} {σ σ' : Type}

/-- The evaluation with notes does as the one without, and notes only fields that satisfy `p`. -/
private def Notes (p : FieldKey → Prop)
    (x : ExceptT EvalError (StateM (σ × List FieldKey)) Value)
    (y : ExceptT EvalError (StateM σ) Value) : Prop :=
  ∀ s asked, ∃ more, (∀ k ∈ more, p k) ∧
    x.run (s, asked) = ((y.run s).1, (y.run s).2, asked ++ more)

/-- Notes of one step after another are kept one after another. -/
private theorem Notes.bind {p : FieldKey → Prop}
    {x : ExceptT EvalError (StateM (σ × List FieldKey)) Value}
    {y : ExceptT EvalError (StateM σ) Value}
    {f : Value → ExceptT EvalError (StateM (σ × List FieldKey)) Value}
    {g : Value → ExceptT EvalError (StateM σ) Value} (hx : Notes p x y)
    (hf : ∀ v, Notes p (f v) (g v)) : Notes p (x >>= f) (y >>= g) := by
  intro s asked
  obtain ⟨more, hmore, hrun⟩ := hx s asked
  -- An error ends both runs; otherwise the second part adds its notes behind the first
  rcases hy : y.run s with ⟨e | v, s'⟩
  · rw [hy] at hrun
    exact ⟨more, hmore, by rw [run_bind_error hrun, run_bind_error hy]⟩
  · rw [hy] at hrun
    obtain ⟨more', hmore', hrun'⟩ := hf v s' (asked ++ more)
    refine ⟨more ++ more', ?_, ?_⟩
    · exact List.forall_mem_append.2 ⟨hmore, hmore'⟩
    · rw [run_bind_ok hrun, run_bind_ok hy, hrun', List.append_assoc]

/-- A source is asked for dependencies only, and noting what it is asked for changes nothing. -/
theorem eval_noted (e : Expr) (source : Source σ) (s : σ) (asked : List FieldKey) :
    ∃ more, (∀ k ∈ more, k ∈ e.dependencies) ∧ (e.eval source.noted).run (s, asked) =
      (((e.eval source).run s).1, ((e.eval source).run s).2, asked ++ more) := by
  -- An outcome that is given at once asks for nothing
  have hdone : ∀ r : Evaluated, Notes (σ := σ) (· ∈ e.dependencies)
      (MonadExcept.ofExcept r) (MonadExcept.ofExcept r) := by
    intro r s asked
    refine ⟨[], nofun, ?_⟩
    rw [run_ofExcept, run_ofExcept, List.append_nil]
  -- Here the log gets its entry
  have hread : ∀ k ∈ e.dependencies, Notes (· ∈ e.dependencies) (source.noted k) (source k) :=
    fun k hk s asked => ⟨[k], List.forall_mem_singleton.2 hk, rfl⟩
  exact eval_related (fun v => hdone (.ok v)) (fun e => hdone (.error e)) Notes.bind hread s asked

/-- A conditional asks for its condition and for one branch. -/
example : ((cond (field ⟨"app", "open"⟩ .bool) (field ⟨"app", "left"⟩ .bool)
    (field ⟨"app", "right"⟩ .bool) .bool).eval
      (Source.noted fun _ => (pure (.bool true) : ExceptT EvalError (StateM Unit) Value))).run
        ((), []) = (.ok (.bool true), (), [⟨"app", "open"⟩, ⟨"app", "left"⟩]) := rfl

/-- A source with fixed answers for the dependencies gives the result that these answers give. -/
theorem answer_eval_fixed {source : Source σ} {fixed : FieldKey → Evaluated}
    (h : ∀ k ∈ e.dependencies, ∀ s, Source.answer (source k) s = fixed k) (s : σ) :
    Source.answer (e.eval source) s = e.evalWith fixed := by
  refine eval_related (R := fun x y => ∀ s, Source.answer x s = y) (fun v s => rfl)
    (fun e s => rfl) ?_ h s
  intro x y f g hx hf s
  have hy := hx s
  unfold Source.answer at hy hf ⊢
  -- The state of the source may be another one by now, but it answers dependencies as before
  rcases hrun : x.run s with ⟨e | v, t⟩ <;> rw [hrun] at hy <;> subst hy
  · rw [run_bind_error hrun]
    rfl
  · rw [run_bind_ok hrun]
    exact hf v t

/-- Sources that give the dependencies the same answers, whatever state either is in, give the
same result. -/
theorem answer_eval_congr {source : Source σ} {source' : Source σ'}
    (h : ∀ k ∈ e.dependencies, ∀ s s', Source.answer (source k) s = Source.answer (source' k) s')
    (s : σ) (s' : σ') :
    Source.answer (e.eval source) s = Source.answer (e.eval source') s' := by
  have hsource : ∀ k ∈ e.dependencies, ∀ t,
      Source.answer (source k) t = Source.answer (source' k) s' := fun k hk t => h k hk t s'
  -- The second source has fixed answers too, for the first one has
  have hsource' : ∀ k ∈ e.dependencies, ∀ t,
      Source.answer (source' k) t = Source.answer (source' k) s' :=
    fun k hk t => (h k hk s t).symm.trans (h k hk s s')
  rw [answer_eval_fixed hsource, answer_eval_fixed hsource']

/-- An expression without dependencies has one result, with every source. -/
theorem answer_eval_of_isConstant (h : e.isConstant = true) (source : Source σ) (s : σ) :
    Source.answer (e.eval source) s = e.evalConstant := by
  have hnone : e.dependencies = [] := List.isEmpty_iff.1 h
  refine answer_eval_fixed (fun k hk => ?_) s
  rw [hnone] at hk
  exact absurd hk List.not_mem_nil

/-- The dependency set is what the expression refers to, and all that its value depends on. -/
structure DependsExactly (e : Expr) : Prop where
  /-- The set holds the keys that are referenced. -/
  keys : e.dependencies = KeySet.ofList (KeyMap.keys e.references)
  /-- An expression is constant if it refers to no field. -/
  constant : e.isConstant = true ↔ e.references = []
  /-- An operation depends on what its operands depend on. -/
  operation : ∀ op operands, Expr.operation op operands = .ok e →
    e.dependencies = KeySet.ofList (operands.flatMap dependencies)
  /-- So does a call of a function, -/
  call : ∀ name args, Expr.call name args = .ok e →
    e.dependencies = KeySet.ofList (args.flatMap dependencies)
  /-- and of one that only the client has. -/
  external : ∀ name args t, e = .external name args t →
    e.dependencies = KeySet.ofList (args.flatMap dependencies)
  /-- Whatever a source does to its own state, it is asked for dependencies only. -/
  asked : ∀ {σ : Type} (source : Source σ) (s : σ), ∃ asked, (∀ k ∈ asked, k ∈ e.dependencies) ∧
    (e.eval source.noted).run (s, []) =
      (((e.eval source).run s).1, ((e.eval source).run s).2, asked)
  /-- Two sources with the same fixed answers for the dependencies give the same result. -/
  answers : ∀ {σ σ' : Type} (source : Source σ) (source' : Source σ'),
    (∀ k ∈ e.dependencies, ∀ s s', Source.answer (source k) s = Source.answer (source' k) s') →
      ∀ s s', Source.answer (e.eval source) s = Source.answer (e.eval source') s'
  /-- The same of sources that are nothing but their answers. -/
  values : ∀ source source' : FieldKey → Evaluated,
    (∀ k ∈ e.dependencies, source k = source' k) → e.evalWith source = e.evalWith source'
  /-- A constant expression has one result, with any source and without fields. -/
  evalConstant : e.isConstant = true →
    (∀ {σ : Type} (source : Source σ) (s : σ),
      Source.answer (e.eval source) s = e.evalConstant) ∧
    ∀ source : FieldKey → Evaluated, e.evalWith source = e.evalConstant

/-- Every expression has an exact dependency set, however it was built. -/
theorem dependsExactly (e : Expr) : e.DependsExactly where
  keys := dependencies_eq_ofList fun _ => mem_keys_references.symm
  constant := isConstant_iff_references
  operation _ _ h := (composes_operation h).dependencies_eq
  call _ _ h := (composes_call h).dependencies_eq
  external := by
    rintro name args t rfl
    exact dependencies_external name args t
  asked source s := eval_noted e source s []
  answers _ _ h := answer_eval_congr h
  values _ _ h := evalWith_congr h
  -- Without dependencies any two sources answer alike
  evalConstant h := by
    refine ⟨answer_eval_of_isConstant h, fun source => evalWith_congr fun k hk => ?_⟩
    rw [List.isEmpty_iff.1 h] at hk
    exact absurd hk List.not_mem_nil

end Expr

end ReactiveState
