import ReactiveState.Expr.Render
import ReactiveState.Proofs.Expr.Dependencies
import ReactiveState.Proofs.Typing.Soundness
import ReactiveState.Proofs.Value.Equality

/-!
# Rebasing is substitution

Putting an expression under a container replaces every relative key by the key below the base path
and does nothing else (`Built.substitutes`).

* its evaluation is that of the original where every key is answered as the rebased key is
  (`eval_rebased`, with the other laws of evaluation),
* `references_rebased`, `dependencies_rebased`: what it refers to are the rebased keys; two keys
  may become one, so the set of them is made anew,
* `recomposed_rebased`: rebasing and inferring the types of all operations anew can change places,
  errors included.  The rule of an index or an attribute looks at a literal operand, which rebasing
  keeps (`literalText?_rebased`),
* `rebased_eq_self`: absolute expressions stay as they are, and so are equal to themselves unless
  they hold a NaN (`beq_self_iff`).

The proofs go along the syntax tree, with a twin for the arguments of an external function.
-/

namespace ReactiveState

namespace Expr

variable {base : String} {e : Expr}

/-! ### References -/

mutual

/-- Rebasing an expression rebases its references and keeps the types they are read as. -/
theorem references_rebased (base : String) : ∀ e : Expr,
    (e.rebased base).references = e.references.map fun p => (p.1.rebased base, p.2)
  | .literal _ => rfl
  | .field _ _ => rfl
  | .unary _ e _ => references_rebased base e
  | .binary _ l r _ => by
    simp only [rebased, references, List.map_append, references_rebased base l,
      references_rebased base r]
  | .logical _ l r _ => by
    simp only [rebased, references, List.map_append, references_rebased base l,
      references_rebased base r]
  | .cond c y n _ => by
    simp only [rebased, references, List.map_append, references_rebased base c,
      references_rebased base y, references_rebased base n]
  | .external _ args _ => argReferences_rebased base args

/-- The same of a list of arguments. -/
theorem argReferences_rebased (base : String) : ∀ es : List Expr,
    argReferences (rebasedArgs base es) =
      (argReferences es).map fun p => (p.1.rebased base, p.2)
  | [] => rfl
  | e :: es => by
    simp only [rebasedArgs, argReferences, List.map_append, references_rebased base e,
      argReferences_rebased base es]

end

/-- Keys that were different may be the same below the base path, so the set is made anew. -/
theorem dependencies_rebased (base : String) (e : Expr) :
    (e.rebased base).dependencies = KeySet.ofList (e.dependencies.map (·.rebased base)) := by
  refine dependencies_eq_ofList fun k => ?_
  -- The dependencies are the keys of the references, and these are rebased one by one
  rw [← mem_keys_references, references_rebased, KeyMap.keys, List.map_map, List.mem_map,
    List.mem_map]
  constructor
  · rintro ⟨p, hp, rfl⟩
    exact ⟨p.1, mem_dependencies_of_mem_references hp, rfl⟩
  · rintro ⟨k, hk, rfl⟩
    obtain ⟨p, hp, rfl⟩ := List.mem_map.1 (mem_keys_references.2 hk)
    exact ⟨p, hp, rfl⟩

/-- Under a base path no key is left relative. -/
theorem isRelative_of_mem_rebased {k : FieldKey} (hbase : base ≠ "")
    (hk : k ∈ (e.rebased base).dependencies) : k.isRelative = false := by
  rw [dependencies_rebased, KeySet.mem_ofList] at hk
  obtain ⟨k, -, rfl⟩ := List.mem_map.1 hk
  exact FieldKey.isRelative_rebased hbase k

/-- So a rebased expression is not refused for a relative reference. -/
theorem compile_rebased_ne (hbase : base ≠ "") (field : String) :
    (e.rebased base).compile ≠ .error (.relativeReference field) := by
  have hnone : (e.rebased base).dependencies.find? (·.isRelative) = none :=
    List.find?_eq_none.2 fun k hk => by simp [isRelative_of_mem_rebased hbase hk]
  rw [compile, hnone]
  dsimp only
  split <;> exact nofun

/-! ### What rebasing leaves alone -/

mutual

/-- If no key changes, nothing does. -/
theorem rebased_eq_self : ∀ {e : Expr}, (∀ k ∈ e.dependencies, k.rebased base = k) →
    e.rebased base = e
  | .literal _, _ => rfl
  -- The one dependency of a reference is its key
  | .field k _, h => by rw [rebased, h k (List.mem_singleton_self k)]
  | .unary _ _ _, h => by
    rw [dependencies] at h
    rw [rebased, rebased_eq_self h]
  | .binary _ _ _ _, h => by
    simp only [dependencies, KeySet.mem_union] at h
    rw [rebased, rebased_eq_self fun k hk => h k (.inl hk),
      rebased_eq_self fun k hk => h k (.inr hk)]
  | .logical _ _ _ _, h => by
    simp only [dependencies, KeySet.mem_union] at h
    rw [rebased, rebased_eq_self fun k hk => h k (.inl hk),
      rebased_eq_self fun k hk => h k (.inr hk)]
  | .cond _ _ _ _, h => by
    simp only [dependencies, KeySet.mem_union] at h
    rw [rebased, rebased_eq_self fun k hk => h k (.inl (.inl hk)),
      rebased_eq_self fun k hk => h k (.inl (.inr hk)),
      rebased_eq_self fun k hk => h k (.inr hk)]
  | .external _ _ _, h => by
    rw [dependencies] at h
    rw [rebased, rebasedArgs_eq_self h]

/-- The same of a list of arguments. -/
theorem rebasedArgs_eq_self : ∀ {es : List Expr}, (∀ k ∈ argDependencies es, k.rebased base = k) →
    rebasedArgs base es = es
  | [], _ => rfl
  | _ :: _, h => by
    simp only [argDependencies, KeySet.mem_union] at h
    rw [rebasedArgs, rebased_eq_self fun k hk => h k (.inl hk),
      rebasedArgs_eq_self fun k hk => h k (.inr hk)]

end

/-- An expression without relative references is left as it is. -/
theorem rebased_eq_self_of_absolute (base : String)
    (h : ∀ p ∈ e.references, p.1.isRelative = false) : e.rebased base = e := by
  refine rebased_eq_self fun k hk => ?_
  obtain ⟨p, hp, rfl⟩ := List.mem_map.1 (mem_keys_references.2 hk)
  exact FieldKey.rebased_of_not_isRelative base (h p hp)

/-- Once rebased, an expression is not changed by rebasing it again. -/
theorem rebased_rebased (hbase : base ≠ "") (base' : String) (e : Expr) :
    (e.rebased base).rebased base' = e.rebased base :=
  rebased_eq_self fun _ hk =>
    FieldKey.rebased_of_not_isRelative base' (isRelative_of_mem_rebased hbase hk)

/-! ### Equality -/

mutual

/-- No literal inside the expression holds a NaN. -/
def NaNFree : Expr → Prop
  | literal v => v.NaNFree
  | field _ _ => True
  | unary _ e _ => NaNFree e
  | binary _ l r _ => NaNFree l ∧ NaNFree r
  | logical _ l r _ => NaNFree l ∧ NaNFree r
  | cond c y n _ => NaNFree c ∧ NaNFree y ∧ NaNFree n
  | external _ args _ => NaNFreeArgs args

/-- No argument holds a NaN. -/
def NaNFreeArgs : List Expr → Prop
  | [] => True
  | e :: es => NaNFree e ∧ NaNFreeArgs es

end

mutual

/-- An expression equals itself exactly if no NaN is in it, since a NaN equals nothing. -/
theorem beq_self_iff : ∀ e : Expr, beq e e = true ↔ e.NaNFree
  | .literal v => Value.beq_self_iff v
  | .field _ _ => by simp [beq, NaNFree]
  | .unary _ e _ => by simp [beq, NaNFree, beq_self_iff e]
  | .binary _ l r _ => by simp [beq, NaNFree, beq_self_iff l, beq_self_iff r]
  | .logical _ l r _ => by simp [beq, NaNFree, beq_self_iff l, beq_self_iff r]
  | .cond c y n _ => by simp [beq, NaNFree, beq_self_iff c, beq_self_iff y, beq_self_iff n]
  | .external _ args _ => by simp [beq, NaNFree, beqArgs_self_iff args]

/-- The same of a list of arguments. -/
theorem beqArgs_self_iff : ∀ es : List Expr, beqArgs es es = true ↔ NaNFreeArgs es
  | [] => ⟨fun _ => trivial, fun _ => rfl⟩
  | e :: es => by rw [beqArgs, NaNFreeArgs, Bool.and_eq_true, beq_self_iff, beqArgs_self_iff]

end

/-! ### Types -/

mutual

/-- The expression composed anew, the type of every operation inferred from its operands.  Fields
and external functions have the types they were given. -/
def recomposed : Expr → Except CompositionError Expr
  | literal v => return literal v
  | field k t => return field k t
  | unary op e _ => do
    let e ← recomposed e
    let t ← op.resultType e.type
    return unary op e t
  | binary op l r _ => do
    let l ← recomposed l
    let r ← recomposed r
    let t ← op.resultType l.type r.type r.literalText?
    return binary op l r t
  | logical op l r _ => do
    let l ← recomposed l
    let r ← recomposed r
    let t ← op.resultType l.type r.type
    return logical op l r t
  | cond c y n _ => do
    let c ← recomposed c
    let y ← recomposed y
    let n ← recomposed n
    let t ← condType y.type n.type
    return cond c y n t
  | external name args t => do
    let args ← recomposedArgs args
    return external name args t

/-- Every argument composed anew. -/
def recomposedArgs : List Expr → Except CompositionError (List Expr)
  | [] => return []
  | e :: es => do
    let e ← recomposed e
    let es ← recomposedArgs es
    return e :: es

end

/-- A step that comes after a change, and what it makes of the unchanged result, changed. -/
private theorem bind_map {ε α β : Type} {x x' : Except ε α} {f : α → α} {g g' : α → Except ε β}
    {h : β → β} (hx : x' = x.map f) (hg : ∀ a, g' (f a) = (g a).map h) :
    x' >>= g' = (x >>= g).map h := by
  subst hx
  cases x with
  | error e => rfl
  | ok a => exact hg a

mutual

/-- It makes no difference whether an expression is rebased before it is composed anew or after:
the rules look at the types and at literals of the operands, and rebasing keeps both. -/
theorem recomposed_rebased (base : String) : ∀ e : Expr,
    (e.rebased base).recomposed = e.recomposed.map (rebased base)
  | .literal _ => rfl
  | .field _ _ => rfl
  | .unary op e _ => by
    rw [rebased, recomposed, recomposed]
    -- The operand first, then the rule on its type
    refine bind_map (recomposed_rebased base e) fun e => ?_
    rw [type_rebased]
    cases op.resultType e.type <;> rfl
  | .binary op l r _ => by
    rw [rebased, recomposed, recomposed]
    refine bind_map (recomposed_rebased base l) fun l => ?_
    refine bind_map (recomposed_rebased base r) fun r => ?_
    -- An attribute is typed by its literal key as well
    rw [type_rebased, type_rebased, literalText?_rebased]
    cases op.resultType l.type r.type r.literalText? <;> rfl
  | .logical op l r _ => by
    rw [rebased, recomposed, recomposed]
    refine bind_map (recomposed_rebased base l) fun l => ?_
    refine bind_map (recomposed_rebased base r) fun r => ?_
    rw [type_rebased, type_rebased]
    cases op.resultType l.type r.type <;> rfl
  | .cond c y n _ => by
    rw [rebased, recomposed, recomposed]
    refine bind_map (recomposed_rebased base c) fun c => ?_
    refine bind_map (recomposed_rebased base y) fun y => ?_
    refine bind_map (recomposed_rebased base n) fun n => ?_
    rw [type_rebased, type_rebased]
    cases condType y.type n.type <;> rfl
  | .external _ args _ => by
    rw [rebased, recomposed, recomposed]
    exact bind_map (recomposedArgs_rebasedArgs base args) fun _ => rfl

/-- The same of a list of arguments. -/
theorem recomposedArgs_rebasedArgs (base : String) : ∀ es : List Expr,
    recomposedArgs (rebasedArgs base es) = (recomposedArgs es).map (rebasedArgs base)
  | [] => rfl
  | e :: es => by
    rw [rebasedArgs, recomposedArgs, recomposedArgs]
    refine bind_map (recomposed_rebased base e) fun _ => ?_
    exact bind_map (recomposedArgs_rebasedArgs base es) fun _ => rfl

end

/-- An operation on operands that have the types they should have has the type it should have. -/
theorem Composes.recomposed_eq_ok {operands : List Expr} (h : Composes operands e)
    (hoperands : ∀ o ∈ operands, o.recomposed = .ok o) : e.recomposed = .ok e := by
  cases h with
  | unary ht =>
    -- Each operand comes out as it is, so the rule gives the type that it gave
    rw [recomposed, bind_of_eq_ok (hoperands _ (by simp)), bind_of_eq_ok ht]
    rfl
  | binary ht =>
    rw [recomposed, bind_of_eq_ok (hoperands _ (by simp)), bind_of_eq_ok (hoperands _ (by simp)),
      bind_of_eq_ok ht]
    rfl
  | logical ht =>
    rw [recomposed, bind_of_eq_ok (hoperands _ (by simp)), bind_of_eq_ok (hoperands _ (by simp)),
      bind_of_eq_ok ht]
    rfl
  | cond ht =>
    rw [recomposed, bind_of_eq_ok (hoperands _ (by simp)), bind_of_eq_ok (hoperands _ (by simp)),
      bind_of_eq_ok (hoperands _ (by simp)), bind_of_eq_ok ht]
    rfl

/-- Arguments that come out the same one by one do so together. -/
theorem recomposedArgs_eq_ok {args : List Expr} (hargs : ∀ a ∈ args, a.recomposed = .ok a) :
    recomposedArgs args = .ok args := by
  induction args with
  | nil => rfl
  | cons e es ih =>
    obtain ⟨he, hes⟩ := List.forall_mem_cons.1 hargs
    rw [recomposedArgs, bind_of_eq_ok he, bind_of_eq_ok (ih hes)]
    rfl

/-- What was built has the types that the rules give. -/
theorem Built.recomposed_eq_ok (he : e.Built) : e.recomposed = .ok e := by
  induction he with
  | literal hv => rfl
  | field k t => rfl
  | operation htarget hoperands h ih => exact (composes_operation h).recomposed_eq_ok ih
  | call hargs h ih => exact (composes_call h).recomposed_eq_ok ih
  | external name returns hargs ih =>
    rw [recomposed, bind_of_eq_ok (recomposedArgs_eq_ok ih)]
    rfl
  -- Rebasing commutes with composing, so nothing new has to be inferred
  | rebased base he ih =>
    rw [recomposed_rebased, ih]
    rfl

/-! ### Rebasing -/

/-- `e'` is `e` with every relative key put under `base`, and nothing else is different. -/
structure Substitutes (base : String) (e e' : Expr) : Prop where
  /-- With any source it has the result that `e` has where a key is answered as the key below the
  base path is. -/
  eval : ∀ {m : Type → Type} [Monad m] [MonadExceptOf EvalError m] (read : FieldKey → m Value),
    e'.eval read = e.eval fun k => read (k.rebased base)
  /-- The same of sources that are nothing but their answers. -/
  evalWith : ∀ source : FieldKey → Evaluated,
    e'.evalWith source = e.evalWith fun k => source (k.rebased base)
  /-- It refers to the rebased keys, and reads each as the same type. -/
  references : e'.references = e.references.map fun p => (p.1.rebased base, p.2)
  /-- It depends on the rebased keys. -/
  dependencies : e'.dependencies = KeySet.ofList (e.dependencies.map (·.rebased base))
  /-- It has the same type, -/
  type : e'.type = e.type
  /-- which is the one that the rules infer from it. -/
  recomposed : e'.recomposed = .ok e'
  /-- Rebasing again changes nothing. -/
  again : ∀ base', e'.rebased base' = e'
  /-- An absolute expression is left as it is, and so equals itself unless it holds a NaN. -/
  absolute : (∀ p ∈ e.references, p.1.isRelative = false) →
    e' = e ∧ ((e' == e) = true ↔ e.NaNFree)
  /-- It is not refused for a relative reference. -/
  compile : ∀ field, e'.compile ≠ .error (.relativeReference field)

/-- Rebasing an expression substitutes its relative keys. -/
theorem Built.substitutes (he : e.Built) (hbase : base ≠ "") :
    Substitutes base e (e.rebased base) where
  eval read := eval_rebased base read e
  evalWith source := eval_rebased base source e
  references := references_rebased base e
  dependencies := dependencies_rebased base e
  type := type_rebased base e
  recomposed := (he.rebased base).recomposed_eq_ok
  again base' := rebased_rebased hbase base' e
  -- The last part is about the derived equality, which a NaN does not satisfy
  absolute h := by
    rw [rebased_eq_self_of_absolute base h]
    exact ⟨rfl, beq_self_iff e⟩
  compile := compile_rebased_ne hbase

/-- The best of the scores beside the expression, less that of the scores of the game. -/
def lead : Expr :=
  .binary .sub
    (.binary .index (.field (.relative "scores") (.object [("best", .int)]))
      (.literal (.str "best")) .int)
    (.binary .index (.field ⟨"app.game", "scores"⟩ (.object [("best", .int)]))
      (.literal (.str "best")) .int) .int

/-- The example can be built. -/
theorem built_lead : lead.Built :=
  .binary (.binary (.field _ _) (.literal trivial) rfl)
    (.binary (.field _ _) (.literal trivial) rfl)
    rfl

/-- Below the game both keys are the same. -/
example : (lead.rebased "app.game").dependencies = [⟨"app.game", "scores"⟩] := by decide

/-- The example, whose relative key is put under the path of a game. -/
theorem substitutes_lead : lead.Built ∧ "app.game" ≠ "" ∧
    Substitutes "app.game" lead (lead.rebased "app.game") :=
  ⟨built_lead, by decide, built_lead.substitutes (by decide)⟩

end Expr

end ReactiveState
