import ReactiveState.Proofs.Expr.Evaluation
import ReactiveState.Proofs.Typing.Operators

/-!
# Evaluation keeps the types

`Built.eval_sound`: an expression of concrete types, evaluated with a source that has a value of the
right type for every reference, gives a value of its own type or fails with an error that no type
rules out.  The source may change with every answer.  The one failure that is a matter of kinds
comes from a comparison of two numbers that are in no order (`FailsUnordered`).

What the constructors make is `WellTyped`: the type at every node is the one that the rule of its
operator gives.  The proof is by induction along the evaluation.
-/

namespace ReactiveState

namespace Expr

mutual

/-- The expression and all expressions inside it. -/
def subexpressions : Expr → List Expr
  | literal v => [literal v]
  | field k t => [field k t]
  | unary op e t => unary op e t :: subexpressions e
  | binary op l r t => binary op l r t :: (subexpressions l ++ subexpressions r)
  | logical op l r t => logical op l r t :: (subexpressions l ++ subexpressions r)
  | cond c y n t => cond c y n t :: (subexpressions c ++ (subexpressions y ++ subexpressions n))
  | external name args t => external name args t :: argSubexpressions args

/-- The arguments and all expressions inside them. -/
def argSubexpressions : List Expr → List Expr
  | [] => []
  | e :: es => subexpressions e ++ argSubexpressions es

end

/-- The expressions that the constructors make. -/
inductive Built : Expr → Prop where
  | literal {v : Value} (hv : v.WellFormed) : Built (.literal v)
  | field (k : FieldKey) (t : ValueType) : Built (.field k t)
  | operation {op : Operator} {operands : List Expr} {e : Expr}
    (htarget : ∀ target, op = .unary (.annotate target) → target.WellFormed)
    (hoperands : ∀ o ∈ operands, Built o) (h : operation op operands = .ok e) : Built e
  | call {name : String} {args : List Expr} {e : Expr} (hargs : ∀ a ∈ args, Built a)
    (h : call name args = .ok e) : Built e
  | external (name : String) {args : List Expr} (returns : ValueType)
    (hargs : ∀ a ∈ args, Built a) : Built (.external name args returns)
  | rebased (base : String) {e : Expr} (he : Built e) : Built (e.rebased base)

/-- The type at every node that is evaluated is the one that its operator gives. -/
def WellTyped : Expr → Prop
  | literal v => v.WellFormed
  | field _ _ => True
  | unary op e t => WellTyped e ∧ op.resultType e.type = .ok t ∧
    ∀ target, op = .annotate target → target.WellFormed
  | binary op l r t =>
    WellTyped l ∧ WellTyped r ∧ op.resultType l.type r.type r.literalText? = .ok t
  | logical op l r t => WellTyped l ∧ WellTyped r ∧ op.resultType l.type r.type = .ok t
  | cond c y n t => WellTyped c ∧ WellTyped y ∧ WellTyped n ∧ condType y.type n.type = .ok t
  | external _ _ _ => True

variable {e e' : Expr} {t : ValueType} {v w : Value}

/-! ### Building -/

/-- Rebasing leaves a literal key as it is. -/
theorem literalText?_rebased (base : String) (e : Expr) :
    (e.rebased base).literalText? = e.literalText? := by
  cases e <;> rfl

/-- An expression with a literal text is a literal. -/
theorem literalText?_eq_some {name : String} (h : e.literalText? = some name) :
    e = .literal (.str name) := by
  unfold literalText? at h
  split at h
  · rw [Option.some.inj h]
  · cases h

/-- A rebased expression has the types it had, which are still the right ones. -/
theorem WellTyped.rebased (base : String) : ∀ {e : Expr}, e.WellTyped → (e.rebased base).WellTyped
  | .literal _, h => h
  | .field _ _, _ => trivial
  | .unary _ _ _, ⟨he, ht⟩ => ⟨he.rebased base, by rwa [type_rebased]⟩
  | .binary _ _ _ _, ⟨hl, hr, ht⟩ =>
    ⟨hl.rebased base, hr.rebased base, by rwa [type_rebased, type_rebased, literalText?_rebased]⟩
  | .logical _ _ _ _, ⟨hl, hr, ht⟩ =>
    ⟨hl.rebased base, hr.rebased base, by rwa [type_rebased, type_rebased]⟩
  | .cond _ _ _ _, ⟨hc, hy, hn, ht⟩ =>
    ⟨hc.rebased base, hy.rebased base, hn.rebased base, by rwa [type_rebased, type_rebased]⟩
  | .external _ _ _, _ => trivial

/-- An operation that was composed has the type of its rule. -/
theorem wellTyped_operation {op : Operator} {operands : List Expr}
    (htarget : ∀ target, op = .unary (.annotate target) → target.WellFormed)
    (hoperands : ∀ o ∈ operands, o.WellTyped) (h : operation op operands = .ok e) :
    e.WellTyped := by
  -- Each number of operands has its own rule; any other number is refused
  unfold operation at h
  split at h
  · obtain ⟨t, ht, h⟩ := bind_eq_ok h
    obtain rfl := Except.ok.inj h
    exact ⟨hoperands _ (by simp), ht, fun target heq => htarget target (by rw [heq])⟩
  · obtain ⟨t, ht, h⟩ := bind_eq_ok h
    obtain rfl := Except.ok.inj h
    exact ⟨hoperands _ (by simp), hoperands _ (by simp), ht⟩
  · obtain ⟨t, ht, h⟩ := bind_eq_ok h
    obtain rfl := Except.ok.inj h
    exact ⟨hoperands _ (by simp), hoperands _ (by simp), ht⟩
  · obtain ⟨t, ht, h⟩ := bind_eq_ok h
    obtain rfl := Except.ok.inj h
    exact ⟨hoperands _ (by simp), hoperands _ (by simp), hoperands _ (by simp), ht⟩
  · cases h

/-- So has a call of a builtin function. -/
theorem wellTyped_call {name : String} {args : List Expr} (hargs : ∀ a ∈ args, a.WellTyped)
    (h : call name args = .ok e) : e.WellTyped := by
  unfold call at h
  split at h
  · cases h
  · -- With one argument it is a function of one, with two a function of two
    split at h
    · obtain ⟨t, ht, h⟩ := bind_eq_ok h
      obtain rfl := Except.ok.inj h
      exact ⟨hargs _ (by simp), ht, nofun⟩
    · cases h
  · split at h
    · obtain ⟨t, ht, h⟩ := bind_eq_ok h
      obtain rfl := Except.ok.inj h
      exact ⟨hargs _ (by simp), hargs _ (by simp), ht⟩
    · cases h

/-- An operation on one operand can be built if its rule gives the type. -/
theorem Built.unary {op : UnaryOp} (he : e.Built)
    (htarget : ∀ target, op = .annotate target → target.WellFormed)
    (h : op.resultType e.type = .ok t) : (unary op e t).Built := by
  have hop : Expr.operation (.unary op) [e] = .ok (.unary op e t) := by
    rw [Expr.operation, h]
    rfl
  exact .operation (fun target heq => htarget target (Operator.unary.inj heq))
    (List.forall_mem_singleton.2 he) hop

/-- So can one on two operands. -/
theorem Built.binary {op : BinaryOp} (he : e.Built) (he' : e'.Built)
    (h : op.resultType e.type e'.type e'.literalText? = .ok t) : (binary op e e' t).Built := by
  have hop : Expr.operation (.binary op) [e, e'] = .ok (.binary op e e' t) := by
    rw [Expr.operation, h]
    rfl
  exact .operation (by simp) (List.forall_mem_cons.2 ⟨he, List.forall_mem_singleton.2 he'⟩) hop

/-- All operations in a built expression have the types of their rules. -/
theorem Built.wellTyped (h : e.Built) : e.WellTyped := by
  induction h with
  | literal hv => exact hv
  | field k t => trivial
  | operation htarget _ h ih => exact wellTyped_operation htarget ih h
  | call _ h ih => exact wellTyped_call ih h
  | external name returns _ _ => trivial
  | rebased base _ ih => exact ih.rebased base

/-! ### Subexpressions -/

/-- An expression is one of its own parts. -/
theorem mem_subexpressions_self (e : Expr) : e ∈ e.subexpressions := by
  cases e <;> simp [subexpressions]

/-! ### Evaluation -/

variable {σ : Type} {read : FieldKey → ExceptT EvalError (StateM σ) Value} {s : σ}

/-- The error of a comparison inside the expression whose operands came out as two numbers that are
in no order. -/
inductive FailsUnordered (read : FieldKey → ExceptT EvalError (StateM σ) Value) (e : Expr) :
    EvalError → Prop where
  | comparison {op : BinaryOp} {l r : Expr} {t : ValueType} {v w : Value} {s₁ s₂ s₃ : σ}
    (hmem : .binary op l r t ∈ e.subexpressions) (hl : (l.eval read).run s₁ = (.ok v, s₂))
    (hr : (r.eval read).run s₂ = (.ok w, s₃)) (h : Unordered op v w) :
    FailsUnordered read e (.invalidOperand op.symbol v.kind)

/-- The result is a value of the type, an error that types do not rule out, or that of a comparison
at a NaN. -/
def Safe (read : FieldKey → ExceptT EvalError (StateM σ) Value) (e : Expr) (t : ValueType)
    (o : Evaluated) : Prop :=
  t.Delivers o ∨ ∃ err, o = .error err ∧ FailsUnordered read e err

/-- A safe result that is a value has the type. -/
theorem Safe.accepts (h : Safe read e t (.ok v)) : t.Accepts v :=
  h.resolve_right nofun

/-- The error of a part is one of the whole. -/
theorem Safe.error {t' : ValueType} {err : EvalError} (h : Safe read e t (.error err))
    (hsub : e.subexpressions ⊆ e'.subexpressions) : Safe read e' t' (.error err) := by
  rcases h with h | ⟨_, heq, h⟩
  · exact .inl h
  · cases heq
    -- The comparison that failed is a part of the whole as well
    obtain ⟨hmem, hl, hr, h⟩ := h
    exact .inr ⟨_, rfl, .comparison (hsub hmem) hl hr h⟩

/-- What the choice of a part gives is safe for the whole. -/
theorem Safe.imp {t' : ValueType} {o : Evaluated} (h : Safe read e t o)
    (hsub : e.subexpressions ⊆ e'.subexpressions) (ht : ∀ v, t.Accepts v → t'.Accepts v) :
    Safe read e' t' o := by
  cases o with
  | ok v => exact .inl (ht v h.accepts)
  | error err => exact h.error hsub

/-- A part is evaluated, and then the whole goes on with its value. -/
theorem Safe.bind {t' : ValueType} {x : ExceptT EvalError (StateM σ) Value}
    {f : Value → ExceptT EvalError (StateM σ) Value} (hx : Safe read e t (x.run s).1)
    (hsub : e.subexpressions ⊆ e'.subexpressions)
    (hf : ∀ v s', x.run s = (.ok v, s') → t.Accepts v → Safe read e' t' ((f v).run s').1) :
    Safe read e' t' ((x >>= f).run s).1 := by
  -- An error of the part is the error of the whole
  rcases hrun : x.run s with ⟨err | v, s'⟩
  · rw [hrun] at hx
    rw [run_bind_error hrun]
    exact hx.error hsub
  · rw [hrun] at hx
    rw [run_bind_ok hrun]
    exact hf v s' hrun hx.accepts

/-- An operation on one operand is safe if its operand is. -/
theorem safe_unary {op : UnaryOp} (ht : op.resultType e.type = .ok t)
    (htarget : ∀ target, op = .annotate target → target.WellFormed)
    (ha : e.type.isConcrete = true) (hself : t.isConcrete = true)
    (he : Safe read e e.type ((e.eval read).run s).1) :
    Safe read (.unary op e t) t (((unary op e t).eval read).run s).1 := by
  rw [eval]
  refine he.bind (List.subset_cons_self _ _) fun v s' _ hv => ?_
  rw [run_ofExcept]
  exact .inl (op.apply_delivers ht htarget ha hself hv)

variable {c l r y n : Expr}

/-- One on two operands is safe if both are, whatever state the first one leaves. -/
theorem safe_binary {op : BinaryOp} (ht : op.resultType l.type r.type r.literalText? = .ok t)
    (ha : l.type.isConcrete = true) (hb : r.type.isConcrete = true) (hself : t.isConcrete = true)
    (hl : Safe read l l.type ((l.eval read).run s).1)
    (hr : ∀ s', Safe read r r.type ((r.eval read).run s').1) :
    Safe read (.binary op l r t) t (((binary op l r t).eval read).run s).1 := by
  rw [eval]
  refine hl.bind (fun sub hm => by simp [subexpressions, hm]) fun v s₂ hrunl hv => ?_
  refine (hr s₂).bind (fun sub hm => by simp [subexpressions, hm]) fun w s₃ hrunr hw => ?_
  -- The key that the rule looked at is the value of the right operand
  have hkey : ∀ name, r.literalText? = some name → w = .str name := by
    intro name hname
    rw [literalText?_eq_some hname] at hrunr
    cases hrunr
    rfl
  rw [run_ofExcept]
  rcases op.apply_delivers hkey ht ha hb hself hv hw with hdelivers | ⟨hunordered, herror⟩
  · exact .inl hdelivers
  · exact .inr ⟨_, herror, .comparison (mem_subexpressions_self _) hrunl hrunr hunordered⟩

/-- So are `and` and `or`, whose second operand may not be evaluated. -/
theorem safe_logical {op : LogicalOp} (ht : op.resultType l.type r.type = .ok t)
    (hl : Safe read l l.type ((l.eval read).run s).1)
    (hr : ∀ s', Safe read r r.type ((r.eval read).run s').1) :
    Safe read (.logical op l r t) t (((logical op l r t).eval read).run s).1 := by
  rw [eval]
  refine hl.bind (fun sub hm => by simp [subexpressions, hm]) fun v s₂ _ hv => ?_
  split
  · -- The left operand decides, and is the result
    next hd => exact .inl (LogicalOp.accepts_left ht hv hd)
  · exact (hr s₂).imp (fun sub hm => by simp [subexpressions, hm]) fun w hw =>
      LogicalOp.accepts_right ht hw

/-- The condition may be of any type, since every value is true or false. -/
theorem safe_cond (ht : condType y.type n.type = .ok t)
    (hc : Safe read c c.type ((c.eval read).run s).1)
    (hy : ∀ s', Safe read y y.type ((y.eval read).run s').1)
    (hn : ∀ s', Safe read n n.type ((n.eval read).run s').1) :
    Safe read (.cond c y n t) t (((cond c y n t).eval read).run s).1 := by
  rw [eval]
  -- An error of the condition is one of its parts
  refine hc.bind (fun sub hm => by simp [subexpressions, hm]) fun v s₂ _ _ => ?_
  split
  · exact (hy s₂).imp (fun sub hm => by simp [subexpressions, hm]) (condType_accepts ht).1
  · exact (hn s₂).imp (fun sub hm => by simp [subexpressions, hm]) (condType_accepts ht).2

/-- A well-typed expression of concrete types is safe with a source of well-typed values, by
induction along the evaluation. -/
theorem WellTyped.eval_safe (he : e.WellTyped)
    (hconcrete : ∀ sub ∈ e.subexpressions, sub.type.isConcrete = true)
    (hread : ∀ k t, (k, t) ∈ e.references → ∀ s, ∃ v s', (read k).run s = (.ok v, s') ∧ t.Accepts v)
    (s : σ) : Safe read e e.type ((e.eval read).run s).1 := by
  induction e using eval_induction generalizing s with
  | literal v => exact .inl (ValueType.accepts_ofValue he)
  | field k t =>
    obtain ⟨v, s', hrun, hv⟩ := hread k t (List.mem_singleton_self _) s
    rw [eval, hrun]
    exact .inl hv
  | unary op e t ih =>
    obtain ⟨he, ht, htarget⟩ := he
    simp only [subexpressions, List.forall_mem_cons] at hconcrete
    obtain ⟨hself, hconcrete⟩ := hconcrete
    -- The operand is concrete, being one of its own subexpressions
    have ha := hconcrete e (mem_subexpressions_self e)
    exact safe_unary ht htarget ha hself (ih he hconcrete hread s)
  | binary op l r t ihl ihr =>
    obtain ⟨hl, hr, ht⟩ := he
    simp only [subexpressions, List.forall_mem_cons, List.forall_mem_append] at hconcrete
    simp only [references, List.mem_append] at hread
    obtain ⟨hself, hconcretel, hconcreter⟩ := hconcrete
    have ha := hconcretel l (mem_subexpressions_self l)
    have hb := hconcreter r (mem_subexpressions_self r)
    exact safe_binary ht ha hb hself (ihl hl hconcretel (fun k t hm => hread k t (.inl hm)) s)
      (ihr hr hconcreter fun k t hm => hread k t (.inr hm))
  | logical op l r t ihl ihr =>
    obtain ⟨hl, hr, ht⟩ := he
    simp only [subexpressions, List.forall_mem_cons, List.forall_mem_append] at hconcrete
    simp only [references, List.mem_append] at hread
    obtain ⟨-, hconcretel, hconcreter⟩ := hconcrete
    exact safe_logical ht (ihl hl hconcretel (fun k t hm => hread k t (.inl hm)) s)
      (ihr hr hconcreter fun k t hm => hread k t (.inr hm))
  | cond c y n t ihc ihy ihn =>
    obtain ⟨hc, hy, hn, ht⟩ := he
    simp only [subexpressions, List.forall_mem_cons, List.forall_mem_append] at hconcrete
    simp only [references, List.mem_append] at hread
    obtain ⟨-, hconcretec, hconcretey, hconcreten⟩ := hconcrete
    exact safe_cond ht (ihc hc hconcretec (fun k t hm => hread k t (.inl hm)) s)
      (ihy hy hconcretey fun k t hm => hread k t (.inr (.inl hm)))
      (ihn hn hconcreten fun k t hm => hread k t (.inr (.inr hm)))
  | external name args t => exact .inl rfl

/-- An expression that was built, all of whose parts have concrete types, gives a value of its type
or an error that types do not rule out.  Only a comparison at a NaN meets an invalid operand, and no
field is unknown. -/
theorem Built.eval_sound (he : e.Built)
    (hconcrete : ∀ sub ∈ e.subexpressions, sub.type.isConcrete = true)
    (hread : ∀ k t, (k, t) ∈ e.references → ∀ s, ∃ v s', (read k).run s = (.ok v, s') ∧ t.Accepts v)
    (s : σ) :
    (∃ v, ((e.eval read).run s).1 = .ok v ∧ e.type.Accepts v) ∨
      ∃ err, ((e.eval read).run s).1 = .error err ∧
        (err.isDynamic = true ∨ FailsUnordered read e err) := by
  have hsafe := he.wellTyped.eval_safe hconcrete hread s
  -- A safe outcome is a value of the type or one of the errors, which is the claim in other words
  cases ho : ((e.eval read).run s).1 with
  | ok v =>
    rw [ho] at hsafe
    exact .inl ⟨v, rfl, hsafe.accepts⟩
  | error err =>
    rw [ho] at hsafe
    refine .inr ⟨err, rfl, Or.imp id (fun ⟨err', heq, h⟩ => ?_) hsafe⟩
    cases heq
    exact h

/-- A list at an index. -/
def itemAt : Expr :=
  .binary .index (.field (.relative "items") (.sequence .int)) (.field (.relative "at") .int) .int

/-- A source that counts what is read from it and gives the number so far as the index. -/
def counting (k : FieldKey) : ExceptT EvalError (StateM Nat) Value := do
  let n ← modifyGet fun n : Nat => (n, n + 1)
  return if k.field = "at" then .int (Int64.ofNat n) else .list [.int 5, .int 6]

/-- The second item, since the list was read before the index. -/
theorem eval_sound_itemAt : ∃ v, ((itemAt.eval counting).run 0).1 = .ok v ∧ v = .int 6 ∧
    ValueType.int.Accepts v := by
  have hbuilt : itemAt.Built := .operation (by simp) (by simp [Built.field])
    (show operation (.binary .index)
      [.field (.relative "items") (.sequence .int), .field (.relative "at") .int] = _ from rfl)
  -- Whatever was read before, the index is an integer and the items are a list
  have hread : ∀ k t, (k, t) ∈ itemAt.references →
      ∀ n, ∃ v n', (counting k).run n = (.ok v, n') ∧ t.Accepts v := by
    intro k t hm n
    simp only [itemAt, references, List.cons_append, List.nil_append, List.mem_cons, Prod.mk.injEq,
      List.not_mem_nil, or_false] at hm
    rcases hm with ⟨rfl, rfl⟩ | ⟨rfl, rfl⟩
    · exact ⟨_, _, rfl, rfl⟩
    · exact ⟨_, _, rfl, rfl⟩
  rcases hbuilt.eval_sound (by decide) hread 0 with ⟨v, hv, haccepts⟩ | ⟨err, herr, -⟩
  · exact ⟨v, hv, (Except.ok.inj (hv.symm.trans rfl)), haccepts⟩
  · cases herr

end Expr

end ReactiveState
