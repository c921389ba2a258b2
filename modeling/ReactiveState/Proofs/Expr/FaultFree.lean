import ReactiveState.Proofs.Expr.Checked
import ReactiveState.Proofs.Typing.Soundness

/-!
# Evaluation never breaks down

The constructors of expressions check the number of operands and keep them, rebasing leaves them as
they are, and no operation breaks down.  So an expression that was composed never asks for an
operand that is not there: it evaluates without a fault to what `Expr.eval` gives
(`Expr.Composed.run_eq`).
-/

namespace ReactiveState

/-! ### Rebasing -/

section Rebased

variable {m : Type → Type} [Monad m] [MonadExceptOf EvalError m]

namespace Term

mutual

/-- Rebasing a term rebases what it reads, and changes nothing about how it breaks down. -/
theorem run_rebased (base : String) (read : FieldKey → m Value) :
    ∀ t : Term, (t.rebased base).run read = t.run fun k => read (k.rebased base)
  | .literal _ => rfl
  | .field _ => rfl
  | .operation op ts => by
    simp only [rebased, run]
    -- Logical operations and conditionals take operands one by one, all other operations take all
    -- of them
    split
    · simp only [runAt_rebasedAll base read ts]
    · simp only [runAt_rebasedAll base read ts]
    · simp only [runAll_rebasedAll base read ts]
  | .call f ts => by simp only [rebased, run, runAll_rebasedAll base read ts]
  | .external _ _ => rfl

/-- The same of operands that are all evaluated. -/
theorem runAll_rebasedAll (base : String) (read : FieldKey → m Value) :
    ∀ ts : List Term, runAll read (rebasedAll base ts) = runAll (fun k => read (k.rebased base)) ts
  | [] => rfl
  | t :: ts => by
    simp only [rebasedAll, runAll, run_rebased base read t, runAll_rebasedAll base read ts]

/-- The same of one operand among several. -/
theorem runAt_rebasedAll (base : String) (read : FieldKey → m Value) :
    ∀ (ts : List Term) (i : Nat),
      runAt read (rebasedAll base ts) i = runAt (fun k => read (k.rebased base)) ts i
  | [], _ => rfl
  | t :: _, 0 => run_rebased base read t
  | _ :: ts, i + 1 => runAt_rebasedAll base read ts i

end

end Term

end Rebased

/-! ### Terms -/

namespace Term

section Run

variable {m : Type → Type} [Monad m] [LawfulMonad m] [MonadExceptOf EvalError m]
  {read : FieldKey → m Value}

/-- The term has a value, or an error, without a fault: the outcome of `x`. -/
def Yields (read : FieldKey → m Value) (t : Term) (x : m Value) : Prop :=
  t.run read = ExceptT.lift x

/-- An operation on one operand takes the operand at index zero. -/
theorem yields_unary {op : UnaryOp} {t : Term} {x : m Value} (h : t.Yields read x) :
    (operation (.unary op) [t]).Yields read (do
      let v ← x
      MonadExcept.ofExcept (op.apply v)) := by
  simp only [Yields] at h ⊢
  simp only [run, runAll, h, pure_bind, bind_assoc, ExceptT.lift_bind, Checked.operation_unary]
  rfl

/-- One on two operands takes the first and then the second. -/
theorem yields_binary {op : BinaryOp} {t u : Term} {x y : m Value} (ht : t.Yields read x)
    (hu : u.Yields read y) : (operation (.binary op) [t, u]).Yields read (do
      let v ← x
      let w ← y
      MonadExcept.ofExcept (op.apply v w)) := by
  simp only [Yields] at ht hu ⊢
  simp only [run, runAll, ht, hu, pure_bind, bind_assoc, ExceptT.lift_bind,
    Checked.operation_binary]
  rfl

/-- A logical operation takes the second one only if the first does not decide. -/
theorem yields_logical {op : LogicalOp} {t u : Term} {x y : m Value} (ht : t.Yields read x)
    (hu : u.Yields read y) : (operation (.logical op) [t, u]).Yields read (do
      let v ← x
      if op.decides v then pure v else y) := by
  simp only [Yields] at ht hu ⊢
  simp only [run, runAt, ht, hu, ExceptT.lift_bind]
  refine bind_congr fun v => ?_
  -- The second operand is run only where the first one does not decide
  split
  · rw [ExceptT.lift_pure]
  · rfl

/-- A conditional takes the first, and then one of the others. -/
theorem yields_cond {t u w : Term} {x y z : m Value} (ht : t.Yields read x) (hu : u.Yields read y)
    (hw : w.Yields read z) : (operation .cond [t, u, w]).Yields read (do
      let v ← x
      if v.isTruthy then y else z) := by
  simp only [Yields] at ht hu hw ⊢
  simp only [run, runAt, ht, hu, hw, ExceptT.lift_bind]
  refine bind_congr fun v => ?_
  split <;> rfl

/-- A function of one argument takes the only argument. -/
theorem yields_call_unary {f : UnaryFunction} {t : Term} {x : m Value} (h : t.Yields read x) :
    (call (.unary f) [t]).Yields read (do
      let v ← x
      MonadExcept.ofExcept (f.apply v)) := by
  have hcall : ∀ v, Checked.call (.unary f) [v] = .ok (f.apply v) := fun _ => rfl
  simp only [Yields] at h ⊢
  simp only [run, runAll, h, pure_bind, bind_assoc, ExceptT.lift_bind, hcall]
  rfl

/-- A function of two arguments takes both. -/
theorem yields_call_binary {f : BinaryFunction} {t u : Term} {x y : m Value}
    (ht : t.Yields read x) (hu : u.Yields read y) : (call (.binary f) [t, u]).Yields read (do
      let v ← x
      let w ← y
      MonadExcept.ofExcept (f.apply v w)) := by
  have hcall : ∀ v w, Checked.call (.binary f) [v, w] = .ok (f.apply v w) := fun _ _ => rfl
  simp only [Yields] at ht hu ⊢
  simp only [run, runAll, ht, hu, pure_bind, bind_assoc, ExceptT.lift_bind, hcall]
  rfl

end Run

end Term

/-! ### Expressions -/

namespace Expr

section Eval

variable {m : Type → Type} [Monad m] [LawfulMonad m] [MonadExceptOf EvalError m]

/-- An operation that was composed has as many operands as its operator takes. -/
theorem yields_operation {op : Operator} {operands : List (Expr × Term)} {e : Expr}
    {read : FieldKey → m Value} (h : operation op (operands.map Prod.fst) = .ok e)
    (hoperands : ∀ o ∈ operands, o.2.Yields read (o.1.eval read)) :
    (Term.operation op (operands.map Prod.snd)).Yields read (e.eval read) := by
  -- Each case has read off how many operands there are
  unfold operation at h
  split at h
  · next heq =>
    obtain ⟨a, rfl, rfl⟩ := List.map_eq_singleton_iff.1 heq
    obtain ⟨t, -, h⟩ := bind_eq_ok h
    obtain rfl := Except.ok.inj h
    exact Term.yields_unary (hoperands a (by simp))
  · next heq =>
    obtain ⟨a, _, rfl, rfl, hrest⟩ := List.map_eq_cons_iff.1 heq
    obtain ⟨b, rfl, rfl⟩ := List.map_eq_singleton_iff.1 hrest
    obtain ⟨t, -, h⟩ := bind_eq_ok h
    obtain rfl := Except.ok.inj h
    exact Term.yields_binary (hoperands a (by simp)) (hoperands b (by simp))
  · next heq =>
    obtain ⟨a, _, rfl, rfl, hrest⟩ := List.map_eq_cons_iff.1 heq
    obtain ⟨b, rfl, rfl⟩ := List.map_eq_singleton_iff.1 hrest
    obtain ⟨t, -, h⟩ := bind_eq_ok h
    obtain rfl := Except.ok.inj h
    exact Term.yields_logical (hoperands a (by simp)) (hoperands b (by simp))
  · next heq =>
    obtain ⟨a, _, rfl, rfl, hrest⟩ := List.map_eq_cons_iff.1 heq
    obtain ⟨b, _, rfl, rfl, hlast⟩ := List.map_eq_cons_iff.1 hrest
    obtain ⟨c, rfl, rfl⟩ := List.map_eq_singleton_iff.1 hlast
    obtain ⟨t, -, h⟩ := bind_eq_ok h
    obtain rfl := Except.ok.inj h
    exact Term.yields_cond (hoperands a (by simp)) (hoperands b (by simp)) (hoperands c (by simp))
  · cases h

/-- A call that was composed has as many arguments as its function takes. -/
theorem yields_call {name : String} {f : Function} {args : List (Expr × Term)} {e : Expr}
    {read : FieldKey → m Value} (hname : Function.ofName? name = some f)
    (h : call name (args.map Prod.fst) = .ok e)
    (hargs : ∀ a ∈ args, a.2.Yields read (a.1.eval read)) :
    (Term.call f (args.map Prod.snd)).Yields read (e.eval read) := by
  unfold call at h
  rw [hname] at h
  -- The number of arguments was compared with that of the function when the call was composed
  cases f with
  | unary f =>
    simp only at h
    split at h
    · next heq =>
      obtain ⟨a, rfl, rfl⟩ := List.map_eq_singleton_iff.1 heq
      obtain ⟨t, -, h⟩ := bind_eq_ok h
      obtain rfl := Except.ok.inj h
      exact Term.yields_call_unary (hargs a (by simp))
    · cases h
  | binary f =>
    simp only at h
    split at h
    · next heq =>
      obtain ⟨a, _, rfl, rfl, hrest⟩ := List.map_eq_cons_iff.1 heq
      obtain ⟨b, rfl, rfl⟩ := List.map_eq_singleton_iff.1 hrest
      obtain ⟨t, -, h⟩ := bind_eq_ok h
      obtain rfl := Except.ok.inj h
      exact Term.yields_call_binary (hargs a (by simp)) (hargs b (by simp))
    · cases h

end Eval

/-- Every expression that the constructors make has such a term. -/
theorem Built.exists_composed {e : Expr} (h : e.Built) : ∃ t, Composed e t := by
  -- The operands have terms, one by one
  have hall : ∀ es : List Expr, (∀ e ∈ es, ∃ t, Composed e t) →
      ∃ pairs : List (Expr × Term), pairs.map Prod.fst = es ∧
        ∀ p ∈ pairs, Composed p.1 p.2 := by
    intro es hes
    induction es with
    | nil => exact ⟨[], rfl, nofun⟩
    | cons e es ih =>
      obtain ⟨t, ht⟩ := hes e List.mem_cons_self
      obtain ⟨pairs, rfl, hpairs⟩ := ih fun e he => hes e (List.mem_cons_of_mem _ he)
      exact ⟨(e, t) :: pairs, rfl, List.forall_mem_cons.2 ⟨ht, hpairs⟩⟩
  induction h with
  | literal hv => exact ⟨_, .literal _⟩
  | field k t => exact ⟨_, .field k t⟩
  | operation htarget hoperands h ih =>
    obtain ⟨pairs, rfl, hpairs⟩ := hall _ ih
    exact ⟨_, .operation hpairs h⟩
  | @call name args e hargs h ih =>
    obtain ⟨pairs, rfl, hpairs⟩ := hall _ ih
    cases hname : Function.ofName? name with
    | none =>
      rw [Expr.call, hname] at h
      cases h
    | some f => exact ⟨_, .call hname hpairs h⟩
  | external name returns hargs ih =>
    obtain ⟨pairs, rfl, hpairs⟩ := hall _ ih
    exact ⟨_, .external name returns hpairs⟩
  | rebased base he ih =>
    obtain ⟨t, ht⟩ := ih
    exact ⟨_, ht.rebased base⟩

/-- The evaluator never breaks down, whatever the fields are and however the source changes while it
is read: a composed expression evaluates, without a fault, to a value or to an error. -/
theorem Composed.run_eq {e : Expr} {t : Term} (h : Composed e t) {m : Type → Type} [Monad m]
    [LawfulMonad m] [MonadExceptOf EvalError m] (read : FieldKey → m Value) :
    t.run read = ExceptT.lift (e.eval read) := by
  induction h generalizing read with
  | literal v => exact (ExceptT.lift_pure v).symm
  | field k t => rfl
  | operation hoperands h ih => exact yields_operation h fun o ho => ih o ho read
  | call hname hargs h ih => exact yields_call hname h fun a ha => ih a ha read
  | external name returns hargs ih => rfl
  | rebased base h ih => rw [Term.run_rebased, ih, eval_rebased]

/-- The last item of a list, asked for from its end. -/
theorem run_eq_lastItem :
    (Term.operation (.binary .index) [.literal (.list [.int 1, .int 2]), .literal (.int (-1))]).run
      (fun k => (.error (.unknownField k) : Evaluated)) = .ok (.ok (.int 2)) := by
  -- Both operands are literals, composed without further ado
  have hoperands : ∀ o ∈ [(Expr.literal (.list [.int 1, .int 2]),
        Term.literal (.list [.int 1, .int 2])),
      (.literal (.int (-1)), .literal (.int (-1)))], Composed o.1 o.2 := by
    simp [Composed.literal]
  have hcomposed := Composed.operation hoperands
    (show Expr.operation (.binary .index) _ = .ok _ from rfl)
  exact hcomposed.run_eq _

/-- Without its operands an operation does break down. -/
example : (Term.operation (.binary .add) []).run (fun k => (.error (.unknownField k) : Evaluated)) =
    .ok (.error (.outOfRange 1 0)) := rfl

end Expr

end ReactiveState
