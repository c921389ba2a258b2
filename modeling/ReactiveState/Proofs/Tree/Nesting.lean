import Mathlib.Logic.Relation
import ReactiveState.Proofs.Tree.Reachable

/-!
# How deep readings nest

`Tree.read` bounds how many computed fields may be evaluated inside each other.  Here the same
reading runs without a bound, as a machine with a stack: a `Reading` holds what the innermost
evaluation still has to do and, for every field whose evaluation is in progress, what goes on with
its value.

* `read_leads`: the machine answers a field with the value that `Tree.read` gives, in the tree that
  it leaves,
* `Nested.next`: every step keeps the fields in progress in the order of the layout, each one
  earlier than the one that asked for it.

So no field is evaluated while its own evaluation is in progress, and no more of them are in
progress than there are computed fields (`Reachable.get_halts`).
-/

namespace ReactiveState

/-! ### Evaluations that ask -/

/-- An evaluation that asks for one field after another. -/
inductive Query (α : Type) where
  | done (result : Except EvalError α)
  | ask (k : FieldKey) (next : Except EvalError Value → Query α)

namespace Query

variable {α β : Type}

/-- One evaluation after another, unless the first one fails. -/
def bind : Query α → (α → Query β) → Query β
  | done (.ok a), f => f a
  | done (.error e), _ => done (.error e)
  | ask k next, f => ask k fun r => (next r).bind f

/-- An evaluation, and another one in its place if it fails. -/
def orElse : Query α → (EvalError → Query α) → Query α
  | done (.ok a), _ => done (.ok a)
  | done (.error e), f => f e
  | ask k next, f => ask k fun r => (next r).orElse f

instance : Monad Query where
  pure a := done (.ok a)
  bind := bind

instance : MonadExceptOf EvalError Query where
  throw e := done (.error e)
  tryCatch := orElse

/-- Asks for one field. -/
def read (k : FieldKey) : Query Value := ask k done

/-- Every field that may be asked for is one of these. -/
def AsksWithin (p : FieldKey → Prop) : Query α → Prop
  | done _ => True
  | ask k next => p k ∧ ∀ r, AsksWithin p (next r)

/-- Runs an evaluation with a reader. -/
def answer (reader : FieldKey → TreeM EvalError Value) : Query α → Tree → Except EvalError α × Tree
  | done r, t => (r, t)
  | ask k next, t => answer reader (next ((reader k).run t).1) ((reader k).run t).2

/-- Fields that are asked within a property are asked within a weaker one. -/
theorem AsksWithin.mono {p p' : FieldKey → Prop} (hp : ∀ k, p k → p' k) {q : Query α}
    (h : q.AsksWithin p) : q.AsksWithin p' := by
  induction q with
  | done r => trivial
  | ask k next ih => exact ⟨hp k h.1, fun r => ih r (h.2 r)⟩

/-- A query asks within a property if each of its parts does. -/
theorem AsksWithin.bind {p : FieldKey → Prop} {q : Query α} {f : α → Query β}
    (h : q.AsksWithin p) (hf : ∀ a, (f a).AsksWithin p) : (q >>= f).AsksWithin p := by
  induction q with
  | done r =>
    cases r with
    | ok a => exact hf a
    | error e => trivial
  | ask k next ih => exact ⟨h.1, fun r => ih r (h.2 r)⟩

variable {reader : FieldKey → TreeM EvalError Value}

/-- Queries are answered one after the other, in the tree that the first one leaves. -/
theorem answer_bind (q : Query α) (f : α → Query β) (t : Tree) :
    (q >>= f).answer reader t = match q.answer reader t with
      | (.ok a, t') => (f a).answer reader t'
      | (.error e, t') => (.error e, t') := by
  induction q generalizing t with
  | done r => cases r <;> rfl
  | ask k next ih => exact ih _ _

/-- Two evaluations that are answered alike, each followed by one that is answered alike. -/
theorem answer_bind_run {q : Query α} {x : TreeM EvalError α} {f : α → Query β}
    {g : α → TreeM EvalError β} (hx : ∀ t, q.answer reader t = x.run t)
    (hf : ∀ a t, (f a).answer reader t = (g a).run t) (t : Tree) :
    (q >>= f).answer reader t = (x >>= g).run t := by
  rw [answer_bind, run_bind, hx]
  rcases x.run t with ⟨e | a, t'⟩
  · rfl
  · exact hf a t'

/-- A result asks for nothing. -/
theorem answer_ofExcept (r : Except EvalError α) (t : Tree) :
    (MonadExcept.ofExcept r : Query α).answer reader t = (r, t) := by
  cases r <;> rfl

end Query

namespace Expr

/-- An expression asks for its dependencies only. -/
theorem asksWithin_dependencies (e : Expr) :
    (e.eval Query.read).AsksWithin (· ∈ e.dependencies) :=
  eval_closed (fun _ => trivial) (fun _ => trivial) (fun hx hf => hx.bind hf)
    fun _ hk => ⟨hk, fun _ => trivial⟩

/-- Asking and being answered by a reader is evaluating with the reader. -/
theorem answer_eval (reader : FieldKey → TreeM EvalError Value) (e : Expr) (t : Tree) :
    (e.eval Query.read).answer reader t = (e.eval reader).run t := by
  induction e using eval_induction generalizing t with
  | literal v => rfl
  | field k ty => rfl
  | unary op e ty ih =>
    refine Query.answer_bind_run ih (fun v t => ?_) t
    rw [Query.answer_ofExcept, run_ofExcept]
  | binary op l r ty ihl ihr =>
    refine Query.answer_bind_run ihl (fun v => Query.answer_bind_run ihr fun w t => ?_) t
    rw [Query.answer_ofExcept, run_ofExcept]
  | logical op l r ty ihl ihr =>
    refine Query.answer_bind_run ihl (fun v t => ?_) t
    -- Where the left operand decides, the right one is not asked for
    by_cases hd : op.decides v = true
    · simp only [hd, if_true]
      rfl
    · simp only [hd, ihr, Bool.false_eq_true, if_false]
  | cond c y n ty ihc ihy ihn =>
    refine Query.answer_bind_run ihc (fun v t => ?_) t
    -- Only the branch that is taken is asked for
    by_cases hd : v.isTruthy = true
    · simp only [hd, if_true, ihy]
    · simp only [hd, ihn, Bool.false_eq_true, if_false]
  | external name args ty => rfl

end Expr

namespace Tree

/-! ### Reading without a bound -/

/-- A computed field whose evaluation is in progress. -/
structure Frame where
  field : FieldKey
  /-- What the evaluation that asked for the field does with the answer. -/
  resume : Except EvalError Value → Query Value

/-- A reading in progress. -/
structure Reading where
  tree : Tree
  /-- What the innermost evaluation still has to do. -/
  query : Query Value
  /-- The fields whose evaluation is in progress, innermost first. -/
  stack : List Frame

/-- What is known of a field at once, or the expression that has to be evaluated. -/
inductive Lookup where
  | known (result : Except EvalError Value)
  | evaluate (e : Expr)

/-- Looks a field up: its stored value, or the value of its slot. -/
def lookup (l : Layout) (t : Tree) (k : FieldKey) : Lookup :=
  match t.stored? k, t.slot? k with
  | some v, _ => .known (.ok v)
  | none, none => .known (.error (.unknownField k))
  | none, some slot =>
    match slot.cached with
    | some v => .known (.ok v)
    | none =>
      match l.computed? k with
      | some e => .evaluate e
      | none => .known (.error (.unknownField k))

/-- Fills the slot of a field that was evaluated without failure. -/
def filled (t : Tree) (k : FieldKey) : Except EvalError Value → Tree
  | .ok v => t.modifySlot k (·.store v)
  | .error _ => t

namespace Reading

/-- The reading of a field, before anything is done. -/
def start (t : Tree) (k : FieldKey) : Reading := ⟨t, .read k, []⟩

/-- The next step.  A field that is asked for is known, or its evaluation begins; and an evaluation
that is done hands its result to the one that asked.  There is no bound on the stack. -/
def next? (l : Layout) (s : Reading) : Option Reading :=
  match s.query, s.stack with
  | .ask k resume, stack =>
    match lookup l s.tree k with
    | .known r => some ⟨s.tree, resume r, stack⟩
    | .evaluate e => some ⟨s.tree, e.eval .read, ⟨k, resume⟩ :: stack⟩
  | .done r, ⟨k, resume⟩ :: stack => some ⟨s.tree.filled k r, resume r, stack⟩
  | .done _, [] => none

/-- When a field has been evaluated its slot is filled, and the evaluation that asked for it goes
on. -/
theorem next?_done {l : Layout} (t : Tree) (r : Except EvalError Value) (f : Frame)
    (stack : List Frame) : Reading.next? l ⟨t, .done r, f :: stack⟩ =
      some ⟨t.filled f.field r, f.resume r, stack⟩ := rfl

/-- One reading leads to another, by any number of steps. -/
def Leads (l : Layout) : Reading → Reading → Prop :=
  Relation.ReflTransGen fun s s' => s.next? l = some s'

variable {l : Layout} {s s' s'' : Reading}

/-- Every point of a reading leads to itself. -/
theorem Leads.refl : Leads l s s := Relation.ReflTransGen.refl

/-- A step leads to the next point. -/
theorem Leads.single (h : s.next? l = some s') : Leads l s s' := Relation.ReflTransGen.single h

/-- What leads to a point leads to where that one leads. -/
theorem Leads.trans (h : Leads l s s') (h' : Leads l s' s'') : Leads l s s'' :=
  Relation.ReflTransGen.trans h h'

/-- A reading that has ended is where everything on the way to it leads. -/
theorem Leads.leads_end (h : Leads l s s'') (hend : s''.next? l = none) (h' : Leads l s s') :
    Leads l s' s'' := by
  -- The machine has one next step at most
  have hunique : Relator.RightUnique fun s s' : Reading => s.next? l = some s' :=
    fun s a b ha hb => Option.some.inj (ha.symm.trans hb)
  rcases Relation.ReflTransGen.total_of_right_unique hunique h h' with hback | hon
  · rcases Relation.ReflTransGen.cases_head hback with rfl | ⟨c, hc, _⟩
    · exact .refl
    · -- Nothing follows the end, so it does not lead back
      rw [hend] at hc
      cases hc
  · exact hon

end Reading

variable {l : Layout} {t : Tree} {k : FieldKey} {depth : Nat}

/-- A bounded reading by what is known of the field. -/
theorem run_read (l : Layout) (depth : Nat) (k : FieldKey) (t : Tree) :
    (read l (depth + 1) k).run t = match lookup l t k with
      | .known r => (r, t)
      | .evaluate e =>
        (((e.eval (read l depth)).run t).1,
          filled ((e.eval (read l depth)).run t).2 k ((e.eval (read l depth)).run t).1) := by
  rw [read, run_known, lookup]
  -- The cases of `known` are those of `lookup`; the last one evaluates and fills the slot
  cases t.stored? k with
  | some v => rfl
  | none =>
    cases t.slot? k with
    | none => rfl
    | some slot =>
      cases hcached : slot.cached with
      | some v => simp only [hcached]
      | none =>
        simp only [hcached]
        cases l.computed? k with
        | none => rfl
        | some e =>
          simp only [run_bind]
          rcases (e.eval (read l depth)).run t with ⟨err | v, t'⟩ <;> rfl

/-- At depth zero only what has to be evaluated is not found. -/
theorem run_read_zero (h : l.computed? k = none) (t : Tree) :
    ∃ r, lookup l t k = .known r ∧ (read l 0 k).run t = (r, t) := by
  rw [read, run_known, lookup, h]
  cases t.stored? k with
  | some v => exact ⟨_, rfl, rfl⟩
  | none =>
    -- No expression is left to be evaluated, whatever the slot says
    cases t.slot? k with
    | none => exact ⟨_, rfl, rfl⟩
    | some slot =>
      cases hcached : slot.cached with
      | some v => exact ⟨.ok v, by simp only [hcached], by simp only [hcached]⟩
      | none =>
        exact ⟨.error (.unknownField k), by simp only [hcached], by simp only [hcached]; rfl⟩

/-- Only the expression of a computed field is ever evaluated. -/
theorem computed?_of_lookup {e : Expr} (h : lookup l t k = .evaluate e) :
    l.computed? k = some e := by
  unfold lookup at h
  cases hs : t.stored? k with
  | some v => simp [hs] at h
  | none =>
    cases hslot : t.slot? k with
    | none => simp [hs, hslot] at h
    | some slot =>
      -- An empty slot alone leads to an evaluation
      cases hcached : slot.cached <;> cases hk : l.computed? k <;>
        simp_all

/-! ### The machine halts -/

/-- An evaluation is answered, as long as each field that it asks for is. -/
theorem leads_answer {reader : FieldKey → TreeM EvalError Value} {p : FieldKey → Prop}
    (hreader : ∀ d, p d → ∀ t resume stack, Reading.Leads l ⟨t, .ask d resume, stack⟩
      ⟨((reader d).run t).2, resume ((reader d).run t).1, stack⟩)
    {q : Query Value} (hq : q.AsksWithin p) (t : Tree) (stack : List Frame) :
    Reading.Leads l ⟨t, q, stack⟩
      ⟨(q.answer reader t).2, .done (q.answer reader t).1, stack⟩ := by
  induction q generalizing t with
  | done r => exact .refl
  | ask d next ih =>
    -- The field that is asked for is answered, and the evaluation goes on with the answer
    have hask := hreader d hq.1 t next stack
    exact hask.trans (ih _ (hq.2 _) _)

/-- The machine answers a field that is asked for like a bounded reading that may go as deep as the
field ranks, by induction on the bound. -/
theorem read_leads (hl : l.Sound) (hk : l.rank k ≤ depth) (t : Tree)
    (resume : Except EvalError Value → Query Value) (stack : List Frame) :
    Reading.Leads l ⟨t, .ask k resume, stack⟩
      ⟨((read l depth k).run t).2, resume ((read l depth k).run t).1, stack⟩ := by
  induction depth generalizing k t resume stack with
  | zero =>
    have hnone : l.computed? k = none := by
      -- A computed field has a positive rank
      by_contra hne
      have hcomputed : l.isComputed k = true := Option.isSome_iff_ne_none.2 hne
      rw [Layout.rank_of_isComputed hcomputed] at hk
      omega
    obtain ⟨r, hlookup, hrun⟩ := run_read_zero hnone t
    have hstep : Reading.next? l ⟨t, .ask k resume, stack⟩ = some ⟨t, resume r, stack⟩ := by
      simp only [Reading.next?, hlookup]
    rw [hrun]
    exact .single hstep
  | succ depth ih =>
    rw [run_read]
    cases hlookup : lookup l t k with
    | known r =>
      have hstep : Reading.next? l ⟨t, .ask k resume, stack⟩ = some ⟨t, resume r, stack⟩ := by
        simp only [Reading.next?, hlookup]
      exact .single hstep
    | evaluate e =>
      have he := computed?_of_lookup hlookup
      -- The field gets a frame, and its expression is evaluated on top of it
      have henter : Reading.next? l ⟨t, .ask k resume, stack⟩ =
          some ⟨t, e.eval .read, ⟨k, resume⟩ :: stack⟩ := by
        simp only [Reading.next?, hlookup]
      -- What the expression asks for ranks below the field, so a step less is deep enough for it
      have hread : ∀ d, d ∈ e.dependencies → ∀ t resume stack,
          Reading.Leads l ⟨t, .ask d resume, stack⟩
            ⟨((read l depth d).run t).2, resume ((read l depth d).run t).1, stack⟩ := by
        intro d hd t resume stack
        have hrank := hl.rank_lt ⟨e, he, hd⟩
        exact ih (by omega) t resume stack
      -- The evaluation ends with the frame of the field on top, which takes the result
      have heval := leads_answer hread e.asksWithin_dependencies t (⟨k, resume⟩ :: stack)
      rw [Expr.answer_eval] at heval
      exact (Reading.Leads.single henter).trans
        (heval.trans (.single (Reading.next?_done _ _ ⟨k, resume⟩ stack)))

/-! ### What is in progress -/

/-- The evaluation of the innermost field, and then of each outer one, asks only for what the field
reads. -/
def AsksOwn (l : Layout) : Query Value → List Frame → Prop
  | _, [] => True
  | q, f :: stack => q.AsksWithin (l.Reads f.field) ∧ ∀ r, AsksOwn l (f.resume r) stack

/-- The fields in progress are computed and stand in the order of the layout, innermost first; and
every evaluation asks only for what its field reads. -/
structure Nested (l : Layout) (s : Reading) : Prop where
  computed : ∀ f ∈ s.stack, l.isComputed f.field = true
  ordered : s.stack.Pairwise fun inner outer =>
    l.order.idxOf inner.field < l.order.idxOf outer.field
  asks : AsksOwn l s.query s.stack

namespace Nested

variable {s s' : Reading}

/-- At the start nothing is in progress. -/
theorem start (t : Tree) (k : FieldKey) : Nested l (.start t k) where
  computed := by simp [Reading.start]
  ordered := .nil
  asks := trivial

/-- A computed field that is asked for stands before every field in progress. -/
theorem idxOf_lt (hl : l.Sound) (h : Nested l s) {d : FieldKey}
    {next : Except EvalError Value → Query Value} (hq : s.query = .ask d next)
    (hd : l.isComputed d = true) :
    ∀ f ∈ s.stack, l.order.idxOf d < l.order.idxOf f.field := by
  obtain ⟨t, q, stack⟩ := s
  obtain rfl : q = .ask d next := hq
  -- The innermost field reads the one that is asked for, and the others stand behind the innermost
  cases stack with
  | nil => simp
  | cons f stack =>
    have hf : l.order.idxOf d < l.order.idxOf f.field := hl.idxOf_lt _ _ h.asks.1.1 hd
    -- The frames are in the order of the layout
    have houter : ∀ g ∈ stack, l.order.idxOf f.field < l.order.idxOf g.field :=
      (List.pairwise_cons.1 h.ordered).1
    intro g hg
    rcases List.mem_cons.1 hg with rfl | hg
    · exact hf
    · exact Nat.lt_trans hf (houter g hg)

/-- An evaluation that goes on with an answer asks for what it may have asked for before. -/
theorem asks_resume {d : FieldKey} {next : Except EvalError Value → Query Value}
    {stack : List Frame} (h : AsksOwn l (.ask d next) stack) (r : Except EvalError Value) :
    AsksOwn l (next r) stack := by
  cases stack with
  | nil => trivial
  | cons f stack => exact ⟨h.1.2 r, h.2⟩

/-- Every step keeps the fields in progress in order. -/
theorem next (hl : l.Sound) (h : Nested l s) (hs : s.next? l = some s') : Nested l s' := by
  obtain ⟨t, q, stack⟩ := s
  cases q with
  | ask d next =>
    have hearlier : l.isComputed d = true →
        ∀ f ∈ stack, l.order.idxOf d < l.order.idxOf f.field := h.idxOf_lt hl rfl
    simp only [Reading.next?] at hs
    -- A field that is known answers at once; any other one is put on the stack
    split at hs
    · obtain rfl := Option.some.inj hs
      exact ⟨h.computed, h.ordered, asks_resume h.asks _⟩
    · next e hlookup =>
      obtain rfl := Option.some.inj hs
      have he := computed?_of_lookup hlookup
      have hd : l.isComputed d = true := by simp [Layout.isComputed, he]
      have hreads : (e.eval Query.read).AsksWithin (l.Reads d) :=
        e.asksWithin_dependencies.mono fun k hk => ⟨e, he, hk⟩
      exact ⟨List.forall_mem_cons.2 ⟨hd, h.computed⟩,
        List.pairwise_cons.2 ⟨hearlier hd, h.ordered⟩, hreads, asks_resume h.asks⟩
  | done r =>
    cases stack with
    | nil => simp [Reading.next?] at hs
    | cons f stack =>
      obtain rfl := Option.some.inj hs
      -- A field that is done is taken from the stack
      exact ⟨(List.forall_mem_cons.1 h.computed).2, (List.pairwise_cons.1 h.ordered).2, h.asks.2 r⟩

/-- So it is at every point of a reading. -/
theorem leads (hl : l.Sound) (h : Nested l s) (hs : Reading.Leads l s s') : Nested l s' := by
  induction hs with
  | refl => exact h
  | tail _ hstep ih => exact ih.next hl hstep

/-- No field is in progress twice. -/
theorem nodup (h : Nested l s) : (s.stack.map (·.field)).Nodup := by
  rw [List.Nodup, List.pairwise_map]
  refine h.ordered.imp fun hlt heq => ?_
  rw [heq] at hlt
  exact Nat.lt_irrefl _ hlt

/-- There are enough places in the order for all fields in progress. -/
theorem length_stack_le (hl : l.Sound) (h : Nested l s) : s.stack.length ≤ l.computedCount := by
  have hsub : s.stack.map (·.field) ⊆ l.order := by
    intro k hk
    obtain ⟨f, hf, rfl⟩ := List.mem_map.1 hk
    exact (hl.mem_order _).2 (h.computed f hf)
  have hle := (List.subperm_of_subset h.nodup hsub).length_le
  rwa [List.length_map] at hle

end Nested

/-- How a reading stands: a computed field that is asked for stands before every field whose
evaluation is in progress, these are all different, each inner one stands before the outer ones, and
there are no more of them than computed fields. -/
structure Reading.Orderly (l : Layout) (s : Reading) : Prop where
  earlier : ∀ d next, s.query = .ask d next → l.isComputed d = true →
    ∀ f ∈ s.stack, l.order.idxOf d < l.order.idxOf f.field
  inner : s.stack.Pairwise fun inner outer =>
    l.order.idxOf inner.field < l.order.idxOf outer.field
  distinct : (s.stack.map (·.field)).Nodup
  depth : s.stack.length ≤ l.computedCount

/-- In the order of the layout, the fields in progress are distinct, and no more than there are
computed fields. -/
theorem Nested.orderly (hl : l.Sound) {s : Reading} (h : Nested l s) : s.Orderly l where
  earlier _ _ hq hd := h.idxOf_lt hl hq hd
  inner := h.ordered
  distinct := h.nodup
  depth := h.length_stack_le hl

/-! ### Reading a field -/

/-- Why a field that is not computed cannot be read. -/
def missing (l : Layout) (k : FieldKey) : StateError :=
  if (l.container? k.path).isNone then .unknownContainer k.path else .unknownField k

/-- What a caller of `get` is told of a reading that ended.  A failure is one of the field itself,
unless the field is nowhere in the tree. -/
def told (l : Layout) (k : FieldKey) (r : Except EvalError Value) : Except StateError Value :=
  if l.isComputed k then r.mapError (.eval k) else r.mapError fun _ => missing l k

/-- `get` is a reading as deep as there are computed fields. -/
theorem run_get_eq_read (hl : l.Sound) (ht : t.Coherent l) (k : FieldKey) :
    (get l k).run t =
      (told l k ((read l l.computedCount k).run t).1, ((read l l.computedCount k).run t).2) := by
  have hknown : ∃ evaluate, read l l.computedCount k = known k evaluate := by
    cases l.computedCount <;> exact ⟨_, rfl⟩
  -- A stored field needs no depth at all, and a computed one is read with as much as there is
  by_cases hk : l.isComputed k = true
  · obtain ⟨s, hslot⟩ := ht.exists_slot hk
    have hcontainer := isSome_container?_of_isComputed hl hk
    rw [run_get, ht.stored?_eq_none hl hk, hslot, told, if_pos hk]
    simp only [Option.isNone_iff_eq_none, Option.isSome_iff_ne_none.1 hcontainer, if_false]
    rfl
  · have hslot : t.slot? k = none := by simpa [hk] using ht.slot k
    obtain ⟨evaluate, hread⟩ := hknown
    rw [hread, run_known, run_get, hslot, told, if_neg hk]
    cases hs : t.stored? k with
    | some v =>
      have hfield : (l.field? k).isSome = true := by rw [← ht.stored k, hs]; rfl
      have hcontainer := isSome_container?_of_field? hfield
      simp only [Option.isNone_iff_eq_none, Option.isSome_iff_ne_none.1 hcontainer, if_false]
      rfl
    | none =>
      simp only [missing]
      split <;> rfl

/-- Reading any field of a reachable tree of a compiled layout ends, without a bound on how deep the
evaluations nest, with what `get` gives and in the tree that `get` leaves.  At every point on the
way a computed field that is read stands in the order before all fields whose evaluation is in
progress; so no field is evaluated inside its own evaluation, and the evaluations nest no deeper
than there are computed fields. -/
theorem Reachable.get_halts {root : Schema} (hroot : root.Built)
    (hl : Layout.compile root = .ok l) (ht : Reachable l t) (k : FieldKey) :
    ∃ r t', (Tree.get l k).run t = (told l k r, t') ∧
      Reading.next? l ⟨t', .done r, []⟩ = none ∧
      ∀ s, Reading.Leads l (.start t k) s → s.Orderly l ∧ Reading.Leads l s ⟨t', .done r, []⟩ := by
  have hsound := Layout.compile_sound hroot hl
  have hrun := run_get_eq_read hsound (ht.coherent hsound) k
  have hhalts : Reading.Leads l (.start t k) _ :=
    read_leads hsound (hsound.rank_le k) t .done []
  have hend : Reading.next? l ⟨((read l l.computedCount k).run t).2,
      .done ((read l l.computedCount k).run t).1, []⟩ = none := rfl
  -- The machine is deterministic, so every point on the way leads to the same end
  exact ⟨_, _, hrun, hend, fun s hs =>
    ⟨((Nested.start t k).leads hsound hs).orderly hsound, hhalts.leads_end hend hs⟩⟩

/-- Reading the raised double of the counter, just after the counter was set to seven, ends with
nineteen. -/
theorem get_halts_counter :
    let t := ((Tree.set Layout.counter ⟨"app", "count"⟩ (.int 7)).run
      ((Tree.start Layout.counter).toOption.getD (instantiate Layout.counter))).2
    ∃ r t', Reading.Leads Layout.counter (.start t ⟨"app", "raised"⟩) ⟨t', .done r, []⟩ ∧
      told Layout.counter ⟨"app", "raised"⟩ r = .ok (.int 19) := by
  intro t
  have ht : Reachable Layout.counter t := .set (.start rfl) _ _
  obtain ⟨r, t', hrun, _, hleads⟩ :=
    ht.get_halts Schema.built_counter Layout.compile_counter ⟨"app", "raised"⟩
  have hvalue : ((Tree.get Layout.counter ⟨"app", "raised"⟩).run t).1 = .ok (.int 19) := rfl
  exact ⟨r, t', (hleads _ .refl).2, by rw [← hvalue, hrun]⟩

end Tree

end ReactiveState
