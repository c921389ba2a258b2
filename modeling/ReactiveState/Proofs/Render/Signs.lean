import ReactiveState.Proofs.Expr.Dependencies
import ReactiveState.Proofs.Render.Scan
import ReactiveState.Proofs.Typing.Soundness
import ReactiveState.Expr.Render

/-!
# What rendered source begins with

Most lowering rules begin with a character of their own, a parenthesis or the name of a function.
The others begin with the source of an operand (`beginsWithOperand`, `first?`), so that the source
of an expression begins with that of one expression far inside it, its `Expr.leading` one.  Only
literals and calls of external functions can lead with a minus sign (`head?_render_iff`).

For built expressions the types say more (`Built.head?_iff`): of the rules that begin with an
operand only annotations take numbers, and these do not change their type.  So a number that leads
is the whole expression, up to annotations.
-/

namespace ReactiveState

namespace Render

variable {α β : Type}

/-- Whether the source of the operation begins with that of its operand, which has type `t`. -/
def beginsWithOperand (op : UnaryOp) (t : ValueType) : Bool :=
  match op with
  | .annotate _ => true
  | .length => !t.isKeyed
  | .call .upper => true
  | .call .lower => true
  | .call .trim => true
  | _ => false

/-- The one of two operands, of types `s` and `t`, with whose source the source of the operation
begins. -/
def first? (op : BinaryOp) (s t : ValueType) (left right : α) : Option α :=
  -- All other operations begin with a bracket or the name of a function
  match op with
  | .mul => match s, t with
    | .str, .int => some left
    | .int, .str => some right
    | _, _ => none
  | .contains => if s.isKeyed then none else some left
  | .index => some left
  | .attr => some left
  | .call .join => some left
  | .call .split => some left
  | _ => none

/-- Which of the operands it is depends on the operation and the types only. -/
theorem first?_map (op : BinaryOp) (s t : ValueType) (f : α → β) (left right : α) :
    first? op s t (f left) (f right) = (first? op s t left right).map f := by
  unfold first?
  split <;> try rfl
  · split <;> rfl
  · split_ifs <;> rfl

/-- The operations whose source begins with that of an operand `x`. -/
inductive First (left right : α) : BinaryOp → ValueType → ValueType → α → Prop where
  | repeatLeft : First left right .mul .str .int left
  | repeatRight : First left right .mul .int .str right
  | contains {s t : ValueType} (h : s.isKeyed = false) : First left right .contains s t left
  | index {s t : ValueType} : First left right .index s t left
  | attr {s t : ValueType} : First left right .attr s t left
  | join {s t : ValueType} : First left right (.call .join) s t left
  | split {s t : ValueType} : First left right (.call .split) s t left

/-- `First` is the relation that `first?` computes. -/
theorem first_of_first? {op : BinaryOp} {s t : ValueType} {left right x : α}
    (h : first? op s t left right = some x) : First left right op s t x := by
  unfold first? at h
  split at h
  · -- Repetitions: only two of the four forms begin with an operand
    split at h
    · exact Option.some.inj h ▸ .repeatLeft
    · exact Option.some.inj h ▸ .repeatRight
    · cases h
  · split at h
    · cases h
    · next hkeyed => exact Option.some.inj h ▸ .contains (by simpa using hkeyed)
  · exact Option.some.inj h ▸ .index
  · exact Option.some.inj h ▸ .attr
  · exact Option.some.inj h ▸ .join
  · exact Option.some.inj h ▸ .split
  · cases h

/-- The text begins with a character that is no minus sign. -/
def BeginsPlain (text : List Char) : Prop := ∃ c, text.head? = some c ∧ c ≠ '-'

/-- How a text begins does not depend on what follows. -/
theorem BeginsPlain.append {text : List Char} (h : BeginsPlain text) (rest : List Char) :
    BeginsPlain (text ++ rest) := by
  obtain ⟨c, hc, hne⟩ := h
  exact ⟨c, by rw [List.head?_append, hc, Option.some_or], hne⟩

theorem beginsPlain_append {a b : String} (h : BeginsPlain a.toList) :
    BeginsPlain (a ++ b).toList := by
  rw [String.toList_append]
  exact h.append _

/-- An operation that begins with its operand has its source in front. -/
theorem prefix_unary {op : UnaryOp} {t : ValueType} (h : beginsWithOperand op t = true)
    (a : String) : a.toList <+: (unary op t a).toList := by
  unfold beginsWithOperand at h
  split at h
  · exact List.prefix_rfl
  · -- The length of anything but a map is written behind its operand
    rw [Bool.not_eq_true'] at h
    simp [unary, h]
  · simp [unary, unaryFunction]
  · simp [unary, unaryFunction]
  · simp [unary, unaryFunction]
  · cases h

/-- Every other operation on one operand begins with a bracket or a name. -/
theorem beginsPlain_unary {op : UnaryOp} {t : ValueType} (h : beginsWithOperand op t = false)
    (a : String) : BeginsPlain (unary op t a).toList := by
  -- Here the first character is read off the source
  cases op with
  | neg => exact ⟨'(', by simp [unary], by decide⟩
  | not => exact ⟨'(', by simp [unary], by decide⟩
  | length =>
    have hkeyed : t.isKeyed = true := by simpa [beginsWithOperand] using h
    exact ⟨'O', by simp [unary, hkeyed], by decide⟩
  | stringify => exact ⟨'S', by simp [unary], by decide⟩
  | annotate _ => cases h
  | call f =>
    cases f with
    | abs => exact ⟨'M', by simp [unary, unaryFunction], by decide⟩
    | round => exact ⟨'M', by simp [unary, unaryFunction], by decide⟩
    | keys => exact ⟨'O', by simp [unary, unaryFunction], by decide⟩
    | values => exact ⟨'O', by simp [unary, unaryFunction], by decide⟩
    -- Methods are called on the operand, which stands in front
    | upper | lower | trim => cases h

/-- The operand in front is one of the two. -/
theorem First.eq {op : BinaryOp} {s t : ValueType} {left right x : α}
    (h : First left right op s t x) : x = left ∨ x = right := by
  cases h <;> simp

/-- The source of the operand in front is in front. -/
theorem First.prefix_binary {op : BinaryOp} {s t : ValueType} {a b x : String}
    (h : First a b op s t x) (name : Option String) :
    x.toList <+: (binary op s t a b name).toList := by
  cases h with
  | repeatLeft => simp [binary]
  | repeatRight => simp [binary]
  | contains h => simp [binary, h]
  | index =>
    rw [binary, indexed]
    -- Whatever is written behind the operand, it is in front
    split_ifs <;> simp
  | attr =>
    rw [binary, attributeSource]
    split_ifs <;> simp
  | join => simp [binary, binaryFunction]
  | split => simp [binary, binaryFunction]

/-- Every other operation on two operands begins with a bracket or a name. -/
theorem beginsPlain_binary {op : BinaryOp} {s t : ValueType} {a b : String}
    (h : first? op s t a b = none) (name : Option String) :
    BeginsPlain (binary op s t a b name).toList := by
  have hinfixed : ∀ symbol, BeginsPlain (infixed a symbol b).toList := fun symbol =>
    ⟨'(', by simp [infixed], by decide⟩
  have hrepeated : ∀ x y, BeginsPlain (repeated x y).toList := fun x y =>
    beginsPlain_append <| beginsPlain_append <| beginsPlain_append <| beginsPlain_append
      ⟨'A', rfl, by decide⟩
  -- Operator by operator; where an operand stands in front, `first?` would have given it
  cases op with
  | add =>
    simp only [binary]
    split
    · exact ⟨'[', by simp, by decide⟩
    · exact hinfixed "+"
  | mul =>
    simp only [first?] at h
    simp only [binary]
    -- The text or list repeated stands in front; otherwise there is a constructor or a bracket
    split at h
    · cases h
    · cases h
    · split
      · contradiction
      · contradiction
      · exact hrepeated a b
      · exact hrepeated b a
      · exact hinfixed "*"
  | floorDiv => exact ⟨'M', by simp [binary], by decide⟩
  | contains =>
    by_cases hkeyed : s.isKeyed = true
    · exact ⟨'O', by simp [binary, hkeyed], by decide⟩
    · simp [first?, hkeyed] at h
  | index => cases h
  | attr => cases h
  | call f =>
    cases f with
    | min => exact ⟨'M', by simp [binary, binaryFunction], by decide⟩
    | max => exact ⟨'M', by simp [binary, binaryFunction], by decide⟩
    | join | split => cases h
  | _ => exact hinfixed _

end Render

namespace Expr

open Render (first? First beginsWithOperand BeginsPlain)

/-- The innermost expression with whose source the source of the expression begins. -/
def leading : Expr → Expr
  | unary op e t => if beginsWithOperand op e.type then leading e else unary op e t
  | binary op l r t =>
    (first? op l.type r.type (leading l) (leading r)).getD (binary op l r t)
  | e => e

/-- The expression without the annotations around it. -/
def bare : Expr → Expr
  | unary (.annotate _) e _ => bare e
  | e => e

/-- The expression is a literal number with a minus sign, annotated or not. -/
def IsNegative (e : Expr) : Prop :=
  ∃ v : Value, e.bare = .literal v ∧ v.isNegative = true

/-- The source begins with a call of an external function whose name begins with a minus sign. -/
def LeadsSigned (e : Expr) : Prop :=
  ∃ name args t, e.leading = .external name args t ∧ name.toList.head? = some '-'

/-! ### What the source begins with -/

/-- The source of the leading expression is in front of the source. -/
theorem prefix_leading (e : Expr) : e.leading.render.toList <+: e.render.toList := by
  cases e with
  | unary op e t =>
    rw [leading]
    -- An operand that stands in front leads on to what leads in it
    split_ifs with h
    · exact (prefix_leading e).trans (Render.prefix_unary h _)
    · exact List.prefix_rfl
  | binary op l r t =>
    rw [leading, Render.first?_map]
    cases h : first? op l.type r.type l r with
    | none => exact List.prefix_rfl
    | some x =>
      -- The same operand is the first one among the sources
      have hsource : first? op l.type r.type l.render r.render = some x.render := by
        rw [Render.first?_map, h]
        rfl
      have hx : x.leading.render.toList <+: x.render.toList := by
        rcases (Render.first_of_first? h).eq with rfl | rfl
        · exact prefix_leading x
        · exact prefix_leading x
      exact hx.trans ((Render.first_of_first? hsource).prefix_binary _)
  | literal _ | field _ _ | logical _ _ _ _ | cond _ _ _ _ | external _ _ _ =>
    exact List.prefix_rfl

/-- The leading expression is a literal, a call of an external function, or one whose source begins
with no minus sign. -/
inductive Leads : Expr → Prop where
  | literal (v : Value) : Leads (.literal v)
  | external (name : String) (args : List Expr) (t : ValueType) : Leads (.external name args t)
  | plain {e : Expr} (h : BeginsPlain e.render.toList) : Leads e

/-- The leading expression is a literal, a call of an external function, or begins plainly. -/
theorem leads_leading (e : Expr) : Leads e.leading := by
  cases e with
  | literal v => exact .literal v
  | field k t =>
    refine .plain ?_
    change BeginsPlain (Render.field k).toList
    rw [Render.field]
    -- With a path or without, the source of a field begins with a name
    split_ifs
    · exact ⟨'s', by simp, by decide⟩
    · exact ⟨'s', by simp, by decide⟩
  | unary op e t =>
    rw [leading]
    split_ifs with h
    · exact leads_leading e
    · exact .plain (Render.beginsPlain_unary (by simpa using h) _)
  | binary op l r t =>
    rw [leading]
    cases h : first? op l.type r.type l.leading r.leading with
    | none =>
      have hsource : first? op l.type r.type l.render r.render = none := by
        rw [Render.first?_map, Option.map_eq_none_iff] at h ⊢
        exact h
      exact .plain (Render.beginsPlain_binary hsource _)
    | some x =>
      rcases (Render.first_of_first? h).eq with rfl | rfl
      · exact leads_leading l
      · exact leads_leading r
  | logical op l r t =>
    refine .plain ⟨'(', ?_, by decide⟩
    cases op <;> simp [leading, render, Render.logical, Render.infixed]
  | cond c y n t => exact .plain ⟨'(', by simp [leading, render], by decide⟩
  | external name args t => exact .external name args t

/-- The source of a literal is its JSON text, which begins with a minus sign exactly for negative
numbers. -/
theorem render_literal (v : Value) : Render.Signed v.isNegative (literal v).render.toList := by
  rw [render]
  exact v.signed_jsonText

/-- A call of an external function begins with the name, or with the bracket if the name is
empty. -/
theorem head?_external (name : String) (args : List Expr) (t : ValueType) :
    (external name args t).render.toList.head? = some (name.toList.head?.getD '(') := by
  rw [render]
  cases h : name.toList <;> simp [h]

/-- What the source of a leading expression begins with is what the source begins with. -/
theorem head?_render (e : Expr) :
    e.render.toList ≠ [] ∧ e.render.toList.head? = e.leading.render.toList.head? := by
  -- What leads is not empty, so its first character is the first of all
  have hne : e.leading.render.toList ≠ [] := by
    have hleads := leads_leading e
    generalize e.leading = x at hleads
    cases hleads with
    | literal v => exact (render_literal v).ne_nil
    | external name args t => exact List.isSome_head?.1 (by rw [head?_external]; rfl)
    | plain h =>
      obtain ⟨c, hc, -⟩ := h
      exact List.isSome_head?.1 (by rw [hc]; rfl)
  obtain ⟨rest, hrest⟩ := prefix_leading e
  rw [← hrest, List.head?_append_of_ne_nil _ hne]
  exact ⟨by simp [hne], rfl⟩

/-- The source begins with a minus sign exactly if it begins with a negative number or with a call
of an external function whose name does. -/
theorem head?_render_iff (e : Expr) : e.render.toList.head? = some '-' ↔
    (∃ v : Value, e.leading = .literal v ∧ v.isNegative = true) ∨ e.LeadsSigned := by
  rw [(head?_render e).2]
  have hleads := leads_leading e
  -- The head is that of the leading expression, which is one of three kinds
  constructor
  · intro hhead
    unfold LeadsSigned
    generalize e.leading = x at hleads hhead
    cases hleads with
    | literal v => exact .inl ⟨v, rfl, (render_literal v).head?_iff.1 hhead⟩
    | external name args t =>
      refine .inr ⟨name, args, t, rfl, ?_⟩
      rw [head?_external] at hhead
      cases hname : name.toList.head? <;> simp_all
    | plain h =>
      obtain ⟨c, hc, hne⟩ := h
      exact absurd (Option.some.inj (hc.symm.trans hhead)) hne
  · rintro (⟨v, heq, hv⟩ | ⟨name, args, t, heq, hname⟩)
    · rw [heq]
      exact (render_literal v).head?_iff.2 hv
    · rw [heq, head?_external, hname, Option.getD_some]

/-! ### Types -/

/-- An operation that takes a number and whose source begins with it is an annotation, and gives
the type that the number has. -/
theorem eq_annotate_of_numeric {op : UnaryOp} {s t : ValueType} (hs : s.isNumeric = true)
    (hop : beginsWithOperand op s = true) (ht : op.resultType s = .ok t) :
    op = .annotate s ∧ t = s := by
  -- All others that begin with their operand do not take numbers
  cases op with
  | annotate target =>
    simp only [UnaryOp.resultType] at ht
    split_ifs at ht with href
    · obtain rfl := Except.ok.inj ht
      -- A type that refines a type of numbers is that type
      have heq : target = s := by
        cases s <;> cases hs <;> cases target <;> simp_all [ValueType.refines]
      exact ⟨by rw [heq], heq⟩
  | length => cases s <;> cases hs <;> cases ht
  | call f =>
    cases f with
    | upper | lower | trim => cases s <;> cases hs <;> cases ht
    | abs | round | keys | values => cases hop
  | neg | not | stringify => cases hop

/-- No operation with two operands takes a number where its source begins. -/
theorem isNumeric_of_first {op : BinaryOp} {l r : Expr} {x : Expr} {t : ValueType}
    (ht : op.resultType l.type r.type r.literalText? = .ok t)
    (hfirst : First l r op l.type r.type x) : x.type.isNumeric = false := by
  rw [Bool.eq_false_iff]
  intro hx
  -- Only the types matter from here on
  generalize hl : l.type = s at ht hfirst
  generalize hr : r.type = t' at ht hfirst
  generalize r.literalText? = key at ht
  cases hfirst with
  | repeatLeft =>
    rw [hl] at hx
    cases hx
  | repeatRight =>
    rw [hr] at hx
    cases hx
  -- The rules of the others refuse a number as the operand to begin with
  | contains h =>
    rw [hl] at hx
    cases s <;> cases hx <;> cases ht
  | index =>
    rw [hl] at hx
    cases s <;> cases hx <;> cases t' <;> cases ht
  | attr =>
    rw [hl] at hx
    cases key <;> cases s <;> cases hx <;> cases ht
  | join =>
    rw [hl] at hx
    cases s <;> cases hx <;> cases ht
  | split =>
    rw [hl] at hx
    cases s <;> cases hx <;> cases ht

/-- In an expression that the rules allow, what a literal number leads is that number, annotated. -/
theorem WellTyped.bare_of_leading {v : Value} (hv : (ValueType.ofValue v).isNumeric = true) :
    ∀ {e : Expr}, e.WellTyped → e.leading = .literal v →
      e.bare = .literal v ∧ e.type = ValueType.ofValue v
  | .literal w, _, h => by
    obtain rfl := Expr.literal.inj h
    exact ⟨rfl, rfl⟩
  | .unary op e t, ⟨he, ht, _⟩, h => by
    rw [leading] at h
    -- The operand stands in front, so it leads and is a number as well
    split_ifs at h with hop
    obtain ⟨hbare, htype⟩ := he.bare_of_leading hv h
    obtain ⟨rfl, rfl⟩ := eq_annotate_of_numeric (htype ▸ hv) hop ht
    exact ⟨hbare, htype⟩
  | .binary op l r t, ⟨hl, hr, ht⟩, h => by
    rw [leading, Render.first?_map] at h
    cases hfirst : first? op l.type r.type l r with
    | none =>
      rw [hfirst] at h
      cases h
    | some x =>
      rw [hfirst] at h
      have hfirst := Render.first_of_first? hfirst
      -- An operand in front of a binary operation is no number
      have hnumeric := isNumeric_of_first ht hfirst
      have htype : x.type = ValueType.ofValue v := by
        rcases hfirst.eq with rfl | rfl
        · exact (hl.bare_of_leading hv h).2
        · exact (hr.bare_of_leading hv h).2
      rw [htype, hv] at hnumeric
      cases hnumeric

/-! ### Inside an expression -/

mutual

/-- The parts of a rebased expression are the rebased parts. -/
theorem subexpressions_rebased (base : String) : ∀ e : Expr,
    (e.rebased base).subexpressions = e.subexpressions.map (rebased base)
  | .literal _ => rfl
  | .field _ _ => rfl
  | .unary _ e _ => by
    simp only [rebased, subexpressions, List.map_cons, subexpressions_rebased base e]
  | .binary _ l r _ => by
    simp only [rebased, subexpressions, List.map_cons, List.map_append,
      subexpressions_rebased base l, subexpressions_rebased base r]
  | .logical _ l r _ => by
    simp only [rebased, subexpressions, List.map_cons, List.map_append,
      subexpressions_rebased base l, subexpressions_rebased base r]
  | .cond c y n _ => by
    simp only [rebased, subexpressions, List.map_cons, List.map_append,
      subexpressions_rebased base c, subexpressions_rebased base y, subexpressions_rebased base n]
  | .external _ args _ => by
    simp only [rebased, subexpressions, List.map_cons, argSubexpressions_rebased base args]

/-- The parts of rebased arguments are the rebased parts. -/
theorem argSubexpressions_rebased (base : String) : ∀ es : List Expr,
    argSubexpressions (rebasedArgs base es) = (argSubexpressions es).map (rebased base)
  | [] => rfl
  | e :: es => by
    simp only [rebasedArgs, argSubexpressions, List.map_append, subexpressions_rebased base e,
      argSubexpressions_rebased base es]

end

mutual

/-- What is inside a part is inside the whole. -/
theorem mem_subexpressions_trans {x y : Expr} (hy : y ∈ x.subexpressions) :
    ∀ {e : Expr}, x ∈ e.subexpressions → y ∈ e.subexpressions
  | .literal _, h => List.mem_singleton.1 h ▸ hy
  | .field _ _, h => List.mem_singleton.1 h ▸ hy
  | .unary _ _ _, h => by
    rcases List.mem_cons.1 h with rfl | h
    · exact hy
    · exact List.mem_cons_of_mem _ (mem_subexpressions_trans hy h)
  | .binary _ _ _ _, h => by
    -- The whole expression, or one of its operands
    rcases List.mem_cons.1 h with rfl | h
    · exact hy
    · exact List.mem_cons_of_mem _ (List.mem_append.2 ((List.mem_append.1 h).imp
        (mem_subexpressions_trans hy) (mem_subexpressions_trans hy)))
  | .logical _ _ _ _, h => by
    rcases List.mem_cons.1 h with rfl | h
    · exact hy
    · exact List.mem_cons_of_mem _ (List.mem_append.2 ((List.mem_append.1 h).imp
        (mem_subexpressions_trans hy) (mem_subexpressions_trans hy)))
  | .cond _ _ _ _, h => by
    rcases List.mem_cons.1 h with rfl | h
    · exact hy
    · exact List.mem_cons_of_mem _ (List.mem_append.2 ((List.mem_append.1 h).imp
        (mem_subexpressions_trans hy) fun h => List.mem_append.2 ((List.mem_append.1 h).imp
          (mem_subexpressions_trans hy) (mem_subexpressions_trans hy))))
  | .external _ _ _, h => by
    rcases List.mem_cons.1 h with rfl | h
    · exact hy
    · exact List.mem_cons_of_mem _ (mem_argSubexpressions_trans hy h)

/-- What is inside a part of an argument is inside the arguments. -/
theorem mem_argSubexpressions_trans {x y : Expr} (hy : y ∈ x.subexpressions) :
    ∀ {es : List Expr}, x ∈ argSubexpressions es → y ∈ argSubexpressions es
  | _ :: _, h => List.mem_append.2 ((List.mem_append.1 h).imp
    (mem_subexpressions_trans hy) (mem_argSubexpressions_trans hy))

end

/-- The leading expression is a part. -/
theorem leading_mem_subexpressions : ∀ e : Expr, e.leading ∈ e.subexpressions
  | .literal _ => mem_subexpressions_self _
  | .field _ _ => mem_subexpressions_self _
  | .unary op e t => by
    rw [leading]
    split_ifs
    · exact List.mem_cons_of_mem _ (leading_mem_subexpressions e)
    · exact mem_subexpressions_self _
  | .binary op l r t => by
    rw [leading]
    cases h : first? op l.type r.type l.leading r.leading with
    | none => exact mem_subexpressions_self _
    | some x =>
      refine List.mem_cons_of_mem _ (List.mem_append.2 ?_)
      -- The operand in front is one of the two, and what leads in it is inside of it
      rcases (Render.first_of_first? h).eq with rfl | rfl
      · exact .inl (leading_mem_subexpressions l)
      · exact .inr (leading_mem_subexpressions r)
  | .logical _ _ _ _ => mem_subexpressions_self _
  | .cond _ _ _ _ => mem_subexpressions_self _
  | .external _ _ _ => mem_subexpressions_self _

/-- A part of the arguments is a part of one of them. -/
theorem mem_argSubexpressions {x : Expr} {es : List Expr} (h : x ∈ argSubexpressions es) :
    ∃ e ∈ es, x ∈ e.subexpressions := by
  induction es with
  | nil => cases h
  | cons e es ih =>
    rcases List.mem_append.1 h with h | h
    · exact ⟨e, List.mem_cons_self, h⟩
    · obtain ⟨e', he', hx⟩ := ih h
      exact ⟨e', List.mem_cons_of_mem _ he', hx⟩

/-- The parts of a composed expression are itself and the parts of its operands. -/
theorem Composes.mem_subexpressions {operands : List Expr} {e x : Expr} (h : Composes operands e)
    (hx : x ∈ e.subexpressions) : x = e ∨ ∃ o ∈ operands, x ∈ o.subexpressions := by
  cases h <;> simpa [subexpressions] using hx

/-- Whatever is inside a built expression was built. -/
theorem Built.subexpression {e x : Expr} (he : e.Built) (hx : x ∈ e.subexpressions) : x.Built := by
  -- Induction on how the expression was built, as its operands were built before it
  induction he generalizing x with
  | literal hv =>
    obtain rfl := List.mem_singleton.1 hx
    exact .literal hv
  | field k t =>
    obtain rfl := List.mem_singleton.1 hx
    exact .field k t
  | operation htarget hoperands h ih =>
    -- A part is the whole operation, or is inside one of its operands
    rcases (composes_operation h).mem_subexpressions hx with rfl | ⟨o, ho, hx⟩
    · exact .operation htarget hoperands h
    · exact ih o ho hx
  | call hargs h ih =>
    rcases (composes_call h).mem_subexpressions hx with rfl | ⟨o, ho, hx⟩
    · exact .call hargs h
    · exact ih o ho hx
  | external name returns hargs ih =>
    rcases List.mem_cons.1 hx with rfl | hx
    · exact .external name returns hargs
    · obtain ⟨a, ha, hx⟩ := mem_argSubexpressions hx
      exact ih a ha hx
  | rebased base he ih =>
    rw [subexpressions_rebased] at hx
    -- A part of the rebased expression is a part that was rebased
    obtain ⟨y, hy, rfl⟩ := List.mem_map.1 hx
    exact .rebased base (ih hy)

/-- An annotated literal is led by the literal. -/
theorem leading_of_bare {v : Value} : ∀ e : Expr, e.bare = .literal v → e.leading = .literal v
  | .literal _, h => h
  | .field _ _, h => h
  | .unary op e _, h => by
    cases op with
    -- An annotation writes nothing
    | annotate target => exact leading_of_bare e h
    | _ => cases h
  | .binary _ _ _ _, h => by cases h
  | .logical _ _ _ _, h => h
  | .cond _ _ _ _, h => h
  | .external _ _ _, h => h

/-- Only numbers are negative. -/
theorem isNumeric_of_isNegative {v : Value} (h : v.isNegative = true) :
    (ValueType.ofValue v).isNumeric = true := by
  cases v <;> first | rfl | cases h

/-- The source of a built expression begins with a minus sign exactly if it is a negative number, or
begins with a call of an external function whose name does. -/
theorem Built.head?_iff {e : Expr} (he : e.Built) :
    e.render.toList.head? = some '-' ↔ e.IsNegative ∨ e.LeadsSigned := by
  rw [head?_render_iff]
  refine or_congr_left ⟨fun ⟨v, hlead, hv⟩ => ?_, fun ⟨v, hbare, hv⟩ => ?_⟩
  · exact ⟨v, (he.wellTyped.bare_of_leading (isNumeric_of_isNegative hv) hlead).1, hv⟩
  · exact ⟨v, leading_of_bare e hbare, hv⟩

end Expr

end ReactiveState
