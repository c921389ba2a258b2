import Mathlib.Data.List.Forall2
import ReactiveState.Proofs.Typing.Weakening

/-!
# Composing operands of which less is known

An operation that composes also composes for operands of which less is known, and its type is the
type before with some parts not known, unless the operands clash; then it is refused.  Calls of
functions have no such exception (`Expr.composition_weakened`).

A logical operation and a conditional give the type of an operand or of a branch, so what they give
of the weaker types has to be compared with what they gave before: `LogicalOp.eq_right_of_known` and
`Branches` say what that is where both types are known.
-/

namespace ReactiveState

open ValueType

variable {a b a' b' t u : ValueType}

/-! ### Logical operations -/

namespace LogicalOp

/-- Nothing is known of a logical operation with an operand of which nothing is known. -/
theorem resultType_of_unknown (op : LogicalOp) (h : a = .unknown ∨ b = .unknown) :
    op.resultType a b = .ok .unknown := by
  unfold resultType
  split
  · next heq => rcases h with rfl | rfl <;> rw [heq] <;> rfl
  · split
    · next hor =>
      -- An optional type is known, so the other operand is not
      rcases h with rfl | rfl
      · cases hor.2
      · rfl
    · rfl

/-- Of known operands the result has the type of the right one. -/
theorem eq_right_of_known {op : LogicalOp} (h : op.resultType a b = .ok t) (ha : a ≠ .unknown)
    (hb : b ≠ .unknown) : t = b := by
  unfold resultType at h
  -- The types are the same, or the left one is the optional type of the right one
  split at h
  · next heq => exact (Except.ok.inj h).symm.trans heq
  · split at h
    · exact (Except.ok.inj h).symm
    · split at h
      · next hunknown => exact absurd hunknown (not_or.2 ⟨ha, hb⟩)
      · cases h

/-- Known operands that do not clash give the type of the second one. -/
theorem resultType_of_not_clashes (op : LogicalOp) (ha : a ≠ .unknown) (hb : b ≠ .unknown)
    (hclash : ¬ Operator.Clashes (.logical op) [a, b]) : op.resultType a b = .ok b := by
  unfold resultType
  split
  · next heq =>
    rw [heq]
    rfl
  · next hne =>
    split
    · rfl
    · next hor => exact absurd (.logical hne ha hb fun hop heq => hor ⟨hop, heq⟩) hclash

/-- Logical operations on less specific operands. -/
theorem resultType_weakens (op : LogicalOp) (ha : a.refines a' = true) (hb : b.refines b' = true)
    (hclash : ¬ Operator.Clashes (.logical op) [a', b']) :
    Weakens (op.resultType a b) (op.resultType a' b') := by
  by_cases hunknown : a' = .unknown ∨ b' = .unknown
  · rw [resultType_of_unknown op hunknown]
    exact weakens_unknown
  rw [not_or] at hunknown
  intro t ht
  -- With both types known, the result is the type of the second operand on both sides
  obtain rfl := eq_right_of_known ht (ne_unknown_of_refines ha hunknown.1)
    (ne_unknown_of_refines hb hunknown.2)
  exact ⟨b', resultType_of_not_clashes op hunknown.1 hunknown.2 hclash, hb⟩

end LogicalOp

/-! ### Conditionals -/

/-- The branches that the rule of the conditional takes where both types are known, and the type of
the result. -/
inductive Branches : ValueType → ValueType → ValueType → Prop where
  | same (a : ValueType) : Branches a a a
  | nullLeft (b : ValueType) : Branches .null b b.orNull
  | nullRight (a : ValueType) : Branches a .null a.orNull
  | optionalLeft {b : ValueType} (hb : b ≠ .null) : Branches (.optional b) b b.orNull
  | optionalRight {a : ValueType} (ha : a ≠ .null) : Branches a (.optional a) a.orNull

/-- The branches may be exchanged. -/
theorem Branches.symm (h : Branches a b t) : Branches b a t := by
  cases h with
  | same => exact .same a
  | nullLeft => exact .nullRight b
  | nullRight => exact .nullLeft a
  | optionalLeft hb => exact .optionalRight hb
  | optionalRight ha => exact .optionalLeft ha

/-- Known branches that are accepted are related in one of these ways. -/
theorem branches_of_condType (h : condType a b = .ok t) (ha : a ≠ .unknown) (hb : b ≠ .unknown) :
    Branches a b t := by
  unfold condType at h
  -- The arms in the order of the rule
  split at h
  · next heq =>
    obtain rfl := Except.ok.inj h
    exact heq ▸ .same a
  split at h
  · next hunknown => exact absurd hunknown (not_or.2 ⟨ha, hb⟩)
  split at h
  · next heq =>
    obtain rfl := Except.ok.inj h
    exact heq ▸ .nullLeft b
  split at h
  · next heq =>
    obtain rfl := Except.ok.inj h
    exact heq ▸ .nullRight a
  split at h
  · next hnull heq =>
    obtain rfl := Except.ok.inj h
    exact heq ▸ .optionalLeft hnull
  split at h
  · next hnull _ _ heq =>
    obtain rfl := Except.ok.inj h
    exact heq ▸ .optionalRight hnull
  · cases h

/-- Nothing is known of a choice with a branch of which nothing is known. -/
theorem condType_of_unknown (h : a = .unknown ∨ b = .unknown) : condType a b = .ok .unknown := by
  unfold condType
  split
  · next heq => rcases h with rfl | rfl <;> rw [heq] <;> rfl
  · rfl

/-- Known branches that do not clash are accepted. -/
theorem condType_of_not_clashes {c : ValueType} (ha : a ≠ .unknown) (hb : b ≠ .unknown)
    (hclash : ¬ Operator.Clashes .cond [c, a, b]) : ∃ t, condType a b = .ok t := by
  unfold condType
  -- The last arm is for what none of the others takes, and that is a clash
  split
  · -- The arms that accept, in the order of the rule
    exact ⟨_, rfl⟩
  split
  · exact ⟨_, rfl⟩
  split
  · exact ⟨_, rfl⟩
  split
  · exact ⟨_, rfl⟩
  split
  · exact ⟨_, rfl⟩
  split
  · exact ⟨_, rfl⟩
  · next hne _ hnull hnull' hoptional hoptional' =>
    exact absurd (.cond hne ha hb hnull hnull' hoptional hoptional') hclash

/-- Only null is more specific than null. -/
theorem eq_null_of_refines (h : a.refines .null = true) : a = .null := by
  cases a <;> first | rfl | cases h

/-- Optional types on both sides cancel. -/
theorem refines_of_optional : ∀ {t u : ValueType}, (ValueType.optional t).refines u = true →
    t.refines (.optional u) = true → t.refines u = true
  | t, .unknown, _, _ => refines_unknown t
  | t, .optional u, h, h' => by
    -- Both go down by one optional type, and the two facts change places
    obtain ⟨s, rfl, hs⟩ := refines_optional_right h'
    exact refines_of_optional (t := s) h hs
  | _, .null, h, _ | _, .bool, h, _ | _, .int, h, _ | _, .float, h, _ | _, .str, h, _
  | _, .sequence _, h, _ | _, .mapping _, h, _ | _, .object _, h, _ => by cases h

namespace Branches

/-- Both branches are weakened to one type: this is the weaker type of the choice. -/
theorem refines_same (h : Branches a b t) (ha : a.refines u = true) (hb : b.refines u = true)
    (hunknown : u ≠ .unknown) : t.refines u = true := by
  -- By the relation of the branches before they were weakened
  cases h with
  | same => exact ha
  | nullLeft =>
    obtain rfl := eq_of_refines_atom rfl ha hunknown
    rw [eq_null_of_refines hb]
    rfl
  | nullRight =>
    obtain rfl := eq_of_refines_atom rfl hb hunknown
    rw [eq_null_of_refines ha]
    rfl
  | optionalLeft =>
    obtain ⟨x, rfl, -⟩ := (refines_optional_iff.1 ha).resolve_left hunknown
    obtain ⟨y, rfl, -⟩ := refines_optional_right hb
    exact hb
  | optionalRight =>
    obtain ⟨x, rfl, -⟩ := (refines_optional_iff.1 hb).resolve_left hunknown
    obtain ⟨y, rfl, -⟩ := refines_optional_right ha
    exact ha

/-- The first branch is weakened to null, which it then was before. -/
theorem refines_nullLeft (h : Branches a b t) (ha : a.refines .null = true)
    (hb : b.refines b' = true) (hunknown : b' ≠ .unknown) : t.refines b'.orNull = true := by
  obtain rfl := eq_null_of_refines ha
  -- How the types of the branches were joined before
  cases h with
  | same =>
    rw [eq_of_refines_atom rfl hb hunknown]
    rfl
  | nullLeft => exact refines_orNull hb
  | nullRight =>
    rw [eq_of_refines_atom rfl hb hunknown]
    rfl
  | optionalRight hne => exact absurd rfl hne

/-- The first branch is weakened to the optional type of the second one. -/
theorem refines_optionalLeft (h : Branches a b t) (ha : a.refines (.optional b') = true)
    (hb : b.refines b' = true) (hunknown : b' ≠ .unknown) (hnull : b' ≠ .null) :
    t.refines b'.orNull = true := by
  cases h with
  | same =>
    obtain ⟨x, rfl, -⟩ := refines_optional_right ha
    obtain ⟨y, rfl, -⟩ := (refines_optional_iff.1 hb).resolve_left hunknown
    exact hb
  | nullLeft => cases ha
  | nullRight => exact absurd (eq_of_refines_atom rfl hb hunknown) hnull
  | optionalLeft => exact refines_orNull hb
  | optionalRight =>
    -- The one is the optional type of the other on either side
    obtain ⟨x, rfl, hx⟩ := refines_optional_right ha
    obtain ⟨y, rfl, hy⟩ := (refines_optional_iff.1 hb).resolve_left hunknown
    exact refines_of_optional (t := x) hy hx

/-- Weaker branches have a weaker result, by what the weaker ones are. -/
theorem refines (h : Branches a b t) (h' : Branches a' b' u) (ha : a.refines a' = true)
    (hb : b.refines b' = true) (hunknown : a' ≠ .unknown) (hunknown' : b' ≠ .unknown) :
    t.refines u = true := by
  cases h' with
  | same => exact h.refines_same ha hb hunknown
  | nullLeft => exact h.refines_nullLeft ha hb hunknown'
  | nullRight => exact h.symm.refines_nullLeft hb ha hunknown
  | optionalLeft hnull => exact h.refines_optionalLeft ha hb hunknown' hnull
  | optionalRight hnull => exact h.symm.refines_optionalLeft hb ha hunknown hnull

end Branches

/-- A choice between less specific branches. -/
theorem condType_weakens {c : ValueType} (ha : a.refines a' = true) (hb : b.refines b' = true)
    (hclash : ¬ Operator.Clashes .cond [c, a', b']) :
    Weakens (condType a b) (condType a' b') := by
  by_cases hunknown : a' = .unknown ∨ b' = .unknown
  · rw [condType_of_unknown hunknown]
    exact weakens_unknown
  rw [not_or] at hunknown
  intro t ht
  obtain ⟨u, hu⟩ := condType_of_not_clashes hunknown.1 hunknown.2 hclash
  -- Both choices have known branches, which are related in one of four ways before and after
  have hbranches := branches_of_condType ht (ne_unknown_of_refines ha hunknown.1)
    (ne_unknown_of_refines hb hunknown.2)
  have hbranches' := branches_of_condType hu hunknown.1 hunknown.2
  exact ⟨u, hu, hbranches.refines hbranches' ha hb hunknown.1 hunknown.2⟩

/-! ### Composition -/

namespace Expr

variable {e : Expr} {es es' : List Expr} {op : Operator}

/-- Two types are those of two operands. -/
private theorem eq_pair_of_map (h : es.map type = [a, b]) :
    ∃ l r, es = [l, r] ∧ l.type = a ∧ r.type = b := by
  obtain ⟨l, es', rfl, hl, h⟩ := List.map_eq_cons_iff.1 h
  obtain ⟨r, rfl, hr⟩ := List.map_eq_singleton_iff.1 h
  exact ⟨l, r, rfl, hl, hr⟩

/-- An operation on two operands is refused with the error of its rule. -/
theorem operation_binary_of_error {op : BinaryOp} {l r : Expr} {err : CompositionError}
    (h : op.resultType l.type r.type r.literalText? = .error err) :
    operation (.binary op) [l, r] = .error err := by
  rw [operation, h]
  rfl

/-- Operands that clash are refused. -/
theorem operation_of_clashes (h : op.Clashes (es.map type)) :
    ∃ left right, operation op es = .error (.typeMismatch op.symbol left right) := by
  generalize hts : es.map type = ts at h
  cases h with
  | @add x y hne hx hy =>
    obtain ⟨l, r, rfl, hl, hr⟩ := eq_pair_of_map hts
    -- A common item type would be that of both lists
    have hjoin : x.unifyItems? y = none := by
      by_contra hsome
      obtain ⟨t, ht⟩ := Option.ne_none_iff_exists'.1 hsome
      obtain ⟨htx, hty⟩ := unifyItems?_cases ht
      exact hne ((htx.resolve_right hx).symm.trans (hty.resolve_right hy))
    refine ⟨l.type, some r.type, operation_binary_of_error ?_⟩
    rw [hl, hr]
    simp only [BinaryOp.resultType, hjoin]
    rfl
  | logical hne ha hb hoptional =>
    obtain ⟨l, r, rfl, rfl, rfl⟩ := eq_pair_of_map hts
    refine ⟨l.type, some r.type, ?_⟩
    rw [operation, LogicalOp.resultType, if_neg hne, if_neg fun h => hoptional h.1 h.2,
      if_neg (not_or.2 ⟨ha, hb⟩)]
    rfl
  | cond hne ha hb hnull hnull' hoptional hoptional' =>
    obtain ⟨c, es, rfl, -, hts⟩ := List.map_eq_cons_iff.1 hts
    obtain ⟨y, n, rfl, rfl, rfl⟩ := eq_pair_of_map hts
    refine ⟨y.type, some n.type, ?_⟩
    rw [operation, condType, if_neg hne, if_neg (not_or.2 ⟨ha, hb⟩), if_neg hnull, if_neg hnull',
      if_neg hoptional, if_neg hoptional']
    rfl
  | compare hop hmeet hne =>
    obtain ⟨l, r, rfl, rfl, rfl⟩ := eq_pair_of_map hts
    refine ⟨l.type, some r.type, operation_binary_of_error ?_⟩
    have hc := hmeet.not_comparable hne
    rcases hop with rfl | rfl <;> rw [BinaryOp.resultType, hc] <;> rfl
  | contains hmeet hne =>
    obtain ⟨l, r, rfl, hl, rfl⟩ := eq_pair_of_map hts
    refine ⟨l.type, some r.type, operation_binary_of_error ?_⟩
    have hc : l.type.searchable r.type = false := by
      rw [hl]
      exact hmeet.not_comparable hne
    rw [BinaryOp.resultType, hc]
    rfl

/-- The second expression may stand as an operand where the first did: less is known of its type,
and it is the same literal key if the first was one. -/
structure Weakens (e e' : Expr) : Prop where
  type : e.type.refines e'.type = true
  literalText? : e'.literalText? = e.literalText?

/-- One operand is weakened to one operand. -/
private theorem forall₂_one {x : Expr} (h : List.Forall₂ Weakens [x] es') :
    ∃ x', es' = [x'] ∧ x.Weakens x' := by
  obtain ⟨x', _, hx, hnil, rfl⟩ := List.forall₂_cons_left_iff.1 h
  obtain rfl := List.forall₂_nil_left_iff.1 hnil
  exact ⟨x', rfl, hx⟩

/-- Two operands are weakened to two operands, each of them. -/
private theorem forall₂_two {x y : Expr} (h : List.Forall₂ Weakens [x, y] es') :
    ∃ x' y', es' = [x', y'] ∧ x.Weakens x' ∧ y.Weakens y' := by
  obtain ⟨x', _, hx, hrest, rfl⟩ := List.forall₂_cons_left_iff.1 h
  obtain ⟨y', rfl, hy⟩ := forall₂_one hrest
  exact ⟨x', y', rfl, hx, hy⟩

/-- What is built of a rule's result is built of the weaker result too. -/
theorem exists_of_weakens {r r' : Typed} {f f' : ValueType → Expr} (h : ValueType.Weakens r r')
    (hf : ∀ t, (f t).type = t) (hf' : ∀ t, (f' t).type = t)
    (he : (r.bind fun t => .ok (f t)) = .ok e) :
    ∃ e', (r'.bind fun t => (.ok (f' t) : Except CompositionError Expr)) = .ok e' ∧
      e.type.refines e'.type = true := by
  obtain ⟨t, ht, he⟩ := bind_eq_ok he
  obtain rfl := Except.ok.inj he
  obtain ⟨t', rfl, hrefines⟩ := h t ht
  exact ⟨f' t', rfl, by rwa [hf, hf']⟩

/-- An operation composes of weaker operands too if these do not clash. -/
theorem operation_weakens (hes : List.Forall₂ Weakens es es')
    (htarget : ∀ target, op = .unary (.annotate target) → target.WellFormed)
    (hclash : ¬ op.Clashes (es'.map type)) (h : operation op es = .ok e) :
    ∃ e', operation op es' = .ok e' ∧ e.type.refines e'.type = true := by
  unfold operation at h
  split at h
  · next op x =>
    obtain ⟨x', rfl, hx⟩ := forall₂_one hes
    have hrule := op.resultType_weakens (fun target heq => htarget target (heq ▸ rfl)) hx.type
    exact exists_of_weakens hrule (fun _ => rfl) (fun _ => rfl) h
  · next op l r =>
    obtain ⟨l', r', rfl, hl, hr⟩ := forall₂_two hes
    -- The rule may look at a literal key, which stays as it is
    rw [operation, hr.literalText?]
    have hrule : ValueType.Weakens (op.resultType l.type r.type r.literalText?)
        (op.resultType l'.type r'.type r.literalText?) :=
      op.resultType_weakens hl.type hr.type hclash
    exact exists_of_weakens hrule (fun _ => rfl) (fun _ => rfl) h
  · next op l r =>
    obtain ⟨l', r', rfl, hl, hr⟩ := forall₂_two hes
    have hrule := op.resultType_weakens hl.type hr.type hclash
    exact exists_of_weakens hrule (fun _ => rfl) (fun _ => rfl) h
  · next c y n =>
    obtain ⟨c', _, -, hrest, rfl⟩ := List.forall₂_cons_left_iff.1 hes
    obtain ⟨y', n', rfl, hy, hn⟩ := forall₂_two hrest
    have hrule := condType_weakens hy.type hn.type hclash
    exact exists_of_weakens hrule (fun _ => rfl) (fun _ => rfl) h
  · cases h

/-- A call composes of weaker arguments too. -/
theorem call_weakens {name : String} (hes : List.Forall₂ Weakens es es')
    (h : call name es = .ok e) :
    ∃ e', call name es' = .ok e' ∧ e.type.refines e'.type = true := by
  unfold call at h ⊢
  split at h
  · -- An unknown name is refused whatever the arguments
    cases h
  · next f hname =>
    split at h
    · next x =>
      obtain ⟨x', rfl, hx⟩ := forall₂_one hes
      exact exists_of_weakens (f.resultType_weakens hx.type) (fun _ => rfl) (fun _ => rfl) h
    · cases h
  · next f hname =>
    split at h
    · next l r =>
      obtain ⟨l', r', rfl, hl, hr⟩ := forall₂_two hes
      exact exists_of_weakens (f.resultType_weakens hl.type hr.type) (fun _ => rfl) (fun _ => rfl) h
    · cases h

/-- What composes also composes of weaker operands, with a weaker type, unless these clash; then it
is refused.  A function never refuses weaker arguments. -/
theorem composition_weakened (hes : List.Forall₂ Weakens es es') :
    (∀ op e, (∀ target, op = .unary (.annotate target) → target.WellFormed) →
      operation op es = .ok e →
      (¬ op.Clashes (es'.map type) ∧
        ∃ e', operation op es' = .ok e' ∧ e.type.refines e'.type = true) ∨
      (op.Clashes (es'.map type) ∧
        ∃ left right, operation op es' = .error (.typeMismatch op.symbol left right))) ∧
    ∀ name e, call name es = .ok e →
      ∃ e', call name es' = .ok e' ∧ e.type.refines e'.type = true := by
  refine ⟨fun op e htarget h => ?_, fun name e h => call_weakens hes h⟩
  -- The rules look at types alone, so clashing decides
  by_cases hclash : op.Clashes (es'.map type)
  · exact .inr ⟨hclash, operation_of_clashes hclash⟩
  · exact .inl ⟨hclash, operation_weakens hes htarget hclash h⟩

/-- A field that holds a list. -/
def items (item : ValueType) : Expr :=
  .field (.relative "items") (.sequence item)

/-- A field of a list type becomes one of a less specific list type. -/
theorem items_weakens (h : a.refines b = true) : (items a).Weakens (items b) :=
  ⟨h, rfl⟩

/-- Where the item type of one of two joined lists is not known, it is taken from the other. -/
theorem composition_weakened_items :
    List.Forall₂ Weakens [items .int, items .int] [items .unknown, items .int] ∧
      ∃ e', operation (.binary .add) [items .unknown, items .int] = .ok e' ∧
        (ValueType.sequence .int).refines e'.type = true := by
  have hes : List.Forall₂ Weakens [items .int, items .int] [items .unknown, items .int] :=
    .cons (items_weakens rfl) (.cons (items_weakens rfl) .nil)
  refine ⟨hes, ?_⟩
  rcases (composition_weakened hes).1 (.binary .add) (.binary .add (items .int) (items .int)
    (.sequence .int)) (by simp) rfl with ⟨-, h⟩ | ⟨hclash, -⟩
  · exact h
  · -- The item type that is not known is the unknown type itself
    cases hclash with
    | add _ hx _ => exact absurd rfl hx
    | compare hop _ _ => exact absurd hop (by simp)

/-- One level further down the item types are two list types, and the lists are not joined although
the item of one of these is unknown. -/
theorem join_refused_items :
    List.Forall₂ Weakens [items (.sequence .int), items (.sequence .int)]
        [items (.sequence .unknown), items (.sequence .int)] ∧
      (∃ e, operation (.binary .add) [items (.sequence .int), items (.sequence .int)] = .ok e) ∧
      ∀ e', operation (.binary .add) [items (.sequence .unknown), items (.sequence .int)] ≠
        .ok e' :=
  ⟨.cons (items_weakens rfl) (.cons (items_weakens rfl) .nil), ⟨_, rfl⟩, nofun⟩

end Expr

end ReactiveState
