import ReactiveState.Proofs.Typing.Soundness

/-!
# Types with unknown parts

An expression of types with unknown parts may fail in any way, but where it gives a value this is
one of its type (`WellTyped.eval_admits`).  This takes no more than references whose values have the
types they are read as, and two things about the expression:

* nothing is annotated, since an annotation fills in unknown parts on trust (`annotates`),
* lists of different item types are not joined, unless one of them is written as the empty list
  (`joinsUnlike`): the rule takes an unknown item type for the other one.
-/

namespace ReactiveState

variable {a b t : ValueType} {v w : Value} {key : Option String} {o : Evaluated}

namespace ValueType

/-- The result is a value of the type, if it is a value. -/
def Admits (t : ValueType) (o : Evaluated) : Prop := ∀ v, o = .ok v → t.Accepts v

/-- A type admits a value that it accepts. -/
theorem admits_ok (h : t.Accepts v) : t.Admits (.ok v) := by
  intro w hw
  obtain rfl := Except.ok.inj hw
  exact h

/-- Every type admits an error. -/
theorem admits_error {e : EvalError} : t.Admits (.error e) := nofun

/-- The unknown type admits every outcome. -/
theorem admits_unknown : unknown.Admits o := fun _ _ => accepts_unknown

/-- What delivers a type is admitted by it. -/
theorem Delivers.admits (h : t.Delivers o) : t.Admits o := by
  rintro v rfl
  exact h

/-- What is admitted stays so when null is allowed. -/
theorem Admits.orNull (h : t.Admits o) : t.orNull.Admits o := fun v hv => (h v hv).orNull

/-- A result that came out of a step before has the type if it has whatever that step gave. -/
theorem admits_bind {α : Type} {x : Except EvalError α} {f : α → Evaluated}
    (h : ∀ c, x = .ok c → t.Admits (f c)) : t.Admits (x.bind f) := by
  intro v hv
  obtain ⟨c, hc, hv⟩ := bind_eq_ok_iff.1 hv
  exact h c hc v hv

/-! ### Containers -/

/-- Reading an attribute, by recursion on the optional types around the container. -/
theorem admits_attributeOf (op : String) {name : String} : ∀ {a t : ValueType} {v : Value},
    a.attributeType name = .ok t → a.Accepts v → t.Admits (Value.attributeOf op v (.str name))
  | optional a, t, v, h, hv => by
    obtain ⟨u, hu, h⟩ := bind_eq_ok h
    obtain rfl := Except.ok.inj h
    -- A receiver that is null gives null, which the optional result allows
    rcases accepts_optional.1 hv with rfl | hv
    · exact admits_ok (accepts_orNull.2 (.inl rfl))
    · exact (admits_attributeOf op hu hv).orNull
  | mapping u, t, v, h, hv => by
    obtain rfl := Except.ok.inj h
    -- A mapping gives the value under the name, or reports that there is none
    obtain ⟨entries, rfl, _⟩ := accepts_mapping.1 hv
    exact (delivers_mapping hv).admits
  | object attributes, t, v, h, hv => by
    simp only [attributeType] at h
    split at h
    · -- Among the attributes the name has a type, which its value has too
      next u hu =>
      obtain rfl := Except.ok.inj h
      obtain ⟨entries, rfl, hdelivers⟩ := delivers_attribute hv hu
      exact hdelivers.admits
    · cases h
  | unknown, t, v, h, _ => by
    obtain rfl := Except.ok.inj h
    exact admits_unknown

/-- Reading at an index or a key, by recursion on the optional types around the container.  What
the index may be besides a position or a key makes no difference, as it gives no value. -/
theorem admits_indexed (op : String) (hkey : ∀ name, key = some name → w = .str name) :
    ∀ {a t : ValueType} {v : Value}, a.indexed b key = .ok t → a.Accepts v →
      t.Admits (Value.indexed op v w)
  | optional a, t, v, h, hv => by
    simp only [indexed] at h
    obtain ⟨u, hu, h⟩ := bind_eq_ok h
    obtain rfl := Except.ok.inj h
    rcases accepts_optional.1 hv with rfl | hv
    · exact admits_ok (accepts_orNull.2 (.inl rfl))
    · exact (admits_indexed op hkey hu hv).orNull
  | sequence item, t, v, h, hv => by
    obtain ⟨items, rfl, hitems⟩ := accepts_sequence.1 hv
    -- The rule gives the type of the items for whatever index it allows
    have ht : t = item := by cases b <;> cases h <;> rfl
    subst ht
    cases w with
    | int n => exact (delivers_item op n hitems).admits
    | _ => exact admits_error
  | str, t, v, h, hv => by
    obtain ⟨s, rfl⟩ := accepts_str.1 hv
    have ht : t = str := by cases b <;> cases h <;> rfl
    subst ht
    cases w with
    | int n => exact (delivers_character op s n).admits
    | _ => exact admits_error
  | mapping value, t, v, h, hv => by
    obtain ⟨entries, rfl, _⟩ := accepts_mapping.1 hv
    have ht : t = value := by cases b <;> cases h <;> rfl
    subst ht
    cases w with
    | str k => exact (delivers_mapping hv).admits
    | _ => exact admits_error
  | object attributes, t, v, h, hv => by
    obtain ⟨entries, rfl, _⟩ := accepts_object.1 hv
    cases b with
    | str =>
      cases key with
      | some name =>
        -- A literal key is an attribute, read as one
        obtain rfl := hkey name rfl
        exact admits_attributeOf op h hv
      | none =>
        -- Without a literal key the attribute is not known
        obtain rfl := Except.ok.inj h
        exact admits_unknown
    | unknown =>
      obtain rfl := Except.ok.inj h
      exact admits_unknown
    | _ => cases h
  | unknown, t, v, h, _ => by
    have ht : t = unknown := by cases b <;> cases h <;> rfl
    subst ht
    exact admits_unknown
  | null, _, _, h, _ => by cases b <;> cases h
  | bool, _, _, h, _ => by cases b <;> cases h
  | int, _, _, h, _ => by cases b <;> cases h
  | float, _, _, h, _ => by cases b <;> cases h

/-- A search gives a boolean, whatever it is in. -/
theorem admits_contained (op : String) (v w : Value) : bool.Admits (Value.contained op v w) := by
  unfold Value.contained
  split
  · exact admits_ok rfl
  · exact admits_ok rfl
  · exact admits_ok rfl
  · exact admits_error

end ValueType

open ValueType

/-! ### One operand -/

/-- The rule of the functions on strings gives a string, if anything. -/
theorem eq_str_of_mayBeString {f : UnaryFunction}
    (h : (if a.mayBeString = true then .ok .str
      else .error (.typeMismatch f.name a none) : Typed) = .ok t) : t = .str := by
  split at h
  · exact (Except.ok.inj h).symm
  · cases h

/-- A function on strings gives nothing else. -/
theorem admits_text {f : UnaryFunction} (hf : f ∈ [.upper, .lower, .trim]) (v : Value) :
    ValueType.str.Admits (f.apply v) := by
  simp only [List.mem_cons, List.not_mem_nil, or_false] at hf
  cases v with
  | str s => rcases hf with rfl | rfl | rfl <;> exact admits_ok rfl
  | _ => rcases hf with rfl | rfl | rfl <;> exact admits_error

/-- A function of one argument gives what its rule admits, also where the type of the argument is
not fully known. -/
theorem UnaryFunction.apply_admits (f : UnaryFunction) (h : f.resultType a = .ok t)
    (hv : a.Accepts v) : t.Admits (f.apply v) := by
  cases f with
  | abs =>
    cases a with
    | int =>
      obtain ⟨n, rfl⟩ := accepts_int.1 hv
      obtain rfl := Except.ok.inj h
      exact (Arithmetic.exact_delivers _ _).admits
    | float =>
      obtain ⟨x, rfl⟩ := accepts_float.1 hv
      obtain rfl := Except.ok.inj h
      exact admits_ok rfl
    | unknown =>
      obtain rfl := Except.ok.inj h
      exact admits_unknown
    | _ => cases h
  | round =>
    -- The rule promises an integer for every operand it allows
    have ht : t = .int := by cases a <;> cases h <;> rfl
    subst ht
    cases v with
    | int n => exact admits_ok rfl
    | float x => exact (rounded_delivers _ x).admits
    | _ => exact admits_error
  | upper =>
    -- The three functions on texts share one rule
    obtain rfl := eq_str_of_mayBeString (f := .upper) h
    exact admits_text (by simp) v
  | lower =>
    obtain rfl := eq_str_of_mayBeString (f := .lower) h
    exact admits_text (by simp) v
  | trim =>
    obtain rfl := eq_str_of_mayBeString (f := .trim) h
    exact admits_text (by simp) v
  | keys =>
    have ht : t = .sequence .str := by cases a <;> cases h <;> rfl
    subst ht
    cases v with
    | dict entries => exact (keys_delivers entries).admits
    | _ => exact admits_error
  | values =>
    cases v with
    | dict entries =>
      -- Only a mapping says anything about the values
      have hall : ∃ item, t = .sequence item ∧ ∀ p ∈ entries, item.Accepts p.2 := by
        cases a with
        | mapping value =>
          obtain ⟨entries', heq, hall⟩ := accepts_mapping.1 hv
          obtain rfl := Value.dict.inj heq
          exact ⟨value, (Except.ok.inj h).symm, hall⟩
        | object attributes =>
          exact ⟨.unknown, (Except.ok.inj h).symm, fun _ _ => accepts_unknown⟩
        | unknown => exact ⟨.unknown, (Except.ok.inj h).symm, fun _ _ => accepts_unknown⟩
        | _ => cases h
      obtain ⟨item, rfl, hall⟩ := hall
      refine admits_ok (accepts_sequence.2 ⟨_, rfl, fun i hi => ?_⟩)
      obtain ⟨p, hp, rfl⟩ := List.mem_map.1 hi
      exact hall p hp
    | _ => exact admits_error

/-- So do the operations on one operand, apart from annotations. -/
theorem UnaryOp.apply_admits (op : UnaryOp) (h : op.resultType a = .ok t)
    (hop : ∀ target, op ≠ .annotate target) (hv : a.Accepts v) : t.Admits (op.apply v) := by
  cases op with
  | neg =>
    -- Of an operand of unknown type the result is unknown too, and nothing is promised
    cases a with
    | int =>
      obtain ⟨n, rfl⟩ := accepts_int.1 hv
      obtain rfl := Except.ok.inj h
      exact (Arithmetic.exact_delivers _ _).admits
    | float =>
      obtain ⟨x, rfl⟩ := accepts_float.1 hv
      obtain rfl := Except.ok.inj h
      exact admits_ok rfl
    | unknown =>
      obtain rfl := Except.ok.inj h
      exact admits_unknown
    | _ => cases h
  | not =>
    obtain rfl := Except.ok.inj h
    exact admits_ok rfl
  | length =>
    have ht : t = .int := by cases a <;> cases h <;> rfl
    subst ht
    -- What has no length is an error
    cases v with
    | str s => exact admits_ok rfl
    | list items => exact admits_ok rfl
    | dict entries => exact admits_ok rfl
    | _ => exact admits_error
  | stringify =>
    obtain rfl := Except.ok.inj h
    exact admits_ok rfl
  | annotate target => exact absurd rfl (hop target)
  | call f => exact f.apply_admits h hv

/-! ### Two operands -/

/-- Items of one type are joined as what they are. -/
theorem unifyItems?_self (a : ValueType) : unifyItems? a a = some a := if_pos rfl

/-- Items of an unknown type take the type of the others. -/
theorem unifyItems?_unknown_left (b : ValueType) : unifyItems? .unknown b = some b := by
  cases b <;> rfl

/-- The same from the other side. -/
theorem unifyItems?_unknown_right (a : ValueType) : unifyItems? a .unknown = some a := by
  cases a <;> rfl

/-- A function of two arguments gives what its rule admits. -/
theorem BinaryFunction.apply_admits (f : BinaryFunction) (h : f.resultType a b = .ok t)
    (hv : a.Accepts v) (hw : b.Accepts w) : t.Admits (f.apply v w) := by
  by_cases ht : t = .unknown
  · rw [ht]
    exact admits_unknown
  cases f with
  | min =>
    rcases arithmetic_operands h ht hv hw with ⟨⟨m, n, rfl, rfl⟩, rfl⟩ | ⟨hmixed, rfl⟩
    · exact (Arithmetic.exact_delivers _ _).admits
    · exact (Arithmetic.numeric_mixed hmixed).admits
  | max =>
    rcases arithmetic_operands h ht hv hw with ⟨⟨m, n, rfl, rfl⟩, rfl⟩ | ⟨hmixed, rfl⟩
    · exact (Arithmetic.exact_delivers _ _).admits
    · exact (Arithmetic.numeric_mixed hmixed).admits
  | join =>
    obtain ⟨-, rfl⟩ := given_eq_ok h
    -- Whatever the items are, what comes out is a text or an error
    simp only [apply]
    split
    · exact admits_bind fun ss _ => admits_ok rfl
    · exact admits_error
    · exact admits_error
  | split =>
    obtain ⟨-, rfl⟩ := given_eq_ok h
    simp only [apply]
    split
    · refine admits_ok (accepts_sequence.2 ⟨_, rfl, fun i hi => ?_⟩)
      obtain ⟨part, _, rfl⟩ := List.mem_map.1 hi
      rfl
    · exact admits_error
    · exact admits_error

/-- So do the operations on two operands, if the joined type accepts both lists of a sum. -/
theorem BinaryOp.apply_admits (op : BinaryOp) (hkey : ∀ name, key = some name → w = .str name)
    (h : op.resultType a b key = .ok t) (hv : a.Accepts v) (hw : b.Accepts w)
    (hjoin : op = .add → ∀ x y, a = .sequence x → b = .sequence y → t.Accepts v ∧ t.Accepts w) :
    t.Admits (op.apply v w) := by
  -- An unknown result promises nothing.  In the other cases the rules have made sure of the kinds
  -- that they ask for
  by_cases ht : t = .unknown
  · rw [ht]
    exact admits_unknown
  cases op with
  | add => exact (add_delivers h ht hv hw (hjoin rfl)).admits
  | mul => exact (mul_delivers h ht hv hw).admits
  | sub => exact (arithmetic_delivers (by simp) h ht hv hw).admits
  | div => exact (arithmetic_delivers (by simp) h ht hv hw).admits
  | floorDiv => exact (arithmetic_delivers (by simp) h ht hv hw).admits
  | mod => exact (arithmetic_delivers (by simp) h ht hv hw).admits
  | pow => exact (arithmetic_delivers (by simp) h ht hv hw).admits
  | lt =>
    obtain ⟨-, rfl⟩ := given_eq_ok h
    exact admits_bind fun _ _ => admits_ok rfl
  | le =>
    obtain ⟨-, rfl⟩ := given_eq_ok h
    exact admits_bind fun _ _ => admits_ok rfl
  | gt =>
    obtain ⟨-, rfl⟩ := given_eq_ok h
    exact admits_bind fun _ _ => admits_ok rfl
  | ge =>
    obtain ⟨-, rfl⟩ := given_eq_ok h
    exact admits_bind fun _ _ => admits_ok rfl
  | eq =>
    obtain ⟨-, rfl⟩ := given_eq_ok h
    exact admits_ok rfl
  | ne =>
    obtain ⟨-, rfl⟩ := given_eq_ok h
    exact admits_ok rfl
  | contains =>
    obtain ⟨-, rfl⟩ := given_eq_ok h
    exact admits_contained _ v w
  | index => exact admits_indexed _ hkey h hv
  | attr =>
    cases key with
    | some name =>
      -- The key of the rule is the key that is looked up
      obtain rfl := hkey name rfl
      exact admits_attributeOf _ h hv
    | none => cases h
  | call f => exact f.apply_admits h hv hw

/-! ### Expressions -/

namespace Expr

/-- Whether the outermost operation is an annotation. -/
def annotates : Expr → Bool
  | unary (.annotate _) _ _ => true
  | _ => false

/-- Whether the expression is written as the empty list. -/
def isEmptyList : Expr → Bool
  | literal (.list []) => true
  | _ => false

/-- Whether the outermost operation joins lists of different item types, none of them written as the
empty list. -/
def joinsUnlike : Expr → Bool
  | binary .add l r _ =>
    match l.type, r.type with
    | .sequence x, .sequence y => x ≠ y && !l.isEmptyList && !r.isEmptyList
    | _, _ => false
  | _ => false

variable {e l r : Expr} {source : FieldKey → Evaluated}

/-- Of the expressions only the literal without items is the empty list. -/
theorem isEmptyList_iff : e.isEmptyList = true ↔ e = literal (.list []) := by
  unfold isEmptyList
  split
  · simp
  · next hne => exact ⟨nofun, fun h => absurd h hne⟩

/-- Two joined lists have the type of the result, unless they are unlike. -/
theorem accepts_of_not_joinsUnlike {x y : ValueType}
    (h : BinaryOp.add.resultType l.type r.type key = .ok t)
    (hjoin : (binary .add l r t).joinsUnlike = false) (hl : l.evalWith source = .ok v)
    (hr : r.evalWith source = .ok w) (hx : l.type = .sequence x) (hy : r.type = .sequence y)
    (hv : l.type.Accepts v) (hw : r.type.Accepts w) : t.Accepts v ∧ t.Accepts w := by
  rw [hx] at hv
  rw [hy] at hw
  -- The empty list has every list type
  have hempty : ∀ z, (ValueType.sequence z).Accepts (.list []) := fun z =>
    accepts_sequence.2 ⟨[], rfl, fun _ hi => absurd hi List.not_mem_nil⟩
  simp only [joinsUnlike, hx, hy, Bool.and_eq_false_iff, decide_eq_false_iff_not, not_not,
    Bool.not_eq_false', isEmptyList_iff] at hjoin
  simp only [BinaryOp.resultType, hx, hy] at h
  -- The item types are the same, or one of the lists is the empty one
  rcases hjoin with (heq | rfl) | rfl
  · subst heq
    rw [unifyItems?_self] at h
    obtain rfl := Except.ok.inj h
    exact ⟨hv, hw⟩
  · obtain rfl := Except.ok.inj hl
    obtain rfl : x = .unknown := ValueType.sequence.inj hx.symm
    have ht : t = .sequence y := by
      rw [unifyItems?_unknown_left] at h
      exact (Except.ok.inj h).symm
    exact ht ▸ ⟨hempty y, hw⟩
  · obtain rfl := Except.ok.inj hr
    obtain rfl : y = .unknown := ValueType.sequence.inj hy.symm
    have ht : t = .sequence x := by
      rw [unifyItems?_unknown_right] at h
      exact (Except.ok.inj h).symm
    exact ht ▸ ⟨hv, hempty x⟩

/-- A well-typed expression that annotates nothing and joins no unlike lists gives values of its own
type, by induction along the evaluation. -/
theorem WellTyped.eval_admits (he : e.WellTyped)
    (hannotates : ∀ sub ∈ e.subexpressions, sub.annotates = false)
    (hjoin : ∀ sub ∈ e.subexpressions, sub.joinsUnlike = false)
    (hsource : ∀ k t, (k, t) ∈ e.references → t.Admits (source k)) :
    e.type.Admits (e.evalWith source) := by
  induction e using eval_induction with
  | literal v => exact admits_ok (accepts_ofValue he)
  | field k t => exact hsource k t (List.mem_singleton_self _)
  | unary op e t ih =>
    obtain ⟨he, ht, -⟩ := he
    simp only [subexpressions, List.forall_mem_cons] at hannotates hjoin
    have hop : ∀ target, op ≠ .annotate target := by
      rintro target rfl
      exact Bool.noConfusion hannotates.1
    have hv := ih he hannotates.2 hjoin.2 hsource
    rw [evalWith_unary]
    exact admits_bind fun v hrun => op.apply_admits ht hop (hv v hrun)
  | binary op l r t ihl ihr =>
    obtain ⟨hl, hr, ht⟩ := he
    simp only [subexpressions, List.forall_mem_cons, List.forall_mem_append] at hannotates hjoin
    simp only [references, List.mem_append] at hsource
    obtain ⟨-, hannotatesl, hannotatesr⟩ := hannotates
    obtain ⟨hself, hjoinl, hjoinr⟩ := hjoin
    have hv := ihl hl hannotatesl hjoinl fun k t hm => hsource k t (.inl hm)
    have hw := ihr hr hannotatesr hjoinr fun k t hm => hsource k t (.inr hm)
    rw [evalWith_binary]
    refine admits_bind fun v hrunl => admits_bind fun w hrunr => ?_
    -- The key that the rule looked at is the value of the right operand
    have hkey : ∀ name, r.literalText? = some name → w = .str name := by
      intro name hname
      rw [literalText?_eq_some hname] at hrunr
      exact (Except.ok.inj hrunr).symm
    refine op.apply_admits hkey ht (hv v hrunl) (hw w hrunr) ?_
    rintro rfl x y hx hy
    exact accepts_of_not_joinsUnlike ht hself hrunl hrunr hx hy (hv v hrunl) (hw w hrunr)
  | logical op l r t ihl ihr =>
    obtain ⟨hl, hr, ht⟩ := he
    simp only [subexpressions, List.forall_mem_cons, List.forall_mem_append] at hannotates hjoin
    simp only [references, List.mem_append] at hsource
    have hv := ihl hl hannotates.2.1 hjoin.2.1 fun k t hm => hsource k t (.inl hm)
    have hw := ihr hr hannotates.2.2 hjoin.2.2 fun k t hm => hsource k t (.inr hm)
    rw [evalWith_logical]
    refine admits_bind fun v hrun => ?_
    split
    · next hd => exact admits_ok (LogicalOp.accepts_left ht (hv v hrun) hd)
    · exact fun w hrun => LogicalOp.accepts_right ht (hw w hrun)
  | cond c y n t ihc ihy ihn =>
    obtain ⟨hc, hy, hn, ht⟩ := he
    simp only [subexpressions, List.forall_mem_cons, List.forall_mem_append] at hannotates hjoin
    simp only [references, List.mem_append] at hsource
    obtain ⟨hyes, hno⟩ := condType_accepts ht
    rw [evalWith_cond]
    -- The condition decides which branch is taken, and its type does not matter
    refine admits_bind fun v _ => ?_
    split
    · exact fun w hrun => hyes w (ihy hy hannotates.2.2.1 hjoin.2.2.1
        (fun k t hm => hsource k t (.inr (.inl hm))) w hrun)
    · exact fun w hrun => hno w (ihn hn hannotates.2.2.2 hjoin.2.2.2
        (fun k t hm => hsource k t (.inr (.inr hm))) w hrun)
  | external name args t => exact admits_error

end Expr

end ReactiveState
