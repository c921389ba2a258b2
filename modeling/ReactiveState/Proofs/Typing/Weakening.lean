import ReactiveState.Proofs.Typing.Operators
import ReactiveState.Proofs.Typing.Refinement

/-!
# Operators on operands of which less is known

Where the rule of an operator gives a type, it gives one for operands of which less is known too,
and the one refines the other (`Weakens`).  This is proved rule by rule, up to
`UnaryOp.resultType_weakens` and `BinaryOp.resultType_weakens`.

A rule that asks two types to be *equal* is an exception.  Types that were equal may be left with
different parts unknown, and then they are two types, neither of which is the unknown type itself.
`Operator.Clashes` lists where this happens: the item types of joined lists, the operands of a
logical operation, the branches of a conditional, and object types that are compared.
-/

namespace ReactiveState

open ValueType

variable {a b a' b' t u : ValueType} {key : Option String}

namespace ValueType

/-! ### Rules that take the unknown type for any other -/

/-- Where the first rule gives a type, the second gives one that it refines. -/
def Weakens (r r' : Typed) : Prop :=
  ∀ t, r = .ok t → ∃ t', r' = .ok t' ∧ t.refines t' = true

/-- A type may be replaced by a less specific one. -/
theorem weakens_ok (h : t.refines u = true) : Weakens (.ok t) (.ok u) := by
  intro s hs
  obtain rfl := Except.ok.inj hs
  exact ⟨u, rfl, h⟩

/-- What was refused may become anything. -/
theorem weakens_error {e : CompositionError} {r : Typed} : Weakens (.error e) r := nofun

/-- Everything may become the unknown type. -/
theorem weakens_unknown {r : Typed} : Weakens r (.ok unknown) :=
  fun t _ => ⟨unknown, rfl, refines_unknown t⟩

/-- A result that is fixed, on a condition that weaker operands keep. -/
theorem weakens_if {c c' : Bool} {e e' : CompositionError} (ht : t.refines t = true)
    (h : c = true → c' = true) :
    Weakens (if c then .ok t else .error e) (if c' then .ok t else .error e') := by
  cases c with
  | false => exact weakens_error
  | true =>
    rw [h rfl]
    exact weakens_ok ht

/-- Weakening goes through making a type optional. -/
theorem Weakens.orNull {r r' : Typed} (h : Weakens r r') :
    Weakens (r.bind fun t => .ok t.orNull) (r'.bind fun t => .ok t.orNull) := by
  intro t ht
  obtain ⟨u, hu, ht⟩ := bind_eq_ok ht
  obtain rfl := Except.ok.inj ht
  obtain ⟨u', rfl, hrefines⟩ := h u hu
  exact ⟨u'.orNull, rfl, refines_orNull hrefines⟩

/-- Reading an attribute, by recursion on the optional types around the container. -/
theorem attributeType_weakens {name : String} : ∀ {a a' : ValueType}, a.refines a' = true →
    Weakens (a.attributeType name) (a'.attributeType name)
  | optional a, a', h => by
    rcases refines_optional_iff.1 h with rfl | ⟨b, rfl, hab⟩
    · exact weakens_unknown
    · exact (attributeType_weakens hab).orNull
  | mapping a, a', h => by
    rcases refines_mapping_iff.1 h with rfl | ⟨b, rfl, hab⟩
    · -- A mapping that is unknown now has values of unknown type
      exact weakens_ok (refines_unknown a)
    · exact weakens_ok hab
  | object as, a', h => by
    rcases refines_object_iff.1 h with rfl | ⟨bs, rfl, -, hattributes⟩
    · exact weakens_unknown
    · -- An attribute of the one object is an attribute of the other
      simp only [attributeType]
      cases hfind : KeyMap.find? name as with
      | none => exact weakens_error
      | some t =>
        obtain ⟨u, hu, hrefines⟩ := hattributes _ (KeyMap.mem_of_find? hfind)
        rw [hu]
        exact weakens_ok hrefines
  | sequence _, _, _ => weakens_error
  | unknown, a', h => by
    rw [unknown_refines_iff.1 h]
    exact weakens_ok rfl
  | null, _, _ => weakens_error
  | bool, _, _ => weakens_error
  | int, _, _ => weakens_error
  | float, _, _ => weakens_error
  | str, _, _ => weakens_error

/-- Whatever is indexed, an index is a position or a key. -/
theorem index_of_indexed : ∀ {a t : ValueType}, a.indexed b key = .ok t →
    b = int ∨ b = str ∨ b = unknown
  | optional a, t, h => by
    -- What is inside is indexed in the same way
    simp only [indexed] at h
    obtain ⟨u, hu, -⟩ := bind_eq_ok h
    exact index_of_indexed hu
  -- For the others it is enough to look at the types of the index
  | sequence _, _, h => by cases b <;> first | cases h; done | simp
  | mapping _, _, h => by cases b <;> first | cases h; done | simp
  | object _, _, h => by cases b <;> first | cases h; done | simp
  | unknown, _, h => by cases b <;> first | cases h; done | simp
  | str, _, h => by cases b <;> first | cases h; done | simp
  | null, _, h => by cases b <;> cases h
  | bool, _, h => by cases b <;> cases h
  | int, _, h => by cases b <;> cases h
  | float, _, h => by cases b <;> cases h

/-- Whatever was indexed, it may be of the unknown type. -/
theorem weakens_indexed_unknown (hb : b.refines b' = true) :
    Weakens (a.indexed b key) (unknown.indexed b' key) := by
  intro t ht
  refine ⟨unknown, ?_, refines_unknown t⟩
  rcases index_of_indexed ht with rfl | rfl | rfl
  · rcases (refines_atom_iff rfl).1 hb with rfl | rfl <;> rfl
  · rcases (refines_atom_iff rfl).1 hb with rfl | rfl <;> rfl
  · rw [unknown_refines_iff.1 hb]
    rfl

/-- Indexing, by recursion on the optional types around the container.  The cases are the forms of
the container, and in each of them the types of the index. -/
theorem indexed_weakens : ∀ {a a' : ValueType}, a.refines a' = true → b.refines b' = true →
    Weakens (a.indexed b key) (a'.indexed b' key)
  | optional a, a', h, hb => by
    rcases refines_optional_iff.1 h with rfl | ⟨a', rfl, ha⟩
    · exact weakens_indexed_unknown hb
    · simp only [indexed]
      exact (indexed_weakens ha hb).orNull
  | sequence item, a', h, hb => by
    -- A list that is unknown now has items of unknown type, whatever the index
    rcases refines_sequence_iff.1 h with rfl | ⟨item', rfl, hitem⟩
    · exact weakens_indexed_unknown hb
    · cases b with
      | int => rcases (refines_atom_iff rfl).1 hb with rfl | rfl <;> exact weakens_ok hitem
      | unknown => rw [unknown_refines_iff.1 hb]; exact weakens_ok hitem
      | _ => exact weakens_error
  | mapping value, a', h, hb => by
    rcases refines_mapping_iff.1 h with rfl | ⟨value', rfl, hvalue⟩
    · exact weakens_indexed_unknown hb
    · cases b with
      | str => rcases (refines_atom_iff rfl).1 hb with rfl | rfl <;> exact weakens_ok hvalue
      | unknown => rw [unknown_refines_iff.1 hb]; exact weakens_ok hvalue
      | _ => exact weakens_error
  | object as, a', h, hb => by
    rcases refines_object_iff.1 h with rfl | ⟨bs, rfl, -⟩
    · exact weakens_indexed_unknown hb
    · cases b with
      | str =>
        rcases (refines_atom_iff rfl).1 hb with rfl | rfl
        · exact weakens_unknown
        · -- Only a literal key names the attribute
          cases key with
          | some name => exact attributeType_weakens h
          | none => exact weakens_ok rfl
      | unknown => rw [unknown_refines_iff.1 hb]; exact weakens_ok rfl
      | _ => exact weakens_error
  | str, a', h, hb => by
    rcases (refines_atom_iff rfl).1 h with rfl | rfl
    · exact weakens_indexed_unknown hb
    · cases b with
      | int => rcases (refines_atom_iff rfl).1 hb with rfl | rfl <;> exact weakens_ok rfl
      | unknown => rw [unknown_refines_iff.1 hb]; exact weakens_ok rfl
      | _ => exact weakens_error
  | unknown, a', h, hb => by
    rw [unknown_refines_iff.1 h]
    exact weakens_indexed_unknown hb
  | null, _, _, _ => by cases b <;> exact weakens_error
  | bool, _, _, _ => by cases b <;> exact weakens_error
  | int, _, _, _ => by cases b <;> exact weakens_error
  | float, _, _, _ => by cases b <;> exact weakens_error

/-- Nothing is known about arithmetic with an operand of which nothing is known. -/
theorem arithmetic_unknown_right (op : BinaryOp) (a : ValueType) :
    arithmetic op a unknown = .ok unknown := by
  cases a <;> rfl

/-- Known operands of arithmetic are numbers, and so is the result. -/
theorem numeric_of_arithmetic {op : BinaryOp} (h : arithmetic op a b = .ok t) (ha : a ≠ unknown)
    (hb : b ≠ unknown) : a.isNumeric = true ∧ b.isNumeric = true ∧ t.isNumeric = true := by
  unfold arithmetic at h
  -- An unknown operand on either side, two integers, and any other numbers
  split at h
  · exact absurd rfl ha
  · exact absurd rfl hb
  · obtain rfl := Except.ok.inj h
    -- Of two integers the quotient is a float, and all else an integer
    exact ⟨rfl, rfl, by split <;> rfl⟩
  · split at h
    · next hnumeric =>
      obtain rfl := Except.ok.inj h
      exact ⟨(Bool.and_eq_true _ _ ▸ hnumeric).1, (Bool.and_eq_true _ _ ▸ hnumeric).2, rfl⟩
    · cases h

/-- Numbers of which more is not left unknown are the same numbers. -/
theorem same_of_arithmetic {op : BinaryOp} (ha : a.refines a' = true) (hb : b.refines b' = true)
    (hunknown : a' ≠ unknown) (hunknown' : b' ≠ unknown) (h : arithmetic op a b = .ok t) :
    a' = a ∧ b' = b ∧ t.refines t = true := by
  obtain ⟨hnum, hnum', hresult⟩ := numeric_of_arithmetic h (ne_unknown_of_refines ha hunknown)
    (ne_unknown_of_refines hb hunknown')
  exact ⟨eq_of_refines_atom (isAtom_of_isNumeric hnum) ha hunknown,
    eq_of_refines_atom (isAtom_of_isNumeric hnum') hb hunknown',
    refines_self_of_isAtom (isAtom_of_isNumeric hresult)⟩

/-- Arithmetic on less specific operands. -/
theorem arithmetic_weakens (op : BinaryOp) (ha : a.refines a' = true) (hb : b.refines b' = true) :
    Weakens (arithmetic op a b) (arithmetic op a' b') := by
  by_cases hunknown : a' = unknown
  · rw [hunknown]
    exact weakens_unknown
  by_cases hunknown' : b' = unknown
  · rw [hunknown', arithmetic_unknown_right]
    exact weakens_unknown
  -- Both are known still, so nothing has changed
  intro t ht
  obtain ⟨rfl, rfl, hresult⟩ := same_of_arithmetic ha hb hunknown hunknown' ht
  exact ⟨t, ht, hresult⟩

/-- What may be a string may be one when less is known. -/
theorem mayBeString_of_refines (h : a.refines a' = true) (ha : a.mayBeString = true) :
    a'.mayBeString = true := by
  cases a <;> cases ha
  · rcases (refines_atom_iff rfl).1 h with rfl | rfl <;> rfl
  · rw [unknown_refines_iff.1 h]
    rfl

/-- What has an order may have one when less is known. -/
theorem ordered_of_refines (ha : a.refines a' = true) (hb : b.refines b' = true)
    (h : a.ordered b = true) : a'.ordered b' = true := by
  by_cases hunknown : a' = unknown
  · simp [ordered, hunknown, isUnknown]
  by_cases hunknown' : b' = unknown
  · simp [ordered, hunknown', isUnknown]
  have hne := ne_unknown_of_refines ha hunknown
  have hne' := ne_unknown_of_refines hb hunknown'
  -- Strings and numbers have no parts that could be left unknown
  have hatoms : a.isAtom = true ∧ b.isAtom = true := by
    cases a <;> cases b <;> simp_all [ordered, isNumeric, isUnknown, isAtom]
  rwa [eq_of_refines_atom hatoms.1 ha hunknown, eq_of_refines_atom hatoms.2 hb hunknown']

end ValueType

/-! ### Operators -/

/-- The operand types that an operator refuses because two types are not the same, although neither
of the two is the unknown type. -/
inductive Operator.Clashes : Operator → List ValueType → Prop where
  /-- Joined lists. -/
  | add {x y : ValueType} (hne : x ≠ y) (hx : x ≠ .unknown) (hy : y ≠ .unknown) :
      Clashes (.binary .add) [.sequence x, .sequence y]
  | logical {op : LogicalOp} {a b : ValueType} (hne : a ≠ b) (ha : a ≠ .unknown) (hb : b ≠ .unknown)
      (hoptional : op = .or → a ≠ .optional b) : Clashes (.logical op) [a, b]
  /-- Branches, neither of which is null or the optional type of the other. -/
  | cond {c a b : ValueType} (hne : a ≠ b) (ha : a ≠ .unknown) (hb : b ≠ .unknown)
      (hnull : a ≠ .null) (hnull' : b ≠ .null) (hoptional : a ≠ .optional b)
      (hoptional' : b ≠ .optional a) : Clashes .cond [c, a, b]
  /-- Object types that are compared. -/
  | compare {op : BinaryOp} {a b x y : ValueType} (hop : op = .eq ∨ op = .ne)
      (hmeet : Meets a b x y) (hne : x ≠ y) : Clashes (.binary op) [a, b]
  /-- An object type that is looked for among others. -/
  | contains {a b x y : ValueType} (hmeet : Meets a b x y) (hne : x ≠ y) :
      Clashes (.binary .contains) [.sequence a, b]

/-- Functions of one argument, one by one. -/
theorem UnaryFunction.resultType_weakens (f : UnaryFunction) (ha : a.refines a' = true) :
    Weakens (f.resultType a) (f.resultType a') := by
  cases f with
  | abs | round =>
    cases a with
    | int | float | unknown =>
      -- A number stays what it is or becomes unknown
      rcases (refines_atom_iff rfl).1 ha with rfl | rfl <;> exact weakens_ok rfl
    | _ => exact weakens_error
  | upper | lower | trim => exact weakens_if rfl (mayBeString_of_refines ha)
  | keys =>
    cases a with
    | mapping _ => rcases refines_mapping_iff.1 ha with rfl | ⟨_, rfl, _⟩ <;> exact weakens_ok rfl
    | object _ => rcases refines_object_iff.1 ha with rfl | ⟨_, rfl, _⟩ <;> exact weakens_ok rfl
    | unknown =>
      rw [unknown_refines_iff.1 ha]
      exact weakens_ok rfl
    | _ => exact weakens_error
  | values =>
    cases a with
    | mapping value =>
      -- Without a type for the mapping, nothing is known of its values
      rcases refines_mapping_iff.1 ha with rfl | ⟨value', rfl, hvalue⟩
      · exact weakens_ok (refines_unknown value)
      · exact weakens_ok hvalue
    | object _ => rcases refines_object_iff.1 ha with rfl | ⟨_, rfl, _⟩ <;> exact weakens_ok rfl
    | unknown =>
      rw [unknown_refines_iff.1 ha]
      exact weakens_ok rfl
    | _ => exact weakens_error

/-- Operations on one operand.  The target of an annotation refines itself, for which it has to be
well-formed. -/
theorem UnaryOp.resultType_weakens (op : UnaryOp)
    (htarget : ∀ target, op = .annotate target → target.WellFormed) (ha : a.refines a' = true) :
    Weakens (op.resultType a) (op.resultType a') := by
  cases op with
  | neg =>
    cases a with
    | int | float | unknown =>
      rcases (refines_atom_iff rfl).1 ha with rfl | rfl <;> exact weakens_ok rfl
    | _ => exact weakens_error
  -- These take everything
  | not | stringify => exact weakens_ok rfl
  | length =>
    cases a with
    | str | unknown => rcases (refines_atom_iff rfl).1 ha with rfl | rfl <;> exact weakens_ok rfl
    | sequence _ => rcases refines_sequence_iff.1 ha with rfl | ⟨_, rfl, _⟩ <;> exact weakens_ok rfl
    | mapping _ => rcases refines_mapping_iff.1 ha with rfl | ⟨_, rfl, _⟩ <;> exact weakens_ok rfl
    | object _ => rcases refines_object_iff.1 ha with rfl | ⟨_, rfl, _⟩ <;> exact weakens_ok rfl
    | _ => exact weakens_error
  | annotate target =>
    -- What refines the operand also refines what is less known
    exact weakens_if (refines_refl (htarget target rfl)) fun h => refines_trans h ha
  | call f => exact f.resultType_weakens ha

/-- Functions of two arguments, one by one. -/
theorem BinaryFunction.resultType_weakens (f : BinaryFunction) (ha : a.refines a' = true)
    (hb : b.refines b' = true) : Weakens (f.resultType a b) (f.resultType a' b') := by
  cases f with
  | min | max => exact arithmetic_weakens _ ha hb
  | join =>
    refine weakens_if rfl ?_
    simp only [Bool.and_eq_true]
    -- The list that is joined, and the text between its items
    refine And.imp (fun h => ?_) (mayBeString_of_refines hb)
    cases a with
    | sequence item =>
      rcases refines_sequence_iff.1 ha with rfl | ⟨item', rfl, hitem⟩
      · rfl
      · exact mayBeString_of_refines hitem h
    | unknown =>
      rw [unknown_refines_iff.1 ha]
    | _ => cases h
  | split =>
    refine weakens_if rfl ?_
    simp only [Bool.and_eq_true]
    exact And.imp (mayBeString_of_refines ha) (mayBeString_of_refines hb)

/-- What can be looked for can be looked for when less is known, unless two object types clash. -/
theorem ValueType.searchable_of_refines (ha : a.refines a' = true) (hb : b.refines b' = true)
    (hclash : ¬ Operator.Clashes (.binary .contains) [a', b']) (h : a.searchable b = true) :
    a'.searchable b' = true := by
  cases a with
  | sequence item =>
    rcases refines_sequence_iff.1 ha with rfl | ⟨item', rfl, hitem⟩
    · rfl
    · -- Items are compared with what is looked for
      refine comparable_of_refines hitem hb h fun x y hmeet => ?_
      by_contra hne
      exact hclash (.contains hmeet hne)
  | mapping _ =>
    rcases refines_mapping_iff.1 ha with rfl | ⟨_, rfl, -⟩
    · rfl
    · -- A key or a part of a text is looked for, and that may still be a text
      exact mayBeString_of_refines hb h
  | object _ =>
    rcases refines_object_iff.1 ha with rfl | ⟨_, rfl, -⟩
    · rfl
    · exact mayBeString_of_refines hb h
  | str =>
    rcases (refines_atom_iff rfl).1 ha with rfl | rfl
    · rfl
    · exact mayBeString_of_refines hb h
  | unknown =>
    rw [unknown_refines_iff.1 ha]
    rfl
  | _ => cases h

/-- The item type of a joined list is that of each list, unless this is not known. -/
theorem ValueType.unifyItems?_cases {x y : ValueType} (h : x.unifyItems? y = some t) :
    (t = x ∨ x = .unknown) ∧ (t = y ∨ y = .unknown) := by
  unfold unifyItems? at h
  -- The same type, or one of the two is not known
  split at h
  · next heq =>
    obtain rfl := Option.some.inj h
    exact ⟨.inl rfl, .inl heq⟩
  · split at h
    · exact ⟨.inr rfl, .inl (Option.some.inj h).symm⟩
    · exact ⟨.inl (Option.some.inj h).symm, .inr rfl⟩
    · cases h

/-- Item types that are the same, or one of which is unknown, have a common one. -/
theorem ValueType.unifyItems?_isSome {x y : ValueType} (h : x = y ∨ x = .unknown ∨ y = .unknown) :
    ∃ t, x.unifyItems? y = some t ∧ (t = x ∨ t = y) := by
  rcases h with rfl | rfl | rfl
  · exact ⟨x, if_pos rfl, .inl rfl⟩
  · exact ⟨y, by cases y <;> rfl, .inr rfl⟩
  · exact ⟨x, by cases x <;> rfl, .inl rfl⟩

/-- The item type of joined lists becomes less specific with those of the lists, unless two of them
clash. -/
theorem ValueType.unifyItems?_weakens {x x' y y' : ValueType} (hx : x.refines x' = true)
    (hy : y.refines y' = true)
    (hclash : ¬ Operator.Clashes (.binary .add) [.sequence x', .sequence y'])
    (h : x.unifyItems? y = some t) : ∃ t', x'.unifyItems? y' = some t' ∧ t.refines t' = true := by
  -- Two different known item types would clash
  have hsame : x' = y' ∨ x' = unknown ∨ y' = unknown := by
    by_contra hne
    simp only [not_or] at hne
    exact hclash (.add hne.1 hne.2.1 hne.2.2)
  -- The result before refines both item types as they are now
  have hrefines : ∀ {z z' : ValueType}, z.refines z' = true → t = z ∨ z = unknown →
      t.refines z' = true := by
    rintro z z' hz (rfl | rfl)
    · exact hz
    · rw [unknown_refines_iff.1 hz]
      exact refines_unknown t
  obtain ⟨htx, hty⟩ := unifyItems?_cases h
  obtain ⟨t', ht', rfl | rfl⟩ := unifyItems?_isSome hsame
  · exact ⟨t', ht', hrefines hx htx⟩
  · exact ⟨t', ht', hrefines hy hty⟩

namespace BinaryOp

variable {op : BinaryOp}

/-- The first operand is not known: nothing is known of the sum or product. -/
theorem resultType_unknown_left (hop : op = .add ∨ op = .mul) (b : ValueType) :
    op.resultType .unknown b key = .ok .unknown := by
  rcases hop with rfl | rfl <;> cases b <;> rfl

/-- The second operand is not known: nothing is known of the sum or product. -/
theorem resultType_unknown_right (hop : op = .add ∨ op = .mul) (a : ValueType) :
    op.resultType a .unknown key = .ok .unknown := by
  rcases hop with rfl | rfl <;> cases a <;> rfl

/-- A sum or product of operands that are known, by what they were before. -/
theorem resultType_weakens_of_known (hop : op = .add ∨ op = .mul)
    (h : a' ≠ unknown → b' ≠ unknown → Weakens (op.resultType a b key) (op.resultType a' b' key)) :
    Weakens (op.resultType a b key) (op.resultType a' b' key) := by
  by_cases hunknown : a' = unknown
  · rw [hunknown, resultType_unknown_left hop]
    exact weakens_unknown
  by_cases hunknown' : b' = unknown
  · rw [hunknown', resultType_unknown_right hop]
    exact weakens_unknown
  exact h hunknown hunknown'

/-- Sums of numbers and texts, and joined lists. -/
theorem add_weakens (ha : a.refines a' = true) (hb : b.refines b' = true)
    (hclash : ¬ Operator.Clashes (.binary .add) [a', b']) :
    Weakens (add.resultType a b key) (add.resultType a' b' key) := by
  refine resultType_weakens_of_known (.inl rfl) fun hunknown hunknown' => ?_
  intro t ht
  have hrule := ht
  simp only [resultType] at hrule
  -- Strings, lists, and whatever else is added as numbers
  split at hrule
  · rw [eq_of_refines_atom rfl ha hunknown, eq_of_refines_atom rfl hb hunknown']
    exact ⟨t, ht, Except.ok.inj hrule ▸ rfl⟩
  · next x y =>
    -- Both are lists now too, as known as they were or less
    obtain ⟨x', rfl, hx⟩ := (refines_sequence_iff.1 ha).resolve_left hunknown
    obtain ⟨y', rfl, hy⟩ := (refines_sequence_iff.1 hb).resolve_left hunknown'
    split at hrule
    · next s hs =>
      obtain rfl := Except.ok.inj hrule
      obtain ⟨s', hs', hrefines⟩ := unifyItems?_weakens hx hy hclash hs
      exact ⟨.sequence s', by simp only [resultType, hs']; rfl, hrefines⟩
    · cases hrule
  · obtain ⟨rfl, rfl, hresult⟩ := same_of_arithmetic ha hb hunknown hunknown' hrule
    exact ⟨t, ht, hresult⟩

/-- Products, and repetitions of texts and lists. -/
theorem mul_weakens (ha : a.refines a' = true) (hb : b.refines b' = true) :
    Weakens (mul.resultType a b key) (mul.resultType a' b' key) := by
  refine resultType_weakens_of_known (.inr rfl) fun hunknown hunknown' => ?_
  intro t ht
  have hrule := ht
  simp only [resultType] at hrule
  -- Strings and lists are repeated from either side; anything else is a product of numbers
  split at hrule
  · rw [eq_of_refines_atom rfl ha hunknown, eq_of_refines_atom rfl hb hunknown']
    exact ⟨t, ht, Except.ok.inj hrule ▸ rfl⟩
  · rw [eq_of_refines_atom rfl ha hunknown, eq_of_refines_atom rfl hb hunknown']
    exact ⟨t, ht, Except.ok.inj hrule ▸ rfl⟩
  · -- A repeated list keeps the type of its items
    obtain ⟨item', rfl, hitem⟩ := (refines_sequence_iff.1 ha).resolve_left hunknown
    rw [eq_of_refines_atom rfl hb hunknown']
    exact ⟨.sequence item', rfl, Except.ok.inj hrule ▸ hitem⟩
  · obtain ⟨item', rfl, hitem⟩ := (refines_sequence_iff.1 hb).resolve_left hunknown'
    rw [eq_of_refines_atom rfl ha hunknown]
    exact ⟨.sequence item', rfl, Except.ok.inj hrule ▸ hitem⟩
  · obtain ⟨rfl, rfl, hresult⟩ := same_of_arithmetic ha hb hunknown hunknown' hrule
    exact ⟨t, ht, hresult⟩

/-- Operations on two operands, operator by operator. -/
theorem resultType_weakens (op : BinaryOp) (ha : a.refines a' = true)
    (hb : b.refines b' = true) (hclash : ¬ Operator.Clashes (.binary op) [a', b']) :
    Weakens (op.resultType a b key) (op.resultType a' b' key) := by
  cases op with
  | add => exact add_weakens ha hb hclash
  | mul => exact mul_weakens ha hb
  | sub | div | floorDiv | mod | pow => exact arithmetic_weakens _ ha hb
  | lt | le | gt | ge => exact weakens_if rfl (ordered_of_refines ha hb)
  | eq | ne =>
    -- Only different object types could get in the way
    refine weakens_if rfl fun h => comparable_of_refines ha hb h fun x y hmeet => ?_
    by_contra hne
    exact hclash (.compare (by simp) hmeet hne)
  | contains => exact weakens_if rfl (searchable_of_refines ha hb hclash)
  | index => exact indexed_weakens ha hb
  | attr =>
    cases key with
    | some name => exact attributeType_weakens ha
    | none => exact weakens_error
  | call f => exact f.resultType_weakens ha hb

end BinaryOp

end ReactiveState
