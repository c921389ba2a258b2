import ReactiveState.Proofs.Except
import ReactiveState.Proofs.Typing.Numbers

/-!
# Operators keep their types

Applied to values of the operand types, an operation delivers its result type
(`UnaryOp.apply_delivers`, `BinaryOp.apply_delivers`), but for the comparison of two numbers that
are in no order.  Reading an item or an attribute goes through the form of the container's type: an
optional container has nulls in place of items.
-/

namespace ReactiveState

variable {a b t : ValueType} {v w : Value} {key : Option String}

/-! ### Containers -/

namespace ValueType

/-- Allowing null asks for no more and no less to be known. -/
@[simp] theorem isConcrete_orNull : t.orNull.isConcrete = t.isConcrete := by
  cases t <;> rfl

/-- An index means a position or is out of range. -/
theorem position_cases (n : Int64) (length : Nat) : (∃ k, Value.position n length = .ok k) ∨
    Value.position n length = .error (.indexOutOfRange n length) := by
  unfold Value.position
  extract_lets i
  split
  · exact .inl ⟨_, rfl⟩
  · exact .inr rfl

/-- A lookup delivers the type if the value found fits; nothing found is null. -/
theorem delivers_valueAt {entries : List (String × Value)} {key : String}
    (h : ∀ v, KeyMap.find? key entries = some v → t.Accepts v) :
    t.Delivers (Value.valueAt entries key) := by
  unfold Value.valueAt
  split
  · next v hv => exact h v hv
  · rfl

/-- The value at an attribute is one of the attribute's type. -/
theorem delivers_attribute {attributes : List (String × ValueType)} {name : String}
    (hv : (object attributes).Accepts v) (ht : KeyMap.find? name attributes = some t) :
    ∃ entries, v = .dict entries ∧ t.Delivers (Value.valueAt entries name) := by
  obtain ⟨entries, rfl, -, hall⟩ := accepts_object.1 hv
  refine ⟨entries, rfl, delivers_valueAt fun w hw => ?_⟩
  obtain ⟨u, hu, huw⟩ := hall _ (KeyMap.mem_of_find? hw)
  obtain rfl : t = u := Option.some.inj (ht.symm.trans hu)
  exact huw

/-- A lookup in a mapping delivers the type of its values, or null. -/
theorem delivers_mapping {entries : List (String × Value)} {key : String}
    (h : (mapping t).Accepts (.dict entries)) : t.Delivers (Value.valueAt entries key) := by
  obtain ⟨entries', heq, hall⟩ := accepts_mapping.1 h
  obtain rfl := Value.dict.inj heq
  exact delivers_valueAt fun w hw => hall _ (KeyMap.mem_of_find? hw)

/-- Reading an attribute, by recursion on the optional types around the container. -/
theorem delivers_attributeOf (op : String) {name : String} : ∀ {a t : ValueType} {v : Value},
    a.attributeType name = .ok t → a.isConcrete = true → a.Accepts v →
      t.Delivers (Value.attributeOf op v (.str name))
  | optional a, t, v, h, ha, hv => by
    obtain ⟨u, hu, h⟩ := bind_eq_ok h
    obtain rfl := Except.ok.inj h
    -- A receiver that is null gives null, which the optional result allows
    rcases accepts_optional.1 hv with rfl | hv
    · exact accepts_orNull.2 (.inl rfl)
    · exact (delivers_attributeOf op hu ha hv).orNull
  | mapping u, t, v, h, _, hv => by
    obtain rfl := Except.ok.inj h
    obtain ⟨entries, rfl, _⟩ := accepts_mapping.1 hv
    exact delivers_mapping hv
  | object attributes, t, v, h, _, hv => by
    simp only [attributeType] at h
    split at h
    · next u hu =>
      obtain rfl := Except.ok.inj h
      -- An attribute of the type is there in every value of the type
      obtain ⟨entries, rfl, hdelivers⟩ := delivers_attribute hv hu
      exact hdelivers
    · cases h
  | unknown, _, _, _, ha, _ => by cases ha

/-- The item at an index is one of the items. -/
theorem delivers_item (op : String) {items : List Value} (n : Int64)
    (h : ∀ i ∈ items, t.Accepts i) : t.Delivers (Value.indexed op (.list items) (.int n)) := by
  rcases position_cases n items.length with ⟨k, hk⟩ | hk
  · -- Behind the end of the list there is null, or a value that is one of the items
    cases hi : items[k]? with
    | some v =>
      simp only [Value.indexed, hk, bind, Except.bind, hi]
      exact h v (List.mem_of_getElem? hi)
    | none =>
      simp only [Value.indexed, hk, bind, Except.bind, hi]
      rfl
  · simp only [Value.indexed, hk]
    rfl

/-- The character at an index is a string again. -/
theorem delivers_character (op s : String) (n : Int64) :
    str.Delivers (Value.indexed op (.str s) (.int n)) := by
  rcases position_cases n s.toList.length with ⟨k, hk⟩ | hk
  · cases hi : s.toList[k]? <;> simp only [Value.indexed, hk, bind, Except.bind, hi] <;> rfl
  · simp only [Value.indexed, hk]
    rfl

/-- Reading at an index or a key, by recursion on the optional types around the container. -/
theorem delivers_indexed (op : String) {b : ValueType} {w : Value}
    (hb : b.isConcrete = true) (hw : b.Accepts w) (hkey : ∀ name, key = some name → w = .str name) :
    ∀ {a t : ValueType} {v : Value}, a.indexed b key = .ok t → a.isConcrete = true →
      t.isConcrete = true → a.Accepts v → t.Delivers (Value.indexed op v w)
  | optional a, t, v, h, ha, ht, hv => by
    simp only [indexed] at h
    obtain ⟨u, hu, h⟩ := bind_eq_ok h
    obtain rfl := Except.ok.inj h
    rcases accepts_optional.1 hv with rfl | hv
    · -- Indexing null gives null
      exact accepts_orNull.2 (.inl rfl)
    · exact (delivers_indexed op hb hw hkey hu ha (isConcrete_orNull ▸ ht) hv).orNull
  | sequence item, t, v, h, _, _, hv => by
    obtain ⟨items, rfl, hitems⟩ := accepts_sequence.1 hv
    -- Only one type of index passes the rule, and its values are of that kind
    cases b with
    | int =>
      obtain ⟨n, rfl⟩ := accepts_int.1 hw
      obtain rfl := Except.ok.inj h
      exact delivers_item op n hitems
    | unknown => cases hb
    | _ => cases h
  | str, t, v, h, _, _, hv => by
    obtain ⟨s, rfl⟩ := accepts_str.1 hv
    cases b with
    | int =>
      obtain ⟨n, rfl⟩ := accepts_int.1 hw
      obtain rfl := Except.ok.inj h
      exact delivers_character op s n
    | unknown => cases hb
    | _ => cases h
  | mapping value, t, v, h, _, _, hv => by
    obtain ⟨entries, rfl, _⟩ := accepts_mapping.1 hv
    cases b with
    | str =>
      obtain ⟨k, rfl⟩ := accepts_str.1 hw
      obtain rfl := Except.ok.inj h
      exact delivers_mapping hv
    | unknown => cases hb
    | _ => cases h
  | object attributes, t, v, h, ha, ht, hv => by
    obtain ⟨entries, rfl, _⟩ := accepts_object.1 hv
    cases b with
    | str =>
      cases key with
      | some name =>
        obtain rfl := hkey name rfl
        exact delivers_attributeOf op h ha hv
      | none =>
        obtain rfl := Except.ok.inj h
        -- Without a literal key the attribute is not known, nor is its type
        cases ht
    | unknown => cases hb
    | _ => cases h
  | unknown, _, _, _, ha, _, _ => by cases ha
  | null, _, _, h, _, _, _ => by cases b <;> cases h
  | bool, _, _, h, _, _, _ => by cases b <;> cases h
  | int, _, _, h, _, _, _ => by cases b <;> cases h
  | float, _, _, h, _, _, _ => by cases b <;> cases h

/-! ### Searches -/

/-- A value of a concrete type that a string may be of is a string. -/
theorem accepts_of_mayBeString (h : b.mayBeString = true) (hb : b.isConcrete = true)
    (hw : b.Accepts w) : ∃ s, w = .str s := by
  cases b with
  | str => exact accepts_str.1 hw
  | unknown => cases hb
  | _ => cases h

/-- Where a search is allowed, it finds out. -/
theorem delivers_contained (op : String) (h : a.searchable b = true) (ha : a.isConcrete = true)
    (hb : b.isConcrete = true) (hv : a.Accepts v) (hw : b.Accepts w) :
    bool.Delivers (Value.contained op v w) := by
  -- The container has one of the types that can be searched, and its value is of that kind
  cases a with
  | sequence item =>
    obtain ⟨items, rfl, _⟩ := accepts_sequence.1 hv
    rfl
  | str =>
    obtain ⟨s, rfl⟩ := accepts_str.1 hv
    obtain ⟨part, rfl⟩ := accepts_of_mayBeString h hb hw
    rfl
  | mapping value =>
    obtain ⟨entries, rfl, _⟩ := accepts_mapping.1 hv
    obtain ⟨k, rfl⟩ := accepts_of_mayBeString h hb hw
    rfl
  | object attributes =>
    obtain ⟨entries, rfl, _⟩ := accepts_object.1 hv
    obtain ⟨k, rfl⟩ := accepts_of_mayBeString h hb hw
    rfl
  | unknown => cases ha
  | _ => cases h

end ValueType

/-! ### One operand -/

/-- Rounding delivers an integer or overflows. -/
theorem rounded_delivers (op : String) (x : Float) :
    ValueType.int.Delivers (Value.rounded op x) := by
  unfold Value.rounded
  extract_lets r
  split <;> rfl

/-- What a function on strings is applied to. -/
theorem of_mayBeString {f : UnaryFunction}
    (h : (if a.mayBeString = true then .ok .str
      else .error (.typeMismatch f.name a none) : Typed) = .ok t)
    (ha : a.isConcrete = true) (hv : a.Accepts v) : t = .str ∧ ∃ s, v = .str s := by
  split at h
  · next hmay =>
    exact ⟨(Except.ok.inj h).symm, ValueType.accepts_of_mayBeString hmay ha hv⟩
  · cases h

/-- The keys of a dict are a list of strings. -/
theorem keys_delivers (entries : List (String × Value)) :
    (ValueType.sequence .str).Delivers (UnaryFunction.keys.apply (.dict entries)) := by
  refine ValueType.accepts_sequence.2 ⟨_, rfl, fun i hi => ?_⟩
  obtain ⟨k, _, rfl⟩ := List.mem_map.1 hi
  rfl

/-- A function of one argument delivers the type that its rule gives. -/
theorem UnaryFunction.apply_delivers (f : UnaryFunction) (h : f.resultType a = .ok t)
    (ha : a.isConcrete = true) (ht : t.isConcrete = true) (hv : a.Accepts v) :
    t.Delivers (f.apply v) := by
  cases f with
  | abs =>
    cases a with
    | int =>
      obtain ⟨n, rfl⟩ := ValueType.accepts_int.1 hv
      obtain rfl := Except.ok.inj h
      -- The least integer has no absolute value, which is an overflow
      exact Arithmetic.exact_delivers _ _
    | float =>
      obtain ⟨x, rfl⟩ := ValueType.accepts_float.1 hv
      obtain rfl := Except.ok.inj h
      rfl
    | unknown => cases ha
    | _ => cases h
  | round =>
    cases a with
    | int =>
      obtain ⟨n, rfl⟩ := ValueType.accepts_int.1 hv
      obtain rfl := Except.ok.inj h
      rfl
    | float =>
      obtain ⟨x, rfl⟩ := ValueType.accepts_float.1 hv
      obtain rfl := Except.ok.inj h
      exact rounded_delivers _ x
    | unknown => cases ha
    | _ => cases h
  | upper =>
    obtain ⟨rfl, s, rfl⟩ := of_mayBeString (f := .upper) h ha hv
    rfl
  | lower =>
    obtain ⟨rfl, s, rfl⟩ := of_mayBeString (f := .lower) h ha hv
    rfl
  | trim =>
    obtain ⟨rfl, s, rfl⟩ := of_mayBeString (f := .trim) h ha hv
    rfl
  | keys =>
    cases a with
    | mapping value =>
      obtain ⟨entries, rfl, _⟩ := ValueType.accepts_mapping.1 hv
      obtain rfl := Except.ok.inj h
      exact keys_delivers entries
    | object attributes =>
      obtain ⟨entries, rfl, _⟩ := ValueType.accepts_object.1 hv
      obtain rfl := Except.ok.inj h
      exact keys_delivers entries
    | unknown => cases ha
    | _ => cases h
  | values =>
    cases a with
    | mapping value =>
      obtain ⟨entries, rfl, hall⟩ := ValueType.accepts_mapping.1 hv
      obtain rfl := Except.ok.inj h
      refine ValueType.accepts_sequence.2 ⟨_, rfl, fun i hi => ?_⟩
      -- Every value of the mapping has the type of its values
      obtain ⟨p, hp, rfl⟩ := List.mem_map.1 hi
      exact hall p hp
    | object attributes =>
      obtain rfl := Except.ok.inj h
      -- The values of an object need not have a common type
      cases ht
    | unknown => cases ha
    | _ => cases h

/-- An operation on one operand delivers the type that its rule gives. -/
theorem UnaryOp.apply_delivers (op : UnaryOp) (h : op.resultType a = .ok t)
    (hop : ∀ target, op = .annotate target → target.WellFormed) (ha : a.isConcrete = true)
    (ht : t.isConcrete = true) (hv : a.Accepts v) : t.Delivers (op.apply v) := by
  cases op with
  | neg =>
    cases a with
    | int =>
      obtain ⟨n, rfl⟩ := ValueType.accepts_int.1 hv
      obtain rfl := Except.ok.inj h
      -- Nor has it an opposite
      exact Arithmetic.exact_delivers _ _
    | float =>
      obtain ⟨x, rfl⟩ := ValueType.accepts_float.1 hv
      obtain rfl := Except.ok.inj h
      rfl
    | unknown => cases ha
    | _ => cases h
  | not =>
    obtain rfl := Except.ok.inj h
    rfl
  -- Whatever has a length, the length is an integer
  | length =>
    cases a with
    | str =>
      obtain ⟨s, rfl⟩ := ValueType.accepts_str.1 hv
      obtain rfl := Except.ok.inj h
      rfl
    | sequence item =>
      obtain ⟨items, rfl, _⟩ := ValueType.accepts_sequence.1 hv
      obtain rfl := Except.ok.inj h
      rfl
    | mapping value =>
      obtain ⟨entries, rfl, _⟩ := ValueType.accepts_mapping.1 hv
      obtain rfl := Except.ok.inj h
      rfl
    | object attributes =>
      obtain ⟨entries, rfl, _⟩ := ValueType.accepts_object.1 hv
      obtain rfl := Except.ok.inj h
      rfl
    | unknown => cases ha
    | _ => cases h
  | stringify =>
    obtain rfl := Except.ok.inj h
    rfl
  | annotate target =>
    simp only [resultType] at h
    split at h
    · next hrefines =>
      obtain rfl := Except.ok.inj h
      -- An annotation leaves the value as it is
      exact hv.of_refines (hop _ rfl) hrefines ha
    · cases h
  | call f => exact f.apply_delivers h ha ht hv

/-! ### Two operands -/

/-- A rule under a condition gives its type if the condition holds. -/
theorem given_eq_ok {condition : Bool} {result : ValueType} {op : BinaryOp}
    (h : ValueType.given condition result op a b = .ok t) : condition = true ∧ t = result := by
  unfold ValueType.given at h
  split at h
  · next hc => exact ⟨hc, (Except.ok.inj h).symm⟩
  · cases h

/-- The items of a list of strings are texts. -/
theorem itemTexts_eq_ok (op : String) {items : List Value}
    (h : ∀ i ∈ items, ValueType.str.Accepts i) : ∃ ss, itemTexts op items = .ok ss := by
  induction items with
  | nil => exact ⟨[], rfl⟩
  | cons i items ih =>
    obtain ⟨hi, hitems⟩ := List.forall_mem_cons.1 h
    obtain ⟨s, rfl⟩ := ValueType.accepts_str.1 hi
    obtain ⟨ss, hss⟩ := ih hitems
    exact ⟨s :: ss, by rw [itemTexts, hss]; rfl⟩

/-- A function of two arguments delivers the type that its rule gives. -/
theorem BinaryFunction.apply_delivers (f : BinaryFunction) (h : f.resultType a b = .ok t)
    (ha : a.isConcrete = true) (hb : b.isConcrete = true) (ht : t.isConcrete = true)
    (hv : a.Accepts v) (hw : b.Accepts w) : t.Delivers (f.apply v w) := by
  cases f with
  | min =>
    -- The lesser of two integers is one of them, and of mixed numbers it is a float
    rcases arithmetic_operands h (ne_unknown ht) hv hw with
      ⟨⟨m, n, rfl, rfl⟩, rfl⟩ | ⟨hmixed, rfl⟩
    · exact Arithmetic.exact_delivers _ _
    · exact Arithmetic.numeric_mixed hmixed
  | max =>
    rcases arithmetic_operands h (ne_unknown ht) hv hw with
      ⟨⟨m, n, rfl, rfl⟩, rfl⟩ | ⟨hmixed, rfl⟩
    · exact Arithmetic.exact_delivers _ _
    · exact Arithmetic.numeric_mixed hmixed
  | join =>
    obtain ⟨hjoin, rfl⟩ := given_eq_ok h
    -- The rule asks for strings in the list and for a string between them
    rw [Bool.and_eq_true] at hjoin
    obtain ⟨separator, rfl⟩ := ValueType.accepts_of_mayBeString hjoin.2 hb hw
    cases a with
    | sequence item =>
      obtain ⟨items, rfl, hitems⟩ := ValueType.accepts_sequence.1 hv
      obtain ⟨ss, hss⟩ := itemTexts_eq_ok BinaryFunction.join.name fun i hi =>
        ValueType.accepts_str.2 (ValueType.accepts_of_mayBeString hjoin.1 ha (hitems i hi))
      simp only [apply, hss]
      rfl
    | unknown => cases ha
    | _ => cases hjoin.1
  | split =>
    obtain ⟨hsplit, rfl⟩ := given_eq_ok h
    -- The rule asks for two strings, and the parts are strings again
    rw [Bool.and_eq_true] at hsplit
    obtain ⟨s, rfl⟩ := ValueType.accepts_of_mayBeString hsplit.1 ha hv
    obtain ⟨separator, rfl⟩ := ValueType.accepts_of_mayBeString hsplit.2 hb hw
    refine ValueType.accepts_sequence.2 ⟨_, rfl, fun i hi => ?_⟩
    obtain ⟨part, _, rfl⟩ := List.mem_map.1 hi
    rfl

/-- Where all is known, lists are joined only if their items have one type. -/
theorem unifyItems?_eq_some (h : a.unifyItems? b = some t) (ha : a.isConcrete = true)
    (hb : b.isConcrete = true) : a = t ∧ b = t := by
  unfold ValueType.unifyItems? at h
  split at h
  · next heq =>
    obtain rfl := Option.some.inj h
    exact ⟨rfl, heq.symm⟩
  · -- Different types are joined only if one of them is unknown
    split at h
    · cases ha
    · cases hb
    · cases h

/-- A repetition has a number of copies or is refused for its size. -/
theorem copies_cases (op : String) (size : Nat) (n : Int64) :
    (∃ k, Value.copies op size n = .ok k) ∨
      Value.copies op size n = .error (.sizeLimit op Value.maxRepetition) := by
  unfold Value.copies
  split_ifs
  · exact .inl ⟨_, rfl⟩
  · exact .inl ⟨_, rfl⟩
  · exact .inr rfl

/-- A repeated string is a string, or the repetition is refused. -/
theorem repeatText_delivers (op s : String) (n : Int64) :
    ValueType.str.Delivers (Value.repeatText op s n) := by
  unfold Value.repeatText
  -- The size is checked before anything is copied
  rcases copies_cases op s.utf8ByteSize n with ⟨k, hk⟩ | hk <;> rw [hk] <;> rfl

/-- A repeated list is a list of the same type, or the repetition is refused. -/
theorem repeatItems_delivers (op : String) {items : List Value} (n : Int64)
    (h : ∀ i ∈ items, t.Accepts i) :
    (ValueType.sequence t).Delivers (Value.repeatItems op items n) := by
  unfold Value.repeatItems
  rcases copies_cases op items.length n with ⟨k, hk⟩ | hk
  · rw [hk]
    refine ValueType.accepts_sequence.2 ⟨_, rfl, fun i hi => ?_⟩
    -- Every item of the result is an item of one of the copies
    obtain ⟨copy, hcopy, hi⟩ := List.mem_flatten.1 hi
    exact h i (List.eq_of_mem_replicate hcopy ▸ hi)
  · rw [hk]
    rfl

namespace BinaryOp

/-- Lists of concrete types are only joined when their items have the same type. -/
theorem accepts_joined {x y : ValueType}
    (h : add.resultType (.sequence x) (.sequence y) key = .ok t)
    (hx : x.isConcrete = true) (hy : y.isConcrete = true) (hv : (ValueType.sequence x).Accepts v)
    (hw : (ValueType.sequence y).Accepts w) : t.Accepts v ∧ t.Accepts w := by
  simp only [resultType] at h
  split at h
  · next u hu =>
    obtain ⟨rfl, rfl⟩ := unifyItems?_eq_some hu hx hy
    obtain rfl := Except.ok.inj h
    exact ⟨hv, hw⟩
  · cases h

/-- Strings and lists are joined, all else is added.  Both lists have to be of the type of the
result. -/
theorem add_delivers (h : add.resultType a b key = .ok t) (ht : t ≠ .unknown) (hv : a.Accepts v)
    (hw : b.Accepts w)
    (hjoin : ∀ x y, a = .sequence x → b = .sequence y → t.Accepts v ∧ t.Accepts w) :
    t.Delivers (add.apply v w) := by
  simp only [resultType] at h
  split at h
  · -- Two strings
    obtain ⟨s, rfl⟩ := ValueType.accepts_str.1 hv
    obtain ⟨s', rfl⟩ := ValueType.accepts_str.1 hw
    obtain rfl := Except.ok.inj h
    rfl
  · next x y =>
    obtain ⟨hv, hw⟩ := hjoin x y rfl rfl
    split at h
    · obtain rfl := Except.ok.inj h
      obtain ⟨xs, rfl, hxs⟩ := ValueType.accepts_sequence.1 hv
      obtain ⟨ys, rfl, hys⟩ := ValueType.accepts_sequence.1 hw
      -- Every item of the result is an item of one of the lists
      refine ValueType.accepts_sequence.2 ⟨xs ++ ys, rfl, fun i hi => ?_⟩
      exact (List.mem_append.1 hi).elim (hxs i) (hys i)
    · cases h
  · -- Two numbers
    rcases arithmetic_operands h ht hv hw with ⟨⟨m, n, rfl, rfl⟩, rfl⟩ | ⟨hmixed, rfl⟩
    · exact Arithmetic.exact_delivers _ _
    · cases hmixed <;> rfl

/-- Strings and lists are repeated, all else is multiplied. -/
theorem mul_delivers (h : mul.resultType a b key = .ok t) (ht : t ≠ .unknown)
    (hv : a.Accepts v) (hw : b.Accepts w) : t.Delivers (mul.apply v w) := by
  simp only [resultType] at h
  split at h
  · -- A string or a list may stand on either side of the number
    obtain ⟨s, rfl⟩ := ValueType.accepts_str.1 hv
    obtain ⟨n, rfl⟩ := ValueType.accepts_int.1 hw
    obtain rfl := Except.ok.inj h
    exact repeatText_delivers _ s n
  · obtain ⟨n, rfl⟩ := ValueType.accepts_int.1 hv
    obtain ⟨s, rfl⟩ := ValueType.accepts_str.1 hw
    obtain rfl := Except.ok.inj h
    exact repeatText_delivers _ s n
  · obtain ⟨items, rfl, hitems⟩ := ValueType.accepts_sequence.1 hv
    obtain ⟨n, rfl⟩ := ValueType.accepts_int.1 hw
    obtain rfl := Except.ok.inj h
    exact repeatItems_delivers _ n hitems
  · obtain ⟨n, rfl⟩ := ValueType.accepts_int.1 hv
    obtain ⟨items, rfl, hitems⟩ := ValueType.accepts_sequence.1 hw
    obtain rfl := Except.ok.inj h
    exact repeatItems_delivers _ n hitems
  · -- What is neither a string nor a list is a number
    rcases arithmetic_operands h ht hv hw with ⟨⟨m, n, rfl, rfl⟩, rfl⟩ | ⟨hmixed, rfl⟩
    · exact Arithmetic.exact_delivers _ _
    · cases hmixed <;> rfl

/-- The operations that have no rule but that of arithmetic. -/
theorem arithmetic_delivers {op : BinaryOp} (hop : op ∈ [sub, div, floorDiv, mod, pow])
    (h : ValueType.arithmetic op a b = .ok t) (ht : t ≠ .unknown) (hv : a.Accepts v)
    (hw : b.Accepts w) : t.Delivers (op.apply v w) := by
  simp only [List.mem_cons, List.not_mem_nil, or_false] at hop
  -- Two integers are computed exactly, anything else as floats
  rcases arithmetic_operands h ht hv hw with ⟨⟨m, n, rfl, rfl⟩, rfl⟩ | ⟨hmixed, rfl⟩
  · rcases hop with rfl | rfl | rfl | rfl | rfl
    · exact Arithmetic.exact_delivers _ _
    · exact Arithmetic.divided_delivers rfl rfl
    · exact Arithmetic.floorQuotient_delivers m n
    · exact Arithmetic.remainder_delivers m n
    · exact Arithmetic.power_delivers m n
  · obtain ⟨hv', hw'⟩ := hmixed.isSome_number?
    rcases hop with rfl | rfl | rfl | rfl | rfl
    · exact Arithmetic.numeric_mixed hmixed
    · exact Arithmetic.divided_delivers hv' hw'
    · -- A quotient of floats is rounded down after the division
      have hdivided : floorDiv.apply v w =
          Arithmetic.divided floorDiv.symbol (fun x y => (x / y).floor) v w := by
        cases hmixed <;> rfl
      exact hdivided ▸ Arithmetic.divided_delivers hv' hw'
    · have hdivided : mod.apply v w = Arithmetic.divided mod.symbol floatRemainder v w := by
        cases hmixed <;> rfl
      exact hdivided ▸ Arithmetic.divided_delivers hv' hw'
    · cases hmixed <;> rfl

/-- A comparison asks one question about an order, if there is one. -/
private theorem map_order {o : Except EvalError Ordering} (f : Ordering → Bool) :
    (do return .bool (f (← o)) : Evaluated) = o.map fun order => .bool (f order) := by
  cases o <;> rfl

/-- An operation on two operands delivers the type that its rule gives, but for the comparison of
two numbers that are in no order. -/
theorem apply_delivers (op : BinaryOp)
    (hkey : ∀ name, key = some name → w = .str name) (h : op.resultType a b key = .ok t)
    (ha : a.isConcrete = true) (hb : b.isConcrete = true) (ht : t.isConcrete = true)
    (hv : a.Accepts v) (hw : b.Accepts w) :
    t.Delivers (op.apply v w) ∨
      (Unordered op v w ∧ op.apply v w = .error (.invalidOperand op.symbol v.kind)) := by
  cases op with
  | add =>
    refine .inl (add_delivers h (ne_unknown ht) hv hw ?_)
    rintro x y rfl rfl
    exact accepts_joined h ha hb hv hw
  | mul => exact .inl (mul_delivers h (ne_unknown ht) hv hw)
  | sub => exact .inl (arithmetic_delivers (by simp) h (ne_unknown ht) hv hw)
  | div => exact .inl (arithmetic_delivers (by simp) h (ne_unknown ht) hv hw)
  | floorDiv => exact .inl (arithmetic_delivers (by simp) h (ne_unknown ht) hv hw)
  | mod => exact .inl (arithmetic_delivers (by simp) h (ne_unknown ht) hv hw)
  | pow => exact .inl (arithmetic_delivers (by simp) h (ne_unknown ht) hv hw)
  | lt =>
    obtain ⟨hordered, rfl⟩ := given_eq_ok h
    -- The one kind of operation that may meet values it cannot compare
    exact comparison_delivers (f := (· == .lt)) (by simp) hordered ha hb hv hw (map_order _)
  | le =>
    obtain ⟨hordered, rfl⟩ := given_eq_ok h
    exact comparison_delivers (f := (· != .gt)) (by simp) hordered ha hb hv hw (map_order _)
  | gt =>
    obtain ⟨hordered, rfl⟩ := given_eq_ok h
    exact comparison_delivers (f := (· == .gt)) (by simp) hordered ha hb hv hw (map_order _)
  | ge =>
    obtain ⟨hordered, rfl⟩ := given_eq_ok h
    exact comparison_delivers (f := (· != .lt)) (by simp) hordered ha hb hv hw (map_order _)
  | eq =>
    -- Equality is there for any two values
    obtain ⟨-, rfl⟩ := given_eq_ok h
    exact .inl rfl
  | ne =>
    obtain ⟨-, rfl⟩ := given_eq_ok h
    exact .inl rfl
  | contains =>
    obtain ⟨hsearch, rfl⟩ := given_eq_ok h
    exact .inl (ValueType.delivers_contained _ hsearch ha hb hv hw)
  | index => exact .inl (ValueType.delivers_indexed _ hb hw hkey h ha ht hv)
  | attr =>
    cases key with
    | some name =>
      obtain rfl := hkey name rfl
      exact .inl (ValueType.delivers_attributeOf _ h ha hv)
    | none => cases h
  | call f => exact .inl (f.apply_delivers h ha hb ht hv hw)

end BinaryOp

/-! ### Operations that choose -/

/-- The left operand that decides a logical operation is the result. -/
theorem LogicalOp.accepts_left {op : LogicalOp} (h : op.resultType a b = .ok t) (hv : a.Accepts v)
    (hd : op.decides v = true) : t.Accepts v := by
  unfold resultType at h
  split_ifs at h with heq hor hunknown
  · exact Except.ok.inj h ▸ hv
  · obtain ⟨rfl, rfl⟩ := hor
    -- A null decides nothing
    rcases ValueType.accepts_optional.1 hv with rfl | hv
    · cases hd
    · exact Except.ok.inj h ▸ hv
  · exact Except.ok.inj h ▸ ValueType.accepts_unknown

/-- The right operand has a type that the result has as well. -/
theorem LogicalOp.accepts_right {op : LogicalOp} (h : op.resultType a b = .ok t)
    (hw : b.Accepts w) : t.Accepts w := by
  unfold resultType at h
  split_ifs at h with heq hor hunknown
  · exact Except.ok.inj h ▸ heq ▸ hw
  · exact Except.ok.inj h ▸ hw
  · exact Except.ok.inj h ▸ ValueType.accepts_unknown

/-- The type of a conditional takes what either branch gives. -/
theorem condType_accepts (h : condType a b = .ok t) :
    (∀ v, a.Accepts v → t.Accepts v) ∧ ∀ v, b.Accepts v → t.Accepts v := by
  unfold condType at h
  -- A null on one side makes the other side optional
  split_ifs at h with heq hunknown hnull hnull' hoptional hoptional' <;>
    obtain rfl := Except.ok.inj h
  · -- The same type on both sides
    subst heq
    exact ⟨fun _ => id, fun _ => id⟩
  · exact ⟨fun _ _ => ValueType.accepts_unknown, fun _ _ => ValueType.accepts_unknown⟩
  · exact ⟨fun v hv => (hnull ▸ hv).orNull_of_null, fun v hv => hv.orNull⟩
  · exact ⟨fun v hv => hv.orNull, fun v hv => (hnull' ▸ hv).orNull_of_null⟩
  · exact ⟨fun v hv => (hoptional ▸ hv).orNull_of_optional, fun v hv => hv.orNull⟩
  · exact ⟨fun v hv => hv.orNull, fun v hv => (hoptional' ▸ hv).orNull_of_optional⟩

end ReactiveState
