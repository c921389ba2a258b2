import ReactiveState.Proofs.Expr.Evaluation

/-!
# Unknown fields

No operator reports an unknown field.  So an evaluation reports one only if its source does, for a
field that the expression reads (`Expr.known_evalWith`).
-/

namespace ReactiveState

variable {α β : Type}

/-- The result is not that a field is unknown. -/
def Known : Except EvalError α → Prop
  | .ok _ => True
  | .error (.unknownField _) => False
  | .error _ => True

/-- A known result is no complaint about an unknown field. -/
theorem Known.ne {r : Except EvalError α} (hr : Known r) (k : FieldKey) :
    r ≠ .error (.unknownField k) := by
  rintro rfl
  exact hr

/-- What is known in each step is known in sequence. -/
theorem Known.bind {r : Except EvalError α} {f : α → Except EvalError β} (hr : Known r)
    (hf : ∀ a, Known (f a)) : Known (r.bind f) := by
  cases r with
  | error e => cases e <;> exact hr
  | ok a => exact hf a

/-! ### Operators -/

namespace Arithmetic

/-- Exact arithmetic fails by overflow only. -/
theorem known_exact (op : String) (n : Int) : Known (exact op n) := by
  unfold exact
  split <;> trivial

/-- Operands that are no numbers are invalid, which is no unknown field. -/
theorem known_floats (op : String) (a b : Value) : Known (floats op a b) := by
  unfold floats
  split <;> trivial

/-- Arithmetic on numbers of both kinds. -/
theorem known_numeric (op : String) (onInts : Int → Int → Int) (onFloats : Float → Float → Float)
    (a b : Value) : Known (numeric op onInts onFloats a b) := by
  unfold numeric
  split
  · exact known_exact _ _
  · exact (known_floats op a b).bind fun _ => trivial

/-- Division fails by zero only, operands apart. -/
theorem known_divided (op : String) (onFloats : Float → Float → Float) (a b : Value) :
    Known (divided op onFloats a b) := by
  refine (known_floats op a b).bind fun p => ?_
  dsimp only
  split <;> trivial

/-- Comparisons fail for operands without an order only. -/
theorem known_order (op : String) (a b : Value) : Known (order op a b) := by
  unfold order
  split
  · trivial
  · trivial
  · -- Floats fail to compare at a NaN, with an error of its own
    refine (known_floats op _ _).bind fun p => ?_
    dsimp only
    split
    · trivial
    · split
      · trivial
      · split <;> trivial

/-- Floor division fails by zero or overflow. -/
theorem known_floorQuotient (op : String) (m n : Int64) : Known (floorQuotient op m n) := by
  unfold floorQuotient
  split
  · trivial
  · exact known_exact _ _

/-- The remainder fails by zero or overflow. -/
theorem known_remainder (op : String) (m n : Int64) : Known (remainder op m n) := by
  unfold remainder
  split
  · trivial
  · split
    · exact known_exact _ _
    · trivial

/-- A power fails for its exponent or by overflow. -/
theorem known_power (op : String) (m n : Int64) : Known (power op m n) := by
  unfold power
  dsimp only
  repeat' split
  all_goals first | exact known_exact _ _ | trivial

end Arithmetic

namespace Value

/-- A repetition fails for its size. -/
theorem known_copies (op : String) (size : Nat) (n : Int64) : Known (copies op size n) := by
  unfold copies
  split
  · trivial
  · split <;> trivial

/-- A position fails outside of the container. -/
theorem known_position (index : Int64) (length : Nat) : Known (position index length) := by
  unfold position
  extract_lets i
  split <;> trivial

/-- A look-up fails for a missing key. -/
theorem known_valueAt (entries : List (String × Value)) (key : String) :
    Known (valueAt entries key) := by
  unfold valueAt
  split <;> trivial

/-- Indexing fails as positions and look-ups do. -/
theorem known_indexed (op : String) (container index : Value) :
    Known (indexed op container index) := by
  unfold indexed
  split
  · trivial
  · refine (known_position _ _).bind fun i => ?_
    split <;> trivial
  · refine (known_position _ _).bind fun i => ?_
    split <;> trivial
  · exact known_valueAt _ _
  · trivial

/-- Reading an attribute fails as a look-up does. -/
theorem known_attributeOf (op : String) (container name : Value) :
    Known (attributeOf op container name) := by
  unfold attributeOf
  split
  · trivial
  · exact known_valueAt _ _
  · trivial

/-- Looking for an item fails for operands only. -/
theorem known_contained (op : String) (container item : Value) :
    Known (contained op container item) := by
  unfold contained
  split <;> trivial

/-- Rounding fails by overflow only. -/
theorem known_rounded (op : String) (x : Float) : Known (rounded op x) := by
  unfold rounded
  dsimp only
  split <;> trivial

end Value

/-- No function of one argument complains about a field. -/
theorem UnaryFunction.known_apply (f : UnaryFunction) (v : Value) : Known (f.apply v) := by
  cases f with
  | abs =>
    unfold apply
    dsimp only
    split
    · exact Arithmetic.known_exact _ _
    · trivial
    · trivial
  | round =>
    unfold apply
    dsimp only
    split
    · trivial
    · exact Value.known_rounded _ _
    · trivial
  -- The others give a value, or complain about their operand
  | _ =>
    unfold apply
    dsimp only
    split <;> trivial

/-- No operation on one operand complains about a field. -/
theorem UnaryOp.known_apply (op : UnaryOp) (v : Value) : Known (op.apply v) := by
  cases op with
  | neg =>
    unfold apply
    dsimp only
    split
    · exact Arithmetic.known_exact _ _
    · trivial
    · trivial
  | length =>
    unfold apply
    dsimp only
    split <;> trivial
  | call f => exact f.known_apply v
  | _ => trivial

/-- No function of two arguments complains about a field. -/
theorem BinaryFunction.known_apply (f : BinaryFunction) (a b : Value) : Known (f.apply a b) := by
  -- Texts to join are checked one after another, by induction on the list
  have hitems : ∀ op vs, Known (itemTexts op vs) := by
    intro op vs
    induction vs with
    | nil => trivial
    | cons v vs ih =>
      cases v with
      | str s => exact ih.bind fun _ => trivial
      | _ => trivial
  cases f with
  | min => exact Arithmetic.known_numeric _ _ _ _ _
  | max => exact Arithmetic.known_numeric _ _ _ _ _
  | join =>
    unfold apply
    dsimp only
    split
    · -- A list of texts and a separator are joined
      exact (hitems _ _).bind fun _ => trivial
    · trivial
    · trivial
  | split =>
    unfold apply
    dsimp only
    split <;> trivial

/-- No operation on two operands complains about a field. -/
theorem BinaryOp.known_apply (op : BinaryOp) (a b : Value) : Known (op.apply a b) := by
  -- Operator by operator; each comes down to one of the operations above
  cases op with
  | add =>
    unfold apply
    dsimp only
    split
    · trivial
    · trivial
    · exact Arithmetic.known_numeric _ _ _ _ _
  | sub => exact Arithmetic.known_numeric _ _ _ _ _
  | mul =>
    unfold apply
    dsimp only
    split
    · exact (Value.known_copies _ _ _).bind fun _ => trivial
    · exact (Value.known_copies _ _ _).bind fun _ => trivial
    · exact (Value.known_copies _ _ _).bind fun _ => trivial
    · exact (Value.known_copies _ _ _).bind fun _ => trivial
    · exact Arithmetic.known_numeric _ _ _ _ _
  | div => exact Arithmetic.known_divided _ _ _ _
  | floorDiv =>
    unfold apply
    dsimp only
    split
    · exact Arithmetic.known_floorQuotient _ _ _
    · exact Arithmetic.known_divided _ _ _ _
  | mod =>
    unfold apply
    dsimp only
    split
    · exact Arithmetic.known_remainder _ _ _
    · exact Arithmetic.known_divided _ _ _ _
  | pow =>
    unfold apply
    dsimp only
    split
    · exact Arithmetic.known_power _ _ _
    · exact (Arithmetic.known_floats _ _ _).bind fun _ => trivial
  | lt => exact (Arithmetic.known_order _ _ _).bind fun _ => trivial
  | le => exact (Arithmetic.known_order _ _ _).bind fun _ => trivial
  | gt => exact (Arithmetic.known_order _ _ _).bind fun _ => trivial
  | ge => exact (Arithmetic.known_order _ _ _).bind fun _ => trivial
  | eq => trivial
  | ne => trivial
  | contains => exact Value.known_contained _ _ _
  | index => exact Value.known_indexed _ _ _
  | attr => exact Value.known_attributeOf _ _ _
  | call f => exact f.known_apply a b

/-! ### Evaluation -/

/-- An evaluation whose source knows all fields that are read does not report an unknown field. -/
theorem Expr.known_evalWith {source : FieldKey → Evaluated} {e : Expr}
    (h : ∀ k ∈ e.dependencies, Known (source k)) : Known (e.evalWith source) := by
  induction e using eval_induction with
  | literal v => trivial
  -- Here alone the source is asked
  | field k t => exact h k (by simp [dependencies])
  | unary op e t ih =>
    rw [evalWith_unary]
    exact (ih h).bind op.known_apply
  | binary op l r t ihl ihr =>
    simp only [dependencies, KeySet.mem_union] at h
    rw [evalWith_binary]
    exact (ihl fun k hk => h k (.inl hk)).bind fun v =>
      (ihr fun k hk => h k (.inr hk)).bind (op.known_apply v)
  | logical op l r t ihl ihr =>
    simp only [dependencies, KeySet.mem_union] at h
    rw [evalWith_logical]
    refine (ihl fun k hk => h k (.inl hk)).bind fun v => ?_
    split
    · -- Where the left operand decides, the right one is not read
      trivial
    · exact ihr fun k hk => h k (.inr hk)
  | cond c y n t ihc ihy ihn =>
    simp only [dependencies, KeySet.mem_union] at h
    rw [evalWith_cond]
    refine (ihc fun k hk => h k (.inl (.inl hk))).bind fun v => ?_
    split
    · exact ihy fun k hk => h k (.inl (.inr hk))
    · exact ihn fun k hk => h k (.inr hk)
  -- An external function is refused on the server, whatever its arguments
  | external name args t => trivial

end ReactiveState
