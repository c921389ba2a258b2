import ReactiveState.Value

/-! # Value types

A `ValueType` is the static type of a field or an expression.  `unknown` stands for a type that is
not known yet: every value has it, and `refines` orders types by how much of them is known.

* `ofValue` reads the narrowest type off a value,
* `coerce` checks a value against a type; the one change it makes is from an integer to a float
  where the type asks for a float,
* `zero` is the value of a field that is declared without a default. -/

namespace ReactiveState

/-- The type of a field or an expression. -/
inductive ValueType where
  | null
  | bool
  | int
  | float
  | str
  /-- A list whose items have one type. -/
  | sequence (item : ValueType)
  /-- A dict whose values have one type. -/
  | mapping (value : ValueType)
  /-- Null or the inner type. -/
  | optional (inner : ValueType)
  /-- A dict with exactly these keys. -/
  | object (attributes : List (String × ValueType))
  /-- Not known. -/
  | unknown
deriving Inhabited

namespace ValueType

mutual

/-- Structural equality. -/
def beq : ValueType → ValueType → Bool
  | null, null => true
  | bool, bool => true
  | int, int => true
  | float, float => true
  | str, str => true
  | sequence a, sequence b => beq a b
  | mapping a, mapping b => beq a b
  | optional a, optional b => beq a b
  | object as, object bs => beqAttributes as bs
  | unknown, unknown => true
  | _, _ => false

/-- Structural equality of attribute lists. -/
def beqAttributes : List (String × ValueType) → List (String × ValueType) → Bool
  | [], [] => true
  | (k, a) :: as, (k', b) :: bs => k == k' && beq a b && beqAttributes as bs
  | _, _ => false

end

mutual

/-- The derived comparison decides equality of types. -/
theorem beq_iff : ∀ a b : ValueType, beq a b = true ↔ a = b
  | null, b => by cases b <;> simp [beq]
  | bool, b => by cases b <;> simp [beq]
  | int, b => by cases b <;> simp [beq]
  | float, b => by cases b <;> simp [beq]
  | str, b => by cases b <;> simp [beq]
  | sequence a, b => by cases b <;> simp [beq, beq_iff a]
  | mapping a, b => by cases b <;> simp [beq, beq_iff a]
  | optional a, b => by cases b <;> simp [beq, beq_iff a]
  | object as, b => by cases b <;> simp [beq, beqAttributes_iff as]
  | unknown, b => by cases b <;> simp [beq]

theorem beqAttributes_iff : ∀ as bs : List (String × ValueType),
    beqAttributes as bs = true ↔ as = bs
  | [], bs => by cases bs <;> simp [beqAttributes]
  | (k, a) :: as, bs => by
    cases bs with
    | nil => simp [beqAttributes]
    | cons p bs =>
      obtain ⟨k', b⟩ := p
      simp [beqAttributes, beq_iff a, beqAttributes_iff as]

end

instance : DecidableEq ValueType := fun a b => decidable_of_iff _ (beq_iff a b)

/-- The optional type of an inner type; what admits null already stays as it is. -/
def orNull : ValueType → ValueType
  | optional t => optional t
  | null => null
  | unknown => unknown
  | t => optional t

/-- Whether the type is `int` or `float`. -/
def isNumeric : ValueType → Bool
  | int => true
  | float => true
  | _ => false

/-- Whether nothing at all is known of the type. -/
def isUnknown : ValueType → Bool
  | unknown => true
  | _ => false

mutual

/-- Whether `unknown` occurs nowhere in the type. -/
def isConcrete : ValueType → Bool
  | unknown => false
  | sequence t => isConcrete t
  | mapping t => isConcrete t
  | optional t => isConcrete t
  | object attributes => isConcreteAttributes attributes
  | _ => true

/-- Whether `unknown` occurs in no attribute. -/
def isConcreteAttributes : List (String × ValueType) → Bool
  | [] => true
  | (_, t) :: attributes => isConcrete t && isConcreteAttributes attributes

end

mutual

/-- Whether the first type is the second with some unknown parts filled in. -/
def refines : ValueType → ValueType → Bool
  | _, unknown => true
  | sequence a, sequence b => refines a b
  | mapping a, mapping b => refines a b
  | optional a, optional b => refines a b
  | object as, object bs => as.length == bs.length && refinesAttributes as bs
  | a, b => a == b

/-- Whether each attribute refines the attribute of its name in `bs`. -/
def refinesAttributes : List (String × ValueType) → List (String × ValueType) → Bool
  | [], _ => true
  | (k, a) :: as, bs =>
    (match KeyMap.find? k bs with
      | some b => refines a b
      | none => false)
    && refinesAttributes as bs

end

/-! ### Types and values -/

/-- The type that all of a non-empty list of types are. -/
def common? : List ValueType → Option ValueType
  | [] => none
  | t :: ts => if ts.all (· = t) then some t else none

mutual

/-- The narrowest type of a value.  A list of items of one type is a sequence of it and any other
list a sequence of `unknown`; a dict of values of one type is a mapping, a dict of several types an
object, and an empty dict a mapping of `unknown`. -/
def ofValue : Value → ValueType
  | .null => null
  | .bool _ => bool
  | .int _ => int
  | .float _ => float
  | .str _ => str
  | .list items => sequence ((common? (ofItems items)).getD unknown)
  | .dict entries =>
    match common? ((ofEntries entries).map (·.2)) with
    | some t => mapping t
    | none => if entries.isEmpty then mapping unknown else object (ofEntries entries)

/-- The types of the items. -/
def ofItems : List Value → List ValueType
  | [] => []
  | v :: vs => ofValue v :: ofItems vs

/-- The keys with the types of their values. -/
def ofEntries : List (String × Value) → List (String × ValueType)
  | [] => []
  | (k, v) :: vs => (k, ofValue v) :: ofEntries vs

end

mutual

/-- The value to store in a field of the type, if the type admits the value.  An integer under
`float` becomes a float; all else is kept as it is. -/
def coerce : ValueType → Value → Option Value
  | unknown, v => some v
  | null, .null => some .null
  | bool, .bool b => some (.bool b)
  | int, .int n => some (.int n)
  | float, .int n => some (.float (Float.ofInt n.toInt))
  | float, .float x => some (.float x)
  | str, .str s => some (.str s)
  | optional _, .null => some .null
  | optional t, v => coerce t v
  | sequence t, .list items => (items.mapM' fun v => coerce t v).map .list
  | mapping t, .dict entries =>
    (entries.mapM' fun p => (coerce t p.2).map fun v => (p.1, v)).map .dict
  | object attributes, .dict entries =>
    if entries.length = attributes.length then
      (entries.mapM' fun p => (coerceAttribute attributes p.1 p.2).map fun v => (p.1, v)).map .dict
    else none
  | _, _ => none

/-- Coerces a value to the attribute of the given name. -/
def coerceAttribute : List (String × ValueType) → String → Value → Option Value
  | [], _, _ => none
  | (k, t) :: attributes, name, v =>
    if name = k then coerce t v else coerceAttribute attributes name v

end

mutual

/-- The value of a field that is declared without a default. -/
def zero : ValueType → Value
  | null => .null
  | bool => .bool false
  | int => .int 0
  | float => .float 0.0
  | str => .str ""
  | sequence _ => .list []
  | mapping _ => .dict []
  | optional _ => .null
  | object attributes => .dict (zeroAttributes attributes)
  | unknown => .null

/-- Every attribute at its zero. -/
def zeroAttributes : List (String × ValueType) → List (String × Value)
  | [] => []
  | (k, t) :: attributes => (k, zero t) :: zeroAttributes attributes

end

/-! ### Text -/

mutual

/-- The type as it is shown in messages. -/
def text : ValueType → String
  | null => "null"
  | bool => "bool"
  | int => "int"
  | float => "float"
  | str => "str"
  | sequence t => "list[" ++ text t ++ "]"
  | mapping t => "dict[str, " ++ text t ++ "]"
  | optional t => text t ++ " | null"
  | object attributes => "\x7b" ++ ", ".intercalate (attributeTexts attributes) ++ "\x7d"
  | unknown => "unknown"

/-- Each attribute as a name and a type. -/
def attributeTexts : List (String × ValueType) → List String
  | [] => []
  | (k, t) :: attributes => (k ++ ": " ++ text t) :: attributeTexts attributes

end

end ValueType

end ReactiveState
