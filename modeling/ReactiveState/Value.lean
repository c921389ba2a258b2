import ReactiveState.KeyMap

/-! # Values

A `Value` is what a field holds, what a literal denotes and what an event carries: null, a boolean,
a 64-bit integer, a double, a string, a list, or a dict from strings to values.  A dict is a list of
entries in ascending key order; `Value.WellFormed` says so at every depth, and every reader and
every operation of the library keeps it.

Equality (`==`) compares numbers of one kind only: an integer never equals a float, and floats are
compared as numbers, so a value that holds a NaN differs from itself and `0.0 == -0.0`.  There is a
single NaN: what other bits a NaN may have is not part of a value. -/

namespace ReactiveState

/-- A dynamically typed value. -/
inductive Value where
  | null
  | bool (b : Bool)
  | int (n : Int64)
  | float (x : Float)
  | str (s : String)
  | list (items : List Value)
  | dict (entries : List (String × Value))
deriving Inhabited

namespace Value

/-- The name of the value's kind, as messages show it. -/
def kind : Value → String
  | null => "null"
  | bool _ => "bool"
  | int _ => "int"
  | float _ => "float"
  | str _ => "str"
  | list _ => "list"
  | dict _ => "dict"

/-- Whether the value is null. -/
def isNull : Value → Bool
  | null => true
  | _ => false

/-- The boolean, of a boolean. -/
def bool? : Value → Option Bool
  | bool b => some b
  | _ => none

/-- The integer, of an integer. -/
def int? : Value → Option Int64
  | int n => some n
  | _ => none

/-- The number as a double; an integer goes to the nearest one. -/
def number? : Value → Option Float
  | int n => some (Float.ofInt n.toInt)
  | float x => some x
  | _ => none

/-- The text, of a string. -/
def str? : Value → Option String
  | str s => some s
  | _ => none

/-- The items, of a list. -/
def list? : Value → Option (List Value)
  | list items => some items
  | _ => none

/-- The entries, of a dict. -/
def dict? : Value → Option (List (String × Value))
  | dict entries => some entries
  | _ => none

/-- Whether a condition counts the value as true: null, false, zeros, NaN and the empty string do
not; every list and every dict does. -/
def isTruthy : Value → Bool
  | null => false
  | bool b => b
  | int n => n != 0
  | float x => !(x == 0.0) && !x.isNaN
  | str s => s != ""
  | list _ => true
  | dict _ => true

mutual

/-- Equality of values of one kind; floats compare as numbers. -/
def beq : Value → Value → Bool
  | null, null => true
  | bool a, bool b => a == b
  | int a, int b => a == b
  | float a, float b => a == b
  | str a, str b => a == b
  | list as, list bs => beqList as bs
  | dict as, dict bs => beqEntries as bs
  | _, _ => false

/-- Equality item by item. -/
def beqList : List Value → List Value → Bool
  | [], [] => true
  | a :: as, b :: bs => beq a b && beqList as bs
  | _, _ => false

/-- Equality entry by entry, keys included. -/
def beqEntries : List (String × Value) → List (String × Value) → Bool
  | [], [] => true
  | (k, a) :: as, (k', b) :: bs => k == k' && beq a b && beqEntries as bs
  | _, _ => false

end

instance : BEq Value := ⟨beq⟩

mutual

/-- Every dict inside the value has its keys in strictly ascending order. -/
def WellFormed : Value → Prop
  | list items => WellFormedList items
  | dict entries => KeyMap.Sorted entries ∧ WellFormedEntries entries
  | _ => True

/-- Every item is well formed. -/
def WellFormedList : List Value → Prop
  | [] => True
  | a :: as => WellFormed a ∧ WellFormedList as

/-- The value of every entry is well formed. -/
def WellFormedEntries : List (String × Value) → Prop
  | [] => True
  | (_, a) :: as => WellFormed a ∧ WellFormedEntries as

end

/-- Entries are well formed if the value of every entry is. -/
theorem wellFormedEntries_iff {as : List (String × Value)} :
    WellFormedEntries as ↔ ∀ p ∈ as, WellFormed p.2 := by
  induction as with
  | nil => simp [WellFormedEntries]
  | cons p as ih => simp [WellFormedEntries, ih]

end Value

end ReactiveState
