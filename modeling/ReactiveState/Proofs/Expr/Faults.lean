import ReactiveState.Expr.Eval
import ReactiveState.Expr.Typing

/-!
# Evaluation that may break down

The evaluator on operands that are found by their positions, with the machine integers, cuts and
repetitions it works with.  A step that a machine cannot take ends in a `Fault`, which is not an
error of the evaluation: nothing catches it.  `Term` is what is evaluated this way.  It is an
expression without types whose operations may have any number of operands.

Only operations with such steps are spelled out; the others are total as they stand.
-/

namespace ReactiveState

/-- Why a step cannot be taken. -/
inductive Fault where
  /-- There is no operand, argument, item or character at the index. -/
  | outOfRange (index length : Nat)
  /-- An integer does not fit its type. -/
  | overflow (n : Int)
  | zeroDivisor
  /-- A text is cut behind its end. -/
  | cutBeyond (n length : Nat)
  /-- A repetition grows beyond its limit. -/
  | tooLong (size : Nat)
deriving DecidableEq, Repr

namespace Checked

/-! ### Steps -/

/-- The element at an index. -/
def elementAt {α : Type} (xs : List α) (i : Nat) : Except Fault α :=
  match xs[i]? with
  | some x => .ok x
  | none => .error (.outOfRange i xs.length)

/-- An integer of 64 bits. -/
def narrow (n : Int) : Except Fault Int64 :=
  match int64? n with
  | some k => .ok k
  | none => .error (.overflow n)

/-- An integer of 32 bits. -/
def narrowHalf (n : Int) : Except Fault Int :=
  if -0x80000000 ≤ n ∧ n < 0x80000000 then .ok n else .error (.overflow n)

/-- A size, which takes 64 bits and has no sign. -/
def narrowSize (n : Int) : Except Fault Nat :=
  if 0 ≤ n ∧ n < 0x10000000000000000 then .ok n.toNat else .error (.overflow n)

/-- The remainder of truncating division. -/
def remainder (a b : Int64) : Except Fault Int64 :=
  if b = 0 then .error .zeroDivisor
  else do
    -- A remainder whose quotient does not fit breaks down too
    let _ ← narrow (a.toInt.tdiv b.toInt)
    narrow (a.toInt.tmod b.toInt)

/-- The first characters and the others. -/
def cut (cs : List Char) (n : Nat) : Except Fault (List Char × List Char) :=
  if n ≤ cs.length then .ok (cs.take n, cs.drop n) else .error (.cutBeyond n cs.length)

/-! ### Operations -/

/-- The floor of a quotient, made from truncating division. -/
def floorQuotient (op : String) (a b : Int64) : Except Fault Evaluated :=
  if b = 0 then .ok (.error .divisionByZero)
  else match int64? (a.toInt.tdiv b.toInt) with
    | none => .ok (.error (.overflow op))
    | some quotient => do
      let r ← remainder a b
      if r ≠ 0 ∧ decide (a < 0) ≠ decide (b < 0) then
        let quotient ← narrow (quotient.toInt - 1)
        return .ok (.int quotient)
      else return .ok (.int quotient)

/-- A value made of copies of something of this size. -/
def repeated (op : String) (size : Nat) (n : Int64) (build : Nat → Value) :
    Except Fault Evaluated :=
  match Value.copies op size n with
  | .error e => .ok (.error e)
  | .ok k => do
    let total ← narrowSize (size * k)
    if total ≤ Value.maxRepetition then return .ok (build k) else throw (.tooLong total)

/-- What an index means from the start of something of this length; a negative one counts from the
end. -/
def offset (index : Int64) (length : Nat) : Except Fault Int :=
  if 0 ≤ index then .ok index.toInt
  -- Nothing in memory has a length of `2 ^ 63`
  else if length < 0x8000000000000000 then do
    let i ← narrow (length + index.toInt)
    return i.toInt
  else .ok (length + index.toInt)

/-- The position that an index means. -/
def position (index : Int64) (length : Nat) : Except Fault (Except EvalError Nat) := do
  let i ← offset index length
  if i < 0 ∨ length ≤ i then return .error (.indexOutOfRange index length)
  else return .ok i.toNat

/-- The value at an index or a key. -/
def indexed (op : String) (container index : Value) : Except Fault Evaluated :=
  match container, index with
  | .list items, .int i => do
    match ← position i items.length with
    | .error e => return .error e
    | .ok k =>
      let v ← elementAt items k
      return .ok v
  | .str s, .int i => do
    match ← position i s.toList.length with
    | .error e => return .error e
    | .ok k =>
      let c ← elementAt s.toList k
      return .ok (.str (String.ofList [c]))
  | container, index => return Value.indexed op container index

/-- The number `d₁.d₂…dₖ · 10 ^ exponent` in the format `scriptNumber`. -/
def layout (digits : List Char) (exponent : Int) : Except Fault (List Char) := do
  let k ← narrowHalf digits.length
  let n ← narrowHalf (exponent + 1)
  if k ≤ n ∧ n ≤ 21 then
    let zeros ← narrowSize (← narrowHalf (n - k))
    return digits ++ List.replicate zeros '0'
  else if 0 < n ∧ n ≤ 21 then
    let (whole, fraction) ← cut digits (← narrowSize n)
    return whole ++ '.' :: fraction
  else if -6 < n ∧ n ≤ 0 then
    let zeros ← narrowSize (← narrowHalf (-n))
    return '0' :: '.' :: (List.replicate zeros '0' ++ digits)
  else
    let (first, rest) ← cut digits 1
    let e ← narrowHalf (n - 1)
    let size ← narrowHalf e.natAbs
    return (if rest = [] then first else first ++ '.' :: rest) ++
      'e' :: (if e < 0 then '-' else '+') :: Nat.toDigits 10 size.toNat

/-- The text of a double in the format `scriptNumber`. -/
def numberText (x : Float) : Except Fault String :=
  let p := FloatParts.ofFloat x
  if x.isNaN ∨ x.isInf ∨ p.mantissa = 0 then return scriptNumber.text x
  else do
    let d := scriptNumber.digits p
    let body ← layout d.1 (d.2 - 1)
    return String.ofList ((if p.negative then ['-'] else []) ++ body)

/-- Applies an operator to one operand. -/
def unary (op : Operator) (v : Value) : Except Fault Evaluated :=
  match op with
  | .unary .stringify =>
    match v with
    | .float x => do return .ok (.str (← numberText x))
    | v => return .ok (.str v.toText)
  | .unary op => return op.apply v
  | op => return .error (.invalidOperand op.symbol v.kind)

/-- Applies an operator to two operands. -/
def binary (op : Operator) (a b : Value) : Except Fault Evaluated :=
  match op with
  | .binary .mul =>
    let symbol := BinaryOp.mul.symbol
    let copiesOf (s : String) (k : Nat) : Value := .str (String.join (List.replicate k s))
    let listOf (xs : List Value) (k : Nat) : Value := .list (List.replicate k xs).flatten
    match a, b with
    | .str s, .int n => repeated symbol s.utf8ByteSize n (copiesOf s)
    | .int n, .str s => repeated symbol s.utf8ByteSize n (copiesOf s)
    | .list xs, .int n => repeated symbol xs.length n (listOf xs)
    | .int n, .list xs => repeated symbol xs.length n (listOf xs)
    | a, b => return BinaryOp.mul.apply a b
  | .binary .floorDiv =>
    match a, b with
    | .int m, .int n => floorQuotient BinaryOp.floorDiv.symbol m n
    | a, b => return BinaryOp.floorDiv.apply a b
  | .binary .index => indexed BinaryOp.index.symbol a b
  | .binary op => return op.apply a b
  | op => return .error (.invalidOperand op.symbol a.kind)

/-- Calls a function. -/
def call (f : Function) (args : List Value) : Except Fault Evaluated :=
  match f with
  | .unary f => do
    let v ← elementAt args 0
    return f.apply v
  | .binary f => do
    let a ← elementAt args 0
    let b ← elementAt args 1
    return f.apply a b

/-- Applies a strict operator to its operands, one or two as they happen to be. -/
def operation (op : Operator) (vs : List Value) : Except Fault Evaluated :=
  if vs.length = 1 then do
    let v ← elementAt vs 0
    unary op v
  else do
    let right ← elementAt vs 1
    let left ← elementAt vs 0
    binary op left right

end Checked

/-! ### Terms -/

/-- An expression without types, whose operations may have any number of operands. -/
inductive Term where
  | literal (value : Value)
  | field (key : FieldKey)
  | operation (op : Operator) (operands : List Term)
  | call (f : Function) (args : List Term)
  | external (name : String) (args : List Term)

namespace Term

section Run

variable {m : Type → Type} [Monad m] [MonadExceptOf EvalError m]

/-- The outcome of an operation: a value, an error of the evaluation, or a fault. -/
def settle (outcome : Except Fault Evaluated) : ExceptT Fault m Value :=
  match outcome with
  | .error fault => ExceptT.mk (pure (.error fault))
  | .ok result => ExceptT.lift (MonadExcept.ofExcept result)

mutual

/-- The value of a term whose fields are read by `read`. -/
def run (read : FieldKey → m Value) : Term → ExceptT Fault m Value
  | literal v => pure v
  | field k => ExceptT.lift (read k)
  | operation op operands =>
    match op with
    | .cond => do
      let v ← runAt read operands 0
      if v.isTruthy then runAt read operands 1 else runAt read operands 2
    | .logical op => do
      let v ← runAt read operands 0
      if op.decides v then pure v else runAt read operands 1
    | op => do
      let vs ← runAll read operands
      settle (Checked.operation op vs)
  | call f args => do
    let vs ← runAll read args
    settle (Checked.call f vs)
  | external name _ => ExceptT.lift (throw (.renderOnlyFunction name))

/-- The values of all operands. -/
def runAll (read : FieldKey → m Value) : List Term → ExceptT Fault m (List Value)
  | [] => pure []
  | t :: ts => do
    let v ← run read t
    let vs ← runAll read ts
    pure (v :: vs)

/-- The value of the operand at an index. -/
def runAt (read : FieldKey → m Value) : List Term → Nat → ExceptT Fault m Value
  | [], i => ExceptT.mk (pure (.error (.outOfRange i 0)))
  | t :: _, 0 => run read t
  | _ :: ts, i + 1 => runAt read ts i

end

end Run

mutual

/-- Every relative reference put under a base path. -/
def rebased (base : String) : Term → Term
  | literal v => literal v
  | field k => field (k.rebased base)
  | operation op operands => operation op (rebasedAll base operands)
  | call f args => call f (rebasedAll base args)
  | external name args => external name (rebasedAll base args)

/-- Every operand rebased. -/
def rebasedAll (base : String) : List Term → List Term
  | [] => []
  | t :: ts => rebased base t :: rebasedAll base ts

end

end Term

/-- The expressions that the constructors make, each with the term that has the operands it was made
from. -/
inductive Expr.Composed : Expr → Term → Prop where
  | literal (v : Value) : Composed (.literal v) (.literal v)
  | field (k : FieldKey) (t : ValueType) : Composed (.field k t) (.field k)
  | operation {op : Operator} {operands : List (Expr × Term)} {e : Expr}
    (hoperands : ∀ o ∈ operands, Composed o.1 o.2)
    (h : Expr.operation op (operands.map Prod.fst) = .ok e) :
    Composed e (.operation op (operands.map Prod.snd))
  | call {name : String} {f : Function} {args : List (Expr × Term)} {e : Expr}
    (hname : Function.ofName? name = some f) (hargs : ∀ a ∈ args, Composed a.1 a.2)
    (h : Expr.call name (args.map Prod.fst) = .ok e) :
    Composed e (.call f (args.map Prod.snd))
  | external (name : String) {args : List (Expr × Term)} (returns : ValueType)
    (hargs : ∀ a ∈ args, Composed a.1 a.2) :
    Composed (.external name (args.map Prod.fst) returns) (.external name (args.map Prod.snd))
  | rebased (base : String) {e : Expr} {t : Term} (h : Composed e t) :
    Composed (e.rebased base) (t.rebased base)

end ReactiveState
