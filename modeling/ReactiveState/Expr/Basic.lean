import ReactiveState.Expr.Operator
import ReactiveState.FieldKey

/-! # Expressions

An `Expr` is an immutable expression over fields: a literal, a reference to a field, or an
operation.  Every node carries its type, which is fixed when the node is built
(`ReactiveState.Expr.Typing`).

* `references` lists the references from left to right, each with the type it is read as,
* `dependencies` is the set of fields they name,
* `rebased` puts relative references under a container. -/

namespace ReactiveState

/-- A typed expression. -/
inductive Expr where
  | literal (value : Value)
  | field (key : FieldKey) (type : ValueType)
  | unary (op : UnaryOp) (operand : Expr) (type : ValueType)
  | binary (op : BinaryOp) (left right : Expr) (type : ValueType)
  | logical (op : LogicalOp) (left right : Expr) (type : ValueType)
  | cond (condition yes no : Expr) (type : ValueType)
  /-- A function that only the client has. -/
  | external (name : String) (args : List Expr) (returns : ValueType)
deriving Inhabited

namespace Expr

/-- The type of the expression. -/
def type : Expr → ValueType
  | literal v => ValueType.ofValue v
  | field _ t => t
  | unary _ _ t => t
  | binary _ _ _ t => t
  | logical _ _ _ t => t
  | cond _ _ _ t => t
  | external _ _ t => t

/-- The text, of a literal string. -/
def literalText? : Expr → Option String
  | literal (.str s) => some s
  | _ => none

/-- The name of the function that the expression calls, if a call is its outermost operation. -/
def callee? : Expr → Option String
  | unary (.call f) _ _ => some f.name
  | binary (.call f) _ _ _ => some f.name
  | external name _ _ => some name
  | _ => none

mutual

/-- Every reference, from left to right, with the type it is read as. -/
def references : Expr → List (FieldKey × ValueType)
  | literal _ => []
  | field k t => [(k, t)]
  | unary _ e _ => references e
  | binary _ l r _ => references l ++ references r
  | logical _ l r _ => references l ++ references r
  | cond c y n _ => references c ++ (references y ++ references n)
  | external _ args _ => argReferences args

/-- The references of the arguments. -/
def argReferences : List Expr → List (FieldKey × ValueType)
  | [] => []
  | e :: es => references e ++ argReferences es

end

mutual

/-- The fields that the expression reads, as a set. -/
def dependencies : Expr → List FieldKey
  | literal _ => []
  | field k _ => [k]
  | unary _ e _ => dependencies e
  | binary _ l r _ => KeySet.union (dependencies l) (dependencies r)
  | logical _ l r _ => KeySet.union (dependencies l) (dependencies r)
  | cond c y n _ => KeySet.union (KeySet.union (dependencies c) (dependencies y)) (dependencies n)
  | external _ args _ => argDependencies args

/-- The fields that the arguments read, as a set. -/
def argDependencies : List Expr → List FieldKey
  | [] => []
  | e :: es => KeySet.union (dependencies e) (argDependencies es)

end

/-- Whether the expression reads no field. -/
def isConstant (e : Expr) : Bool :=
  e.dependencies.isEmpty

mutual

/-- Every relative reference put under a base path. -/
def rebased (base : String) : Expr → Expr
  | literal v => literal v
  | field k t => field (k.rebased base) t
  | unary op e t => unary op (rebased base e) t
  | binary op l r t => binary op (rebased base l) (rebased base r) t
  | logical op l r t => logical op (rebased base l) (rebased base r) t
  | cond c y n t => cond (rebased base c) (rebased base y) (rebased base n) t
  | external name args t => external name (rebasedArgs base args) t

/-- Every argument rebased. -/
def rebasedArgs (base : String) : List Expr → List Expr
  | [] => []
  | e :: es => rebased base e :: rebasedArgs base es

end

mutual

/-- Equality; literals compare as values, so an expression with a NaN differs from itself. -/
def beq : Expr → Expr → Bool
  | literal v, literal w => v == w
  | field k t, field k' t' => k = k' ∧ t = t'
  | unary op e t, unary op' e' t' => op = op' ∧ beq e e' ∧ t = t'
  | binary op l r t, binary op' l' r' t' => op = op' ∧ beq l l' ∧ beq r r' ∧ t = t'
  | logical op l r t, logical op' l' r' t' => op = op' ∧ beq l l' ∧ beq r r' ∧ t = t'
  | cond c y n t, cond c' y' n' t' => beq c c' ∧ beq y y' ∧ beq n n' ∧ t = t'
  | external name args t, external name' args' t' => name = name' ∧ beqArgs args args' ∧ t = t'
  | _, _ => false

/-- Equality argument by argument. -/
def beqArgs : List Expr → List Expr → Bool
  | [], [] => true
  | e :: es, e' :: es' => beq e e' && beqArgs es es'
  | _, _ => false

end

instance : BEq Expr := ⟨beq⟩

@[simp] theorem type_rebased (base : String) (e : Expr) : (e.rebased base).type = e.type := by
  cases e <;> simp [rebased, type]

end Expr

end ReactiveState
