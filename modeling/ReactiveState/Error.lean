import ReactiveState.Delta
import ReactiveState.Expr.Arithmetic
import ReactiveState.ValueType

/-! # Errors of states, handlers and events

The causes of failure outside expressions, each with its text in `message`.  An error that wraps
another one shows the text of the inner one. -/

namespace ReactiveState

/-- Why a schema or an access to a tree is refused. -/
inductive StateError where
  /-- A name is declared twice in one container. -/
  | schemaConflict (container name : String)
  /-- A computed field reads a field that is nowhere in the tree. -/
  | unknownFieldReference (computed reference : FieldKey)
  /-- A computed field reads a field as another type than it is declared with. -/
  | referenceTypeMismatch (computed reference : FieldKey) (referenced declared : ValueType)
  /-- Computed fields read each other in a circle. -/
  | cyclicComputedDependency (cycle : List FieldKey)
  /-- A name is not an identifier. -/
  | invalidName (name : String)
  | unknownContainer (path : String)
  | unknownField (key : FieldKey)
  | computedFieldWrite (key : FieldKey)
  /-- A value does not have the type of the field. -/
  | fieldTypeMismatch (container field : String) (expected : ValueType) (found : String)
  /-- A computed field has no value. -/
  | eval (key : FieldKey) (source : EvalError)
  /-- A second schema for the whole process. -/
  | alreadyInstalled
deriving DecidableEq

namespace StateError

/-- The text of the error. -/
def message : StateError → String
  | schemaConflict container name =>
    "container `" ++ container ++ "` already declares `" ++ name ++ "`"
  | unknownFieldReference computed reference =>
    "computed field `" ++ computed.text ++ "` references unknown field `" ++ reference.text ++ "`"
  | referenceTypeMismatch computed reference referenced declared =>
    "computed field `" ++ computed.text ++ "` reads `" ++ reference.text ++ "` as `"
      ++ referenced.text ++ "`, but it is declared as `" ++ declared.text ++ "`"
  | cyclicComputedDependency cycle =>
    "cyclic computed dependency: " ++ " -> ".intercalate (cycle.map FieldKey.text)
  | invalidName name => "`" ++ name ++ "` is not a valid identifier"
  | unknownContainer path => "unknown state container `" ++ path ++ "`"
  | unknownField key => "unknown field `" ++ key.text ++ "`"
  | computedFieldWrite key => "computed field `" ++ key.text ++ "` cannot be assigned"
  | fieldTypeMismatch container field expected found =>
    "field `" ++ container ++ "." ++ field ++ "` expects `" ++ expected.text ++ "`, got a " ++ found
      ++ " value"
  | eval key source =>
    "failed to evaluate computed field `" ++ key.text ++ "`: " ++ source.message
  | alreadyInstalled => "a schema registry is already installed"

end StateError

/-- A flush in which a computed field had no value.  The delta holds all that could be delivered. -/
structure FlushError where
  delta : Delta
  error : StateError

/-- Why a handler fails. -/
inductive HandlerError where
  | state (error : StateError)
  | failed (message : String)
deriving DecidableEq

namespace HandlerError

/-- The text of the error. -/
def message : HandlerError → String
  | state error => error.message
  | failed message => message

end HandlerError

/-- Why an event is not dispatched. -/
inductive DispatchError where
  | handlerNotFound (path : String)
  | sessionNotFound (id : String)
  /-- One inbound event led to more events than the limit. -/
  | eventChainLimit (limit : Nat)
deriving DecidableEq

namespace DispatchError

/-- The text of the error. -/
def message : DispatchError → String
  | handlerNotFound path => "no handler registered at `" ++ path ++ "`"
  | sessionNotFound id => "no connected session `" ++ id ++ "`"
  | eventChainLimit limit => "event chain exceeded " ++ toString limit ++ " events"

end DispatchError

end ReactiveState
