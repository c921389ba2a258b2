import ReactiveState.Document.Json
import ReactiveState.Document.MessagePack
import ReactiveState.Number.Format
import ReactiveState.Number.Reading
import ReactiveState.ValueType
import ReactiveState.Value.Written
import ReactiveState.Text.Case
import ReactiveState.Text.Blank
import ReactiveState.Text.Search
import ReactiveState.Expr.Typing
import ReactiveState.Expr.Eval
import ReactiveState.Expr.Render
import ReactiveState.Wire.Types
import ReactiveState.Graph
import ReactiveState.Slot
import ReactiveState.Schema
import ReactiveState.Tree
import ReactiveState.Tree.Containers
import ReactiveState.EventLoop
import ReactiveState.Script
import ReactiveState.Wire.Payload
import ReactiveState.App
import ReactiveState.Document.Toml
import ReactiveState.Config.Text
import ReactiveState.Proofs.Flush.History
import ReactiveState.Proofs.Flush.Repeated
import ReactiveState.Proofs.Flush.Twins
import ReactiveState.Proofs.Flush.Secrets
import ReactiveState.Proofs.Flush.FailedSnapshot
import ReactiveState.Proofs.Flush.FirstFailure
import ReactiveState.Proofs.Session.Replica
import ReactiveState.Proofs.Typing.Soundness
import ReactiveState.Proofs.Typing.Partial
import ReactiveState.Proofs.Typing.Precision
import ReactiveState.Proofs.Tree.Typed
import ReactiveState.Proofs.Tree.Nesting
import ReactiveState.Proofs.Tree.Writes
import ReactiveState.Proofs.Session.Isolation
import ReactiveState.Proofs.Session.Abandoned
import ReactiveState.Proofs.Expr.FaultFree
import ReactiveState.Proofs.Expr.Rebased
import ReactiveState.Proofs.Expr.Integers
import ReactiveState.Proofs.Typing.Coercion
import ReactiveState.Proofs.Value.Written
import ReactiveState.Proofs.Wire.Payload
import ReactiveState.Proofs.Text.Units
import ReactiveState.Proofs.Schema.Extending
import ReactiveState.Proofs.Render.Decrements
import ReactiveState.Proofs.Expr.Equality
import ReactiveState.Proofs.Number.Layout
import ReactiveState.Proofs.Graph.Calls
