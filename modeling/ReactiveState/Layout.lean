import ReactiveState.Graph
import ReactiveState.Schema

/-! # Layouts

`Layout.compile` turns the schema of the root container into the fixed description of a whole tree:
every container with its dotted path, every computed expression with absolute references, the graph
of who reads whom, and an order in which each computed field comes after those it reads.

It refuses a reference to a field that is nowhere in the tree, a reference that reads a field as a
type incompatible with its declaration, and computed fields that read each other in a circle. -/

namespace ReactiveState

/-- One container of the tree. -/
structure ContainerInfo where
  path : String
  /-- The path of the parent; absent for the root. -/
  parent : Option String
  schema : Schema

namespace ContainerInfo

/-- The keys of the stored fields. -/
def storedKeys (c : ContainerInfo) : List FieldKey :=
  c.schema.fields.map fun decl => ⟨c.path, decl.name⟩

/-- The keys of the computed fields. -/
def computedKeys (c : ContainerInfo) : List FieldKey :=
  c.schema.computed.map fun e => ⟨c.path, e.1⟩

/-- The keys of the fields that the client may see: the stored fields that are not kept on the
server, then the computed fields. -/
def clientKeys (c : ContainerInfo) : List FieldKey :=
  ((c.schema.fields.filter fun decl => !decl.backend).map fun decl => ⟨c.path, decl.name⟩)
    ++ c.computedKeys

end ContainerInfo

/-- The fixed description of a tree. -/
structure Layout where
  /-- The path of the root. -/
  root : String
  /-- The containers, parents before children. -/
  containers : List ContainerInfo
  /-- The computed expressions with absolute references, by key. -/
  computed : List (FieldKey × Expr)
  graph : Graph
  /-- The computed fields, each after those it reads. -/
  order : List FieldKey

mutual

/-- The containers of a schema at a path, parents before children. -/
def Schema.containersAt (path : String) (parent : Option String) : Schema → List ContainerInfo
  | .mk name fields computed handlers children inherited =>
    ⟨path, parent, .mk name fields computed handlers children inherited⟩
      :: Schema.childContainersAt path children

/-- The containers of the children of the container at a path. -/
def Schema.childContainersAt (path : String) : List (String × Schema) → List ContainerInfo
  | [] => []
  | (name, child) :: children =>
    Schema.containersAt (path ++ "." ++ name) (some path) child
      ++ Schema.childContainersAt path children

end

/-- The text before the last dot and the text after it. -/
def splitLastDot? (s : String) : Option (String × String) :=
  let back := s.toList.reverse
  match back.dropWhile (· ≠ '.') with
  | [] => none
  | _ :: front =>
    some (String.ofList front.reverse, String.ofList (back.takeWhile (· ≠ '.')).reverse)

namespace Layout

/-! ### Compiling -/

/-- The container of a path. -/
def findContainer? (containers : List ContainerInfo) (path : String) : Option ContainerInfo :=
  containers.find? (·.path = path)

/-- The declaration of a stored field. -/
def findField? (containers : List ContainerInfo) (k : FieldKey) : Option FieldDecl :=
  (findContainer? containers k.path).bind fun c => c.schema.field? k.field

/-- The computed expressions of the containers, with absolute references. -/
def rebasedComputed (containers : List ContainerInfo) : List (FieldKey × Expr) :=
  KeyMap.ofList (containers.flatMap fun c =>
    c.schema.computed.map fun e => (⟨c.path, e.1⟩, e.2.rebased c.path))

/-- The graph that has a node for every field of the containers and no edge. -/
def nodesOf (containers : List ContainerInfo) : Graph :=
  containers.foldl (fun g c =>
    let g := c.storedKeys.foldl (fun g k => g.addNode (.isolated k false)) g
    c.computedKeys.foldl (fun g k => g.addNode (.isolated k true)) g) .empty

/-- Adds the edges of what one computed field reads, all of which has to be there. -/
def addReads (k : FieldKey) : Graph → List FieldKey → Except StateError Graph
  | g, [] => return g
  | g, dependency :: rest =>
    if g.contains dependency then addReads k (g.addEdge dependency k) rest
    else throw (.unknownFieldReference k dependency)

/-- The type a field is declared with. -/
def declaredType? (containers : List ContainerInfo) (computed : List (FieldKey × Expr))
    (k : FieldKey) : Option ValueType :=
  match KeyMap.find? k computed with
  | some e => some e.type
  | none => (findField? containers k).map (·.type)

/-- Checks that every reference reads a field as its declared type, or as one of the two is more
specific than the other. -/
def checkReferences (containers : List ContainerInfo) (computed : List (FieldKey × Expr))
    (k : FieldKey) : List (FieldKey × ValueType) → Except StateError Unit
  | [] => return ()
  | (reference, referenced) :: rest =>
    match declaredType? containers computed reference with
    -- A missing field is refused where its edge is added
    | none => checkReferences containers computed k rest
    | some declared =>
      if declared.refines referenced || referenced.refines declared then
        checkReferences containers computed k rest
      else throw (.referenceTypeMismatch k reference referenced declared)

/-- Links and checks the computed fields one by one. -/
def link (containers : List ContainerInfo) (computed : List (FieldKey × Expr)) :
    Graph → List (FieldKey × Expr) → Except StateError Graph
  | g, [] => return g
  | g, (k, e) :: rest => do
    let g ← addReads k g e.dependencies
    checkReferences containers computed k e.references
    link containers computed g rest

/-- Compiles the schema of the root container, whose path is its name. -/
def compile (root : Schema) : Except StateError Layout := do
  let containers := root.containersAt root.name none
  let computed := rebasedComputed containers
  let graph ← link containers computed (nodesOf containers) computed
  match graph.order with
  | .ok order => return ⟨root.name, containers, computed, graph, order⟩
  | .error cycle => throw (.cyclicComputedDependency cycle)

/-! ### Looking up -/

/-- The container of a path. -/
def container? (l : Layout) (path : String) : Option ContainerInfo :=
  findContainer? l.containers path

/-- The declaration of a stored field. -/
def field? (l : Layout) (k : FieldKey) : Option FieldDecl :=
  findField? l.containers k

/-- The expression of a computed field. -/
def computed? (l : Layout) (k : FieldKey) : Option Expr :=
  KeyMap.find? k l.computed

/-- Whether the field is computed. -/
def isComputed (l : Layout) (k : FieldKey) : Bool :=
  (l.computed? k).isSome

/-- How many computed fields there are. -/
def computedCount (l : Layout) : Nat := l.order.length

/-- Whether the field stays on the server. -/
def isBackend (l : Layout) (k : FieldKey) : Bool :=
  match l.field? k with
  | some decl => decl.backend
  | none => false

/-- Everything the client may see, parents before children. -/
def clientKeys (l : Layout) : List FieldKey :=
  l.containers.flatMap ContainerInfo.clientKeys

/-- The handler at a full path, and the path of its container. -/
def resolveHandler? (l : Layout) (path : String) : Option (String × Handler) := do
  let (container, name) ← splitLastDot? path
  let info ← l.container? container
  let handler ← info.schema.handler? name
  return (container, handler)

/-- The client storage bindings of every container. -/
def clientStorage (l : Layout) : StorageManifest :=
  l.containers.foldl (fun m c =>
    c.schema.fields.foldl (fun m decl =>
      match decl.storage with
      | some storage => m.insert (c.path ++ "." ++ decl.name) storage
      | none => m) m) {}

end Layout

end ReactiveState
