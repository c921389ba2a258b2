import ReactiveState.Tree

/-! # Containers

A `Container` is one node of the state of a session.  It has the values of its stored fields, the
slots of its computed fields, its children by name, and the names of the stored fields assigned
since the last flush; its parent it knows by path only.

A `Tree` keeps the fields of all containers together, by key.  `Tree.root?` gives them container by
container, from the root down, and `Tree.container` finds the container of a path by walking down
from there, name by name. -/

namespace ReactiveState

/-- One node of the state of a session. -/
inductive Container where
  | mk (path : String) (parent : Option String) (values : List (String × Value))
    (slots : List (String × Slot)) (dirty : List String) (children : List (String × Container))

namespace Container

def path : Container → String
  | mk path _ _ _ _ _ => path

/-- The path of the parent; absent for the root. -/
def parent : Container → Option String
  | mk _ parent _ _ _ _ => parent

/-- The values of the stored fields, in the order of their declaration. -/
def values : Container → List (String × Value)
  | mk _ _ values _ _ _ => values

/-- The slots of the computed fields, in the order of their declaration. -/
def slots : Container → List (String × Slot)
  | mk _ _ _ slots _ _ => slots

/-- The stored fields assigned since the last flush, in the order of their first assignment. -/
def dirty : Container → List String
  | mk _ _ _ _ dirty _ => dirty

def children : Container → List (String × Container)
  | mk _ _ _ _ _ children => children

/-- The last segment of the path. -/
def name (c : Container) : String :=
  ((splitLastDot? c.path).map (·.2)).getD c.path

/-- The value of a stored field. -/
def value? (c : Container) (name : String) : Option Value :=
  KeyMap.find? name c.values

/-- The slot of a computed field. -/
def slot? (c : Container) (name : String) : Option Slot :=
  KeyMap.find? name c.slots

/-- The child of a name. -/
def child? (c : Container) (name : String) : Option Container :=
  KeyMap.find? name c.children

/-- Whether a stored field was assigned since the last flush. -/
def isDirty (c : Container) : Bool := !c.dirty.isEmpty

/-! ### Fresh containers -/

mutual

/-- The container of a schema at a path, and all below it, with every stored field at its
default. -/
def instantiate (path : String) (parent : Option String) : Schema → Container
  | .mk _ fields computed _ children _ =>
    .mk path parent (fields.map fun decl => (decl.name, decl.default))
      (computed.map fun e => (e.1, .fresh)) [] (instantiateChildren path children)

def instantiateChildren (path : String) : List (String × Schema) → List (String × Container)
  | [] => []
  | (name, child) :: children =>
    (name, instantiate (path ++ "." ++ name) (some path) child)
      :: instantiateChildren path children

end

/-! ### Walking down -/

/-- The container reached by going from child to child along names. -/
def below? : Container → List String → Option Container
  | c, [] => some c
  | c, name :: names => (c.child? name).bind (below? · names)

/-- The segments of a path that lead on from the path of the root; absent if the path does not start
with that of the root and a dot. -/
def segmentsBelow? (root path : String) : Option (List String) :=
  match root.toList.isPrefixOf? path.toList with
  | some ('.' :: rest) => some ((rest.splitOn '.').map String.ofList)
  | _ => none

/-- The container of a path, from the root. -/
def find? (root : Container) (path : String) : Option Container :=
  if path = root.path then some root
  else (segmentsBelow? root.path path).bind root.below?

/-! ### Changes -/

/-- Puts a value into a stored field and marks the field.  A field that is not there stays so. -/
def assign (c : Container) (name : String) (v : Value) : Container :=
  match c with
  | mk path parent values slots dirty children =>
    if (KeyMap.find? name values).isSome then
      mk path parent (KeyMap.modify name (fun _ => v) values) slots
        (if name ∈ dirty then dirty else dirty ++ [name]) children
    else c

/-- Changes the slot of a computed field. -/
def modifySlot (c : Container) (name : String) (f : Slot → Slot) : Container :=
  match c with
  | mk path parent values slots dirty children =>
    mk path parent values (KeyMap.modify name f slots) dirty children

mutual

/-- Takes all marks off a container and those below it. -/
def clearMarks : Container → Container
  | mk path parent values slots _ children =>
    mk path parent values slots [] (clearChildren children)

def clearChildren : List (String × Container) → List (String × Container)
  | [] => []
  | (name, c) :: children => (name, clearMarks c) :: clearChildren children

end

/-- Changes the container that is reached along names, if there is one. -/
def modifyBelow (f : Container → Container) : List String → Container → Container
  | [], c => f c
  | name :: names, mk path parent values slots dirty children =>
    mk path parent values slots dirty (KeyMap.modify name (modifyBelow f names) children)

/-- Changes the container of a path, from the root. -/
def modifyAt (root : Container) (path : String) (f : Container → Container) : Container :=
  if path = root.path then f root
  else
    match segmentsBelow? root.path path with
    | some names => modifyBelow f names root
    | none => root

/-! ### All containers -/

mutual

/-- A container and all below it, parents before children. -/
def nodes : Container → List Container
  | mk path parent values slots dirty children =>
    mk path parent values slots dirty children :: nodesBelow children

def nodesBelow : List (String × Container) → List Container
  | [] => []
  | (_, c) :: children => nodes c ++ nodesBelow children

end

end Container

namespace Tree

/-! ### The containers of a tree -/

/-- The entries of one container, by name. -/
def entriesAt {α : Type} (path : String) (m : List (FieldKey × α)) : List (String × α) :=
  (m.filter fun p => p.1.path = path).map fun p => (p.1.field, p.2)

mutual

/-- The container of a schema at a path, and all below it, as they are in the tree. -/
def containerAt (t : Tree) (path : String) (parent : Option String) : Schema → Container
  | .mk _ _ _ _ children _ =>
    .mk path parent (entriesAt path t.values) (entriesAt path t.slots) (t.dirtyFields path)
      (childrenAt t path children)

def childrenAt (t : Tree) (path : String) : List (String × Schema) → List (String × Container)
  | [] => []
  | (name, child) :: children =>
    (name, containerAt t (path ++ "." ++ name) (some path) child) :: childrenAt t path children

end

/-- The container that is described, and all below it, as they are in the tree. -/
def containerOf (t : Tree) (c : ContainerInfo) : Container :=
  t.containerAt c.path c.parent c.schema

/-- The root container. -/
def root? (l : Layout) (t : Tree) : Option Container :=
  (l.container? l.root).map t.containerOf

/-- The container of a path. -/
def container (l : Layout) (t : Tree) (path : String) : Except StateError Container :=
  match (t.root? l).bind (·.find? path) with
  | some c => .ok c
  | none => .error (.unknownContainer path)

end Tree

end ReactiveState
