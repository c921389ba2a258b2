import ReactiveState.FieldKey

/-! # Dependency graphs

A `Graph` has a node for every field of a tree.  Each node knows the fields it reads (its
dependencies) and the fields that read it (its dependents); an edge added between two nodes that are
there is noted at both ends.

* `order` lists the computed nodes so that each comes after those it reads, or gives a cycle,
* `affected` lists what is reachable from changed fields, in the same kind of order.

Both sort by repeatedly taking a node that waits for nothing; nodes that become free at the same
time are taken in key order. -/

namespace ReactiveState

/-- A field of the tree, stored or computed. -/
structure Node where
  key : FieldKey
  computed : Bool
  /-- The fields this one reads. -/
  dependencies : List FieldKey
  /-- The fields that read this one. -/
  dependents : List FieldKey
deriving DecidableEq, Repr

/-- A node without edges. -/
def Node.isolated (key : FieldKey) (computed : Bool) : Node := ⟨key, computed, [], []⟩

/-- The fields of a tree and who reads whom. -/
structure Graph where
  nodes : List (FieldKey × Node)
deriving DecidableEq, Repr

namespace Graph

/-- No node. -/
def empty : Graph := ⟨[]⟩

/-- The node of a field. -/
def node? (g : Graph) (k : FieldKey) : Option Node :=
  KeyMap.find? k g.nodes

/-- Whether the field has a node. -/
def contains (g : Graph) (k : FieldKey) : Bool :=
  (g.node? k).isSome

/-- The fields that read a field. -/
def dependents (g : Graph) (k : FieldKey) : List FieldKey :=
  ((g.node? k).map Node.dependents).getD []

/-- The fields that a field reads. -/
def dependencies (g : Graph) (k : FieldKey) : List FieldKey :=
  ((g.node? k).map Node.dependencies).getD []

/-- Adds a node; one that is there already is kept. -/
def addNode (g : Graph) (n : Node) : Graph :=
  if g.contains n.key then g else ⟨KeyMap.insert n.key n g.nodes⟩

/-- Notes that `dependent` reads `dependency`, at each of the two that has a node. -/
def addEdge (g : Graph) (dependency dependent : FieldKey) : Graph :=
  let nodes := KeyMap.modify dependency
    (fun n => { n with dependents := KeySet.insert dependent n.dependents }) g.nodes
  ⟨KeyMap.modify dependent
    (fun n => { n with dependencies := KeySet.insert dependency n.dependencies }) nodes⟩

/-- How many fields there are. -/
def nodeCount (g : Graph) : Nat := g.nodes.length

/-- The computed fields, in key order. -/
def computedKeys (g : Graph) : List FieldKey :=
  (g.nodes.filter (·.2.computed)).map (·.1)

/-- How many computed fields there are. -/
def computedCount (g : Graph) : Nat := g.computedKeys.length

/-! ### Sorting -/

/-- How many of the keys a field reads. -/
def degree (g : Graph) (keys : List FieldKey) (k : FieldKey) : Nat :=
  ((g.dependencies k).filter (· ∈ keys)).length

/-- One step of sorting: the dependents wait for one field less.  Gives the new degrees and the
dependents that now wait for nothing. -/
def release : List FieldKey → List (FieldKey × Nat) → List (FieldKey × Nat) × List FieldKey
  | [], degrees => (degrees, [])
  | k :: ks, degrees =>
    match KeyMap.find? k degrees with
    | none => release ks degrees
    | some n =>
      let (degrees, free) := release ks (KeyMap.modify k (fun n => n - 1) degrees)
      (degrees, if n ≤ 1 then k :: free else free)

/-- Takes the fields of the queue one by one and releases their dependents. -/
def drain (g : Graph) : Nat → List FieldKey → List (FieldKey × Nat) → List FieldKey
  | 0, _, _ => []
  | _ + 1, [], _ => []
  | fuel + 1, k :: queue, degrees =>
    -- What becomes free waits behind what was free before
    let (degrees, free) := release (g.dependents k) degrees
    k :: drain g fuel (queue ++ free) degrees

/-- The keys in an order in which each comes after those it reads, as far as there is one.  A key is
taken once for each path of dependents that leads to it with nothing left to wait for; paths without
a repetition are subsets of the keys, which bounds the fuel.

Along a path with a repetition the queue never gets empty: a loop over it does not end, and this
list is only as much of it as there is fuel (`length_drain_halfCircle`).  There is no such path
unless an edge is noted at one of its ends only. -/
def sort (g : Graph) (keys : List FieldKey) : List FieldKey :=
  let degrees := keys.map fun k => (k, g.degree keys k)
  g.drain (1 <<< keys.length) ((degrees.filter (·.2 = 0)).map (·.1)) degrees

/-! ### Cycles -/

/-- Follows the first dependency inside `keys` until a field repeats; gives the path from its first
visit to its second. -/
def follow (g : Graph) (keys : List FieldKey) : Nat → List FieldKey → FieldKey → List FieldKey
  | 0, path, _ => path
  | fuel + 1, path, k =>
    if k ∈ path then path.dropWhile (· ≠ k) ++ [k]
    else
      match (g.dependencies k).find? (· ∈ keys) with
      | some next => follow g keys fuel (path ++ [k]) next
      | none => path ++ [k]

/-- A cycle inside keys that each read another one of them. -/
def cycleIn (g : Graph) (keys : List FieldKey) : List FieldKey :=
  match keys with
  | [] => []
  | k :: _ => g.follow keys (keys.length + 1) [] k

/-- The computed fields, each after those it reads; or a cycle among them, as a path that ends where
it starts. -/
def order (g : Graph) : Except (List FieldKey) (List FieldKey) :=
  let keys := g.computedKeys
  let sorted := g.sort keys
  match keys.filter (· ∉ sorted) with
  | [] => .ok sorted
  -- What never becomes free reads something that never does
  | left => .error (g.cycleIn left)

/-! ### Propagation -/

/-- What the queue leads to along dependents, `found` included. -/
def reach (g : Graph) : Nat → List FieldKey → List FieldKey → List FieldKey
  | 0, _, found => found
  | _ + 1, [], found => found
  | fuel + 1, k :: queue, found =>
    if k ∈ found then reach g fuel queue found
    else
      match g.node? k with
      | none => reach g fuel queue found
      | some n => reach g fuel (queue ++ n.dependents) (k :: found)

/-- How many edges the graph has, counted at the fields that are read. -/
def edgeCount (g : Graph) : Nat :=
  (g.nodes.flatMap fun n => n.2.dependents).length

/-- The fields that changes of these fields may affect, each after those it reads.  Every field is
expanded at most once, so the queue sees no more fields than it starts with and edges there are. -/
def affected (g : Graph) (changed : List FieldKey) : List FieldKey :=
  let queue := changed.flatMap g.dependents
  g.sort (KeySet.ofList (g.reach (queue.length + g.edgeCount) queue []))

end Graph

end ReactiveState
