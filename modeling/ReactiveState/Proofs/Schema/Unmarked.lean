import ReactiveState.Container
import ReactiveState.EventLoop
import ReactiveState.Proofs.Schema.Built

/-!
# Marks on copied names

A schema remembers which of its names it copied from a base.  Nothing that is made from a schema
looks at these marks: `Schema.unmarked` takes them off at every depth, and

* declaring goes on as before (`declare_unmarked` and its like),
* compiling fails with the same error or gives a layout that differs in marks only
  (`compile_unmarked`),
* every operation on a tree, every program and every chain of events does the same with the layout
  without marks (`get_unmarked`, `flush_unmarked`, `run_unmarked` and their like).

So two schemas that are equal without marks `CompileAlike`: they are refused alike, or their layouts
`RunAlike`.
-/

namespace ReactiveState

namespace Schema

mutual

/-- The schema with no name marked as copied, at any depth. -/
def unmarked : Schema → Schema
  | mk name fields computed handlers children _ =>
    mk name fields computed handlers (unmarkedChildren children) []

/-- The children, each without marks. -/
def unmarkedChildren : List (String × Schema) → List (String × Schema)
  | [] => []
  | (name, child) :: children => (name, child.unmarked) :: unmarkedChildren children

end

variable (s : Schema)

/-- Taking the marks away leaves the name alone. -/
@[simp] theorem name_unmarked : s.unmarked.name = s.name := by
  cases s
  rfl

/-- Taking marks off keeps the fields; so it does with all other parts of a schema. -/
@[simp] theorem fields_unmarked : s.unmarked.fields = s.fields := by
  cases s
  rfl

@[simp] theorem computed_unmarked : s.unmarked.computed = s.computed := by
  cases s
  rfl

@[simp] theorem handlers_unmarked : s.unmarked.handlers = s.handlers := by
  cases s
  rfl

/-- The recursion over the children as a `map`, which is how the rest of the library takes them. -/
theorem unmarkedChildren_eq_map (children : List (String × Schema)) :
    unmarkedChildren children = children.map fun k => (k.1, k.2.unmarked) := by
  induction children with
  | nil => rfl
  | cons k children ih => rw [unmarkedChildren, ih, List.map_cons]

@[simp] theorem children_unmarked :
    s.unmarked.children = s.children.map fun k => (k.1, k.2.unmarked) := by
  cases s
  exact unmarkedChildren_eq_map _

/-- Looking up a name does not look at marks. -/
@[simp] theorem field?_unmarked (name : String) : s.unmarked.field? name = s.field? name := by
  rw [field?, field?, fields_unmarked]

/-- A computed field is found as before. -/
@[simp] theorem computed?_unmarked (name : String) :
    s.unmarked.computed? name = s.computed? name := by
  rw [computed?, computed?, computed_unmarked]

@[simp] theorem handler?_unmarked (name : String) :
    s.unmarked.handler? name = s.handler? name := by
  rw [handler?, handler?, handlers_unmarked]

/-! ### Building -/

/-- Without marks the same names count as declared. -/
@[simp] theorem declares_unmarked (name : String) :
    s.unmarked.declares name = s.declares name := by
  have hnames : s.unmarked.names = s.names := by
    obtain ⟨n, fs, cs, hs, ks, is⟩ := s
    simp [unmarked, names, unmarkedChildren_eq_map, KeyMap.keys, Function.comp_def]
  rw [Bool.eq_iff_iff, declares_iff, declares_iff, hnames]

/-- Without marks the same names are free. -/
@[simp] theorem reserve_unmarked (name : String) :
    s.unmarked.reserve name = s.reserve name := by
  rw [reserve, reserve, declares_unmarked, name_unmarked]

/-- Adding a field and taking marks off commute; so does adding any other part. -/
theorem addField_unmarked (decl : FieldDecl) :
    s.unmarked.addField decl = (s.addField decl).unmarked := by
  cases s
  rfl

/-- A computed field may be added before or after the marks are taken away. -/
theorem addComputed_unmarked (name : String) (e : Expr) :
    s.unmarked.addComputed name e = (s.addComputed name e).unmarked := by
  cases s
  rfl

/-- So may a handler. -/
theorem addHandler_unmarked (name : String) (handler : Handler) :
    s.unmarked.addHandler name handler = (s.addHandler name handler).unmarked := by
  cases s
  rfl

/-- So may a child, which has none of its own marks left. -/
theorem addChild_unmarked (name : String) (child : Schema) :
    s.unmarked.addChild name child.unmarked = (s.addChild name child).unmarked := by
  cases s
  simp [unmarked, addChild, unmarkedChildren_eq_map]

/-- Marking a name makes no difference once marks are taken off. -/
theorem addInherited_unmarked (name : String) : (s.addInherited name).unmarked = s.unmarked := by
  cases s
  rfl

/-- A field is refused with the same error, or declared with the same result but for marks. -/
theorem declare_unmarked (decl : FieldDecl) :
    s.unmarked.declare decl = unmarked <$> s.declare decl := by
  rw [declare, declare, reserve_unmarked, name_unmarked, map_bind]
  refine bind_congr fun _ => ?_
  cases decl.type.coerce decl.default with
  | none => rfl
  | some v => exact congrArg pure (addField_unmarked s _)

/-- A computed field is refused with the same error, or declared with the same result but for
marks. -/
theorem declareComputed_unmarked (name : String) (e : Expr) :
    s.unmarked.declareComputed name e = unmarked <$> s.declareComputed name e := by
  rw [declareComputed, declareComputed, reserve_unmarked, map_bind]
  exact bind_congr fun _ => congrArg pure (addComputed_unmarked s name e)

/-- A handler is refused with the same error, or declared with the same result but for marks. -/
theorem declareHandler_unmarked (name : String) (handler : Handler) :
    s.unmarked.declareHandler name handler = unmarked <$> s.declareHandler name handler := by
  rw [declareHandler, declareHandler, reserve_unmarked, map_bind]
  exact bind_congr fun _ => congrArg pure (addHandler_unmarked s name handler)

/-- A child, which may have marks of its own, is refused with the same error, or declared with the
same result but for marks. -/
theorem declareChild_unmarked (name : String) (child : Schema) :
    s.unmarked.declareChild name child.unmarked = unmarked <$> s.declareChild name child := by
  rw [declareChild, declareChild, reserve_unmarked, map_bind]
  exact bind_congr fun _ => congrArg pure (addChild_unmarked s name child)

end Schema

/-! ### Compiling -/

/-- The container with the marks taken off its schema. -/
def ContainerInfo.unmarked (c : ContainerInfo) : ContainerInfo :=
  { c with schema := c.schema.unmarked }

/-- The layout with the marks taken off all schemas. -/
def Layout.unmarked (l : Layout) : Layout :=
  { l with containers := l.containers.map ContainerInfo.unmarked }

namespace Schema

mutual

/-- A schema without marks has the same containers, without marks. -/
theorem containersAt_unmarked (path : String) (parent : Option String) : ∀ s : Schema,
    s.unmarked.containersAt path parent = (s.containersAt path parent).map ContainerInfo.unmarked
  | mk name fields computed handlers children inherited => by
    rw [unmarked, containersAt, containersAt, List.map_cons, childContainersAt_unmarked]
    rfl

/-- The same of a list of children. -/
theorem childContainersAt_unmarked (path : String) : ∀ children : List (String × Schema),
    childContainersAt path (unmarkedChildren children) =
      (childContainersAt path children).map ContainerInfo.unmarked
  | [] => rfl
  | (name, child) :: children => by
    rw [unmarkedChildren, childContainersAt, childContainersAt, List.map_append,
      containersAt_unmarked, childContainersAt_unmarked]

end

end Schema

namespace Layout

variable (cs : List ContainerInfo)

/-- A path leads to the same container, but for its marks. -/
theorem findContainer?_unmarked (path : String) :
    findContainer? (cs.map ContainerInfo.unmarked) path =
      (findContainer? cs path).map ContainerInfo.unmarked :=
  List.find?_map ..

/-- A key leads to the same declaration. -/
theorem findField?_unmarked (k : FieldKey) :
    findField? (cs.map ContainerInfo.unmarked) k = findField? cs k := by
  rw [findField?, findField?, findContainer?_unmarked, Option.bind_map]
  exact congrArg _ (funext fun c => c.schema.field?_unmarked k.field)

/-- The computed fields of all containers do not depend on marks. -/
theorem rebasedComputed_unmarked :
    rebasedComputed (cs.map ContainerInfo.unmarked) = rebasedComputed cs := by
  rw [rebasedComputed, rebasedComputed, List.flatMap_map]
  simp only [ContainerInfo.unmarked, Schema.computed_unmarked]

theorem storedKeys_unmarked (c : ContainerInfo) : c.unmarked.storedKeys = c.storedKeys := by
  simp [ContainerInfo.storedKeys, ContainerInfo.unmarked]

theorem computedKeys_unmarked (c : ContainerInfo) : c.unmarked.computedKeys = c.computedKeys := by
  simp [ContainerInfo.computedKeys, ContainerInfo.unmarked]

/-- The graph starts from the same nodes. -/
theorem nodesOf_unmarked : nodesOf (cs.map ContainerInfo.unmarked) = nodesOf cs := by
  rw [nodesOf, nodesOf, List.foldl_map]
  simp only [storedKeys_unmarked, computedKeys_unmarked]

/-- References are checked against the same types. -/
theorem declaredType?_unmarked (computed : List (FieldKey × Expr)) (k : FieldKey) :
    declaredType? (cs.map ContainerInfo.unmarked) computed k = declaredType? cs computed k := by
  rw [declaredType?, declaredType?, findField?_unmarked]

/-- References pass the check or fail it with the same error. -/
theorem checkReferences_unmarked (computed : List (FieldKey × Expr)) (k : FieldKey)
    (refs : List (FieldKey × ValueType)) :
    checkReferences (cs.map ContainerInfo.unmarked) computed k refs =
      checkReferences cs computed k refs := by
  induction refs with
  | nil => rfl
  | cons p refs ih => simp only [checkReferences, declaredType?_unmarked, ih]

/-- Linking adds the same edges or stops with the same error. -/
theorem link_unmarked (computed rest : List (FieldKey × Expr)) (g : Graph) :
    link (cs.map ContainerInfo.unmarked) computed g rest = link cs computed g rest := by
  induction rest generalizing g with
  | nil => rfl
  | cons p rest ih => simp only [link, checkReferences_unmarked, ih]

/-- Compiling does not look at marks. -/
theorem compile_unmarked (root : Schema) :
    compile root.unmarked = unmarked <$> compile root := by
  simp only [compile, Schema.name_unmarked, Schema.containersAt_unmarked, rebasedComputed_unmarked,
    nodesOf_unmarked, link_unmarked, map_bind]
  refine bind_congr fun g => ?_
  cases g.order <;> rfl

end Layout

/-! ### Looking up -/

namespace Layout

variable (l : Layout)

/-- The layout knows the same containers, but for their marks. -/
theorem container?_unmarked (path : String) :
    l.unmarked.container? path = (l.container? path).map ContainerInfo.unmarked :=
  findContainer?_unmarked l.containers path

/-- The layouts have containers at the same paths. -/
theorem isNone_container?_unmarked (path : String) :
    (l.unmarked.container? path).isNone = (l.container? path).isNone := by
  rw [container?_unmarked, Option.isNone_map]

/-- A layout tells the same of a field, and so it does of handlers and storage. -/
theorem field?_unmarked : l.unmarked.field? = l.field? :=
  funext (findField?_unmarked l.containers)

theorem computed?_unmarked : l.unmarked.computed? = l.computed? := rfl

theorem isBackend_unmarked : l.unmarked.isBackend = l.isBackend := by
  funext k
  rw [isBackend, isBackend, field?_unmarked]

theorem clientKeys_unmarked : l.unmarked.clientKeys = l.clientKeys := by
  have hkeys : ∀ c : ContainerInfo, c.unmarked.clientKeys = c.clientKeys := fun c => by
    rw [ContainerInfo.clientKeys, computedKeys_unmarked]
    simp [ContainerInfo.clientKeys, ContainerInfo.unmarked]
  simp only [clientKeys, unmarked, List.flatMap_map, hkeys]

/-- Handlers are found as before. -/
theorem resolveHandler?_unmarked : l.unmarked.resolveHandler? = l.resolveHandler? := by
  funext path
  rw [resolveHandler?, resolveHandler?]
  refine bind_congr fun ⟨path, name⟩ => ?_
  dsimp only
  rw [container?_unmarked]
  -- Marks are on members, and a handler does not show whether it was copied
  cases l.container? path with
  | none => rfl
  | some info =>
    exact congrArg (fun handler => do return (path, ← handler))
      (info.schema.handler?_unmarked name)

theorem clientStorage_unmarked : l.unmarked.clientStorage = l.clientStorage := by
  simp [clientStorage, unmarked, List.foldl_map, ContainerInfo.unmarked]

end Layout

/-! ### Trees -/

namespace Tree

variable (l : Layout)

/-- A tree is instantiated from fields and computed fields, which have no marks. -/
theorem instantiate_unmarked : instantiate l.unmarked = instantiate l := by
  simp [instantiate, Layout.unmarked, List.flatMap_map, ContainerInfo.unmarked,
    ContainerInfo.computedKeys]

/-- Readings of all depths agree, by induction on the depth. -/
theorem read_unmarked (depth : Nat) : read l.unmarked depth = read l depth := by
  induction depth with
  | zero => rfl
  | succ depth ih =>
    funext k
    rw [read, read, ih, Layout.computed?_unmarked]

/-- Evaluating a computed field never looks at marks. -/
theorem computedValue_unmarked : computedValue l.unmarked = computedValue l := by
  funext k
  rw [computedValue, computedValue, read_unmarked]
  rfl

/-- Reading does the same on both layouts, and so do all other operations of a tree. -/
theorem get_unmarked : get l.unmarked = get l := by
  funext k
  simp only [get, Layout.isNone_container?_unmarked, computedValue_unmarked]

theorem set_unmarked : set l.unmarked = set l := by
  have hstored : notStored l.unmarked = notStored l := by
    funext k
    rw [notStored, notStored, Layout.isNone_container?_unmarked]
    rfl
  funext k v
  rw [set, set, Layout.field?_unmarked, hstored]
  rfl

theorem modifyField_unmarked : modifyField l.unmarked = modifyField l := by
  funext k f
  rw [modifyField, modifyField, get_unmarked, set_unmarked]

/-- Evaluating the computed fields one after another does the same on both layouts. -/
theorem syncAll_unmarked (ks : List FieldKey) : syncAll l.unmarked ks = syncAll l ks := by
  induction ks with
  | nil => rfl
  | cons k ks ih => simp only [syncAll, computedValue_unmarked, ih]

theorem start_unmarked : start l.unmarked = start l := by
  rw [start, start, instantiate_unmarked, syncAll_unmarked]
  rfl

/-- Collecting the values for a snapshot does the same on both layouts. -/
theorem collect_unmarked (ks : List FieldKey) (delta : Delta) :
    collect l.unmarked ks delta = collect l ks delta := by
  induction ks generalizing delta with
  | nil => rfl
  | cons k ks ih =>
    simp only [collect, get_unmarked, ih]
    rfl

theorem snapshot_unmarked : snapshot l.unmarked = snapshot l := by
  rw [snapshot, snapshot, Layout.clientKeys_unmarked, collect_unmarked]

theorem initialState_unmarked : initialState l.unmarked = initialState l := by
  rw [initialState, initialState, start_unmarked, snapshot_unmarked]

/-- Refreshing one field does the same on both layouts. -/
theorem refresh_unmarked : refresh l.unmarked = refresh l := by
  funext k
  rw [refresh, refresh, get_unmarked]

/-- The rounds of a flush do the same on both layouts. -/
theorem settle_unmarked (rounds : Nat) (retry : List FieldKey) (s : FlushState) :
    settle l.unmarked rounds retry s = settle l rounds retry s := by
  have hrefresh : refreshInto l.unmarked = refreshInto l := by
    funext s k
    rw [refreshInto, refreshInto, refresh_unmarked]
  have hstale : stale l.unmarked = stale l := rfl
  have hgraph : l.unmarked.graph = l.graph := rfl
  -- Induction on the rounds; both sides have the same stale fields in each
  induction rounds generalizing retry s with
  | zero =>
    rw [settle.eq_def, settle.eq_def, hstale]
    cases h : stale l s.changed retry <;> simp only [h, hgraph]
  | succ rounds ih =>
    rw [settle.eq_def, settle.eq_def, hstale]
    cases h : stale l s.changed retry with
    | nil => simp only [h]
    | cons k ks => simp only [h, hrefresh, ih]

/-- Flushes tell the same and leave the same tree. -/
theorem flush_unmarked : flush l.unmarked = flush l := by
  have htold : tellStored l.unmarked = tellStored l := by
    funext t delta k
    rw [tellStored, tellStored, Layout.isBackend_unmarked]
  funext t
  rw [flush, flush, settle_unmarked, dirtyDelta, dirtyDelta, htold]
  rfl

/-! #### Containers -/

mutual

/-- The nested view of a tree is built along the schema, and no mark shows in it. -/
theorem containerAt_unmarked (t : Tree) (path : String) (parent : Option String) : ∀ s : Schema,
    t.containerAt path parent s.unmarked = t.containerAt path parent s
  | .mk name fields computed handlers children inherited => by
    rw [Schema.unmarked, containerAt, containerAt, childrenAt_unmarked]

/-- The same of a list of children. -/
theorem childrenAt_unmarked (t : Tree) (path : String) : ∀ children : List (String × Schema),
    t.childrenAt path (Schema.unmarkedChildren children) = t.childrenAt path children
  | [] => rfl
  | (name, child) :: children => by
    rw [Schema.unmarkedChildren, childrenAt, childrenAt, containerAt_unmarked, childrenAt_unmarked]

end

/-- A path leads to the same container of the tree. -/
theorem container_unmarked : container l.unmarked = container l := by
  have hroot : root? l.unmarked = root? l := by
    funext t
    rw [root?, root?, Layout.container?_unmarked, Option.map_map]
    exact congrArg (Option.map · _) (funext fun c =>
      t.containerAt_unmarked c.path c.parent c.schema)
  funext t path
  rw [container, container, hroot]

end Tree

/-! ### Programs -/

namespace Program

variable (l : Layout) {α : Type}

/-- A program finds the same containers. -/
theorem located_unmarked (path : String) : located l.unmarked path = located l path := by
  rw [located, located, Layout.container?_unmarked]
  cases l.container? path <;> rfl

/-- A program that is run to its end does the same on both layouts. -/
theorem run_unmarked (p : Program α) : p.run l.unmarked = p.run l := by
  funext t
  induction p generalizing t with
  | done a => rfl
  | get k next ih => simp only [run, Tree.get_unmarked, ih]
  | set k v next ih => simp only [run, Tree.set_unmarked, ih]
  | locate path next ih => simp only [run, located_unmarked, ih]
  | flush next ih => simp only [run, Tree.flush_unmarked, ih]
  | snapshot next ih => simp only [run, Tree.snapshot_unmarked, ih]
  | note n next ih => simp only [run, ih]
  | pause next ih => simp only [run, ih]

/-- A program that is run up to a pause does the same on both layouts. -/
theorem advance_unmarked (p : Program α) : p.advance l.unmarked = p.advance l := by
  funext t
  induction p generalizing t with
  | done a => rfl
  | get k next ih => simp only [advance, Tree.get_unmarked, ih]
  | set k v next ih => simp only [advance, Tree.set_unmarked, ih]
  | locate path next ih => simp only [advance, located_unmarked, ih]
  | flush next ih => simp only [advance, Tree.flush_unmarked, ih]
  | snapshot next ih => simp only [advance, Tree.snapshot_unmarked, ih]
  | note n next ih => simp only [advance, ih]
  | pause next ih => rfl

end Program

namespace EventLoop

variable (l : Layout)

/-- A chain makes the same requests, by induction on what is left until the limit. -/
theorem chain_unmarked (limit left : Nat) (queue : List Event) :
    chain l.unmarked limit left queue = chain l limit left queue := by
  induction left generalizing queue with
  | zero => cases queue <;> rfl
  | succ left ih =>
    cases queue with
    | nil => rfl
    | cons e queue => simp only [chain, Layout.resolveHandler?_unmarked, ih]

/-- Loops dispatch events alike on both layouts. -/
theorem run_unmarked (loop : EventLoop) : loop.run l.unmarked = loop.run l := by
  have hdispatch : loop.dispatch l.unmarked = loop.dispatch l := by
    funext e
    simp only [dispatch, Layout.resolveHandler?_unmarked, chain_unmarked]
  funext t e
  rw [run, run, hdispatch, Program.run_unmarked]

end EventLoop

/-! ### Schemas and layouts that differ in marks only -/

/-- Trees of the two layouts do the same: whatever is asked of them, they answer alike and are the
same tree afterwards. -/
structure Layout.RunAlike (l₁ l₂ : Layout) : Prop where
  start : Tree.start l₁ = Tree.start l₂
  initialState : Tree.initialState l₁ = Tree.initialState l₂
  get : Tree.get l₁ = Tree.get l₂
  set : Tree.set l₁ = Tree.set l₂
  modifyField : Tree.modifyField l₁ = Tree.modifyField l₂
  flush : Tree.flush l₁ = Tree.flush l₂
  snapshot : Tree.snapshot l₁ = Tree.snapshot l₂
  container : Tree.container l₁ = Tree.container l₂
  /-- Every program, up to its next pause and to its end. -/
  advance : ∀ {α : Type} (p : Program α), p.advance l₁ = p.advance l₂
  run : ∀ {α : Type} (p : Program α), p.run l₁ = p.run l₂
  /-- Every inbound event, to the end of its chain. -/
  events : ∀ loop : EventLoop, loop.run l₁ = loop.run l₂
  clientStorage : l₁.clientStorage = l₂.clientStorage

/-- Layouts that are the same without marks make trees that do the same.  Each part goes through the
layout without marks. -/
theorem Layout.runAlike_of_unmarked_eq {l₁ l₂ : Layout} (h : l₁.unmarked = l₂.unmarked) :
    RunAlike l₁ l₂ where
  -- Every part is the same argument: without marks, across, and back
  start := by rw [← Tree.start_unmarked, h, Tree.start_unmarked]
  initialState := by rw [← Tree.initialState_unmarked, h, Tree.initialState_unmarked]
  get := by rw [← Tree.get_unmarked, h, Tree.get_unmarked]
  set := by rw [← Tree.set_unmarked, h, Tree.set_unmarked]
  modifyField := by rw [← Tree.modifyField_unmarked, h, Tree.modifyField_unmarked]
  flush := by rw [← Tree.flush_unmarked, h, Tree.flush_unmarked]
  snapshot := by rw [← Tree.snapshot_unmarked, h, Tree.snapshot_unmarked]
  container := by rw [← Tree.container_unmarked, h, Tree.container_unmarked]
  advance p := by rw [← Program.advance_unmarked, h, Program.advance_unmarked]
  run p := by rw [← Program.run_unmarked, h, Program.run_unmarked]
  events loop := by rw [← EventLoop.run_unmarked, h, EventLoop.run_unmarked]
  clientStorage := by rw [← clientStorage_unmarked, h, clientStorage_unmarked]

/-- The two schemas are refused with the same error, or give trees that do the same. -/
structure Schema.CompileAlike (root₁ root₂ : Schema) : Prop where
  error_iff : ∀ e, Layout.compile root₁ = .error e ↔ Layout.compile root₂ = .error e
  runAlike : ∀ l₁ l₂, Layout.compile root₁ = .ok l₁ → Layout.compile root₂ = .ok l₂ →
    l₁.RunAlike l₂

/-- Schemas that are the same without marks compile alike. -/
theorem Schema.compileAlike_of_unmarked_eq {root₁ root₂ : Schema}
    (h : root₁.unmarked = root₂.unmarked) : CompileAlike root₁ root₂ := by
  -- Compiling and forgetting the marks may change places
  have hcompile : Layout.unmarked <$> Layout.compile root₁ =
      Layout.unmarked <$> Layout.compile root₂ := by
    rw [← Layout.compile_unmarked, h, Layout.compile_unmarked]
  refine ⟨fun e => ?_, fun l₁ l₂ h₁ h₂ => ?_⟩
  · cases h₁ : Layout.compile root₁ <;> cases h₂ : Layout.compile root₂ <;>
      simp_all [Functor.map, Except.map]
  · rw [h₁, h₂] at hcompile
    exact Layout.runAlike_of_unmarked_eq (Except.ok.inj hcompile)

end ReactiveState
