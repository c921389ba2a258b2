import ReactiveState.Program.Run

/-!
# Runs of programs

How a program runs after another one (`result_bind`, `treeAfter_bind`), which trees it passes
through (`trees`), and what a program keeps that neither flushes nor takes snapshots
(`IsScoped.run_keeps`).
-/

namespace ReactiveState

namespace Program

variable {α β : Type} {l : Layout}

/-- The program reads and assigns fields and asks for containers, whatever the answers; it never
flushes and takes no snapshot. -/
def IsScoped : Program α → Prop
  | done _ => True
  | get _ next => ∀ r, IsScoped (next r)
  | set _ _ next => ∀ r, IsScoped (next r)
  | locate _ next => ∀ r, IsScoped (next r)
  | flush _ => False
  | snapshot _ => False
  | note _ next => IsScoped next
  | pause next => IsScoped next

/-- The trees that a run passes through, the first and the last one included. -/
def trees (l : Layout) : Program α → Tree → List Tree
  | done _, t => [t]
  | get k next, t =>
    t :: trees l (next ((Tree.get l k).run t).1) ((Tree.get l k).run t).2
  | set k v next, t =>
    t :: trees l (next ((Tree.set l k v).run t).1) ((Tree.set l k v).run t).2
  | locate path next, t => trees l (next (located l path)) t
  | flush next, t => t :: trees l (next (t.flush l).1) (t.flush l).2
  | snapshot next, t =>
    t :: trees l (next ((Tree.snapshot l).run t).1) ((Tree.snapshot l).run t).2
  | note _ next, t => trees l next t
  | pause next, t => trees l next t

/-- The result of a run. -/
def result (l : Layout) (p : Program α) (t : Tree) : α := (p.run l t).1

/-- The tree after a run. -/
def treeAfter (l : Layout) (p : Program α) (t : Tree) : Tree := (p.run l t).2.1

/-- The notes that a run leaves. -/
def notes (l : Layout) (p : Program α) (t : Tree) : List Note := (p.run l t).2.2

/-! ### One program after another -/

/-- The result of a sequence is that of the second program, run in the tree that the first one
leaves. -/
theorem result_bind (p : Program α) (f : α → Program β) (t : Tree) :
    (p.bind f).result l t = (f (p.result l t)).result l (p.treeAfter l t) := by
  unfold result treeAfter
  induction p generalizing t with
  | done a => rfl
  | get k next ih => exact ih _ _
  | set k v next ih => exact ih _ _
  | locate path next ih => exact ih _ _
  | flush next ih => exact ih _ _
  | snapshot next ih => exact ih _ _
  | note n next ih => exact ih _
  | pause next ih => exact ih _

/-- A sequence leaves the tree that the second program leaves. -/
theorem treeAfter_bind (p : Program α) (f : α → Program β) (t : Tree) :
    (p.bind f).treeAfter l t = (f (p.result l t)).treeAfter l (p.treeAfter l t) := by
  unfold result treeAfter
  induction p generalizing t with
  | done a => rfl
  | get k next ih => exact ih _ _
  | set k v next ih => exact ih _ _
  | locate path next ih => exact ih _ _
  | flush next ih => exact ih _ _
  | snapshot next ih => exact ih _ _
  | note n next ih => exact ih _
  | pause next ih => exact ih _

/-- A sequence makes the notes of the first program and then those of the second. -/
theorem notes_bind (p : Program α) (f : α → Program β) (t : Tree) :
    (p.bind f).notes l t = p.notes l t ++ (f (p.result l t)).notes l (p.treeAfter l t) := by
  unfold notes result treeAfter
  induction p generalizing t with
  | done a => rfl
  | get k next ih => exact ih _ _
  | set k v next ih => exact ih _ _
  | locate path next ih => exact ih _ _
  | flush next ih => exact ih _ _
  | snapshot next ih => exact ih _ _
  | note n next ih => exact congrArg (n :: ·) (ih _)
  | pause next ih => exact ih _

theorem mem_trees_self (p : Program α) (t : Tree) : t ∈ p.trees l t := by
  induction p with
  | done a => exact List.mem_singleton_self t
  | locate path next ih => exact ih _
  | note n next ih => exact ih
  | pause next ih => exact ih
  | _ => exact List.mem_cons_self

/-- The first program passes through its trees whatever comes after it. -/
theorem mem_trees_bind_left (p : Program α) (f : α → Program β) (t : Tree) :
    p.trees l t ⊆ (p.bind f).trees l t := by
  induction p generalizing t with
  | done a =>
    intro u hu
    -- The last tree of the first program is the first one of the second
    rw [List.mem_singleton.1 hu]
    exact mem_trees_self (f a) t
  | get k next ih => exact List.cons_subset_cons t (ih _ _)
  | set k v next ih => exact List.cons_subset_cons t (ih _ _)
  | locate path next ih => exact ih _ _
  | flush next ih => exact List.cons_subset_cons t (ih _ _)
  | snapshot next ih => exact List.cons_subset_cons t (ih _ _)
  | note n next ih => exact ih _
  | pause next ih => exact ih _

/-- The second program passes through its trees after the first one. -/
theorem mem_trees_bind_right (p : Program α) (f : α → Program β) (t : Tree) :
    (f (p.result l t)).trees l (p.treeAfter l t) ⊆ (p.bind f).trees l t := by
  unfold result treeAfter
  induction p generalizing t with
  | done a => exact List.Subset.refl _
  | get k next ih => exact List.subset_cons_of_subset t (ih _ _)
  | set k v next ih => exact List.subset_cons_of_subset t (ih _ _)
  | locate path next ih => exact ih _ _
  | flush next ih => exact List.subset_cons_of_subset t (ih _ _)
  | snapshot next ih => exact List.subset_cons_of_subset t (ih _ _)
  | note n next ih => exact ih _
  | pause next ih => exact ih _

/-! ### Scoped programs -/

/-- A scoped program keeps what reading and assigning keep. -/
theorem IsScoped.run_keeps {I : Tree → Prop} {p : Program α} (hp : p.IsScoped)
    (hget : ∀ k t, I t → I ((Tree.get l k).run t).2)
    (hset : ∀ k v t, I t → I ((Tree.set l k v).run t).2) {t : Tree} (ht : I t) :
    I (p.treeAfter l t) := by
  unfold treeAfter
  induction p generalizing t with
  | done a => exact ht
  | get k next ih => exact ih _ (hp _) (hget k t ht)
  | set k v next ih => exact ih _ (hp _) (hset k v t ht)
  | locate path next ih => exact ih _ (hp _) ht
  -- A scoped program neither flushes nor takes snapshots
  | flush next => exact hp.elim
  | snapshot next => exact hp.elim
  | note n next ih => exact ih hp ht
  | pause next ih => exact ih hp ht

end Program

end ReactiveState
