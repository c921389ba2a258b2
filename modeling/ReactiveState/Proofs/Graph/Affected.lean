import ReactiveState.Proofs.Graph.Cycles

/-!
# What a change may affect

`affected` lists exactly the fields that are reached from a changed field along dependents
(`mem_affected`), in a graph whose fields can be ranked by what they read.  An acyclic graph is one,
and there each field stands once, after the affected fields that it reads
(`Assembled.affected_reached_in_order`).

The search has fuel for every edge: `pending` counts the edges that lead out of the fields not found
yet, and the queue together with these bounds the steps that are left.
-/

namespace ReactiveState

namespace Graph

variable {g : Graph} {queue found : List FieldKey}

/-- The second field reads the first one. -/
def Feeds (g : Graph) (d k : FieldKey) : Prop := k ∈ g.dependents d

/-! ### Fuel -/

/-- The edges that lead out of the fields not found yet. -/
def pending (nodes : List (FieldKey × Node)) (found : List FieldKey) : Nat :=
  ((nodes.filter fun n => n.1 ∉ found).flatMap fun n => n.2.dependents).length

theorem pending_of_notMem {nodes : List (FieldKey × Node)} {k : FieldKey}
    (h : k ∉ KeyMap.keys nodes) : pending nodes (k :: found) = pending nodes found := by
  unfold pending
  congr 2
  refine List.filter_congr fun n hn => ?_
  have hne : n.1 ≠ k := fun heq => h (heq ▸ KeyMap.mem_keys hn)
  simp [hne]

/-- Finding a field uses up the edges that lead out of it. -/
theorem pending_cons {nodes : List (FieldKey × Node)} (h : (KeyMap.keys nodes).Nodup)
    {k : FieldKey} {n : Node} (hk : k ∉ found) (hn : KeyMap.find? k nodes = some n) :
    pending nodes found = n.dependents.length + pending nodes (k :: found) := by
  induction nodes with
  | nil => simp [KeyMap.find?] at hn
  | cons m nodes ih =>
    obtain ⟨k', m⟩ := m
    obtain ⟨hk', hnodes⟩ := List.nodup_cons.1 h
    simp only [KeyMap.find?] at hn
    split at hn
    · next heq =>
      subst heq
      obtain rfl : m = n := Option.some.inj hn
      -- No later node has the key of the first one
      have hrest : pending nodes (k :: found) = pending nodes found := pending_of_notMem hk'
      simp only [pending] at hrest ⊢
      rw [List.filter_cons, List.filter_cons, if_pos (by simpa using hk), if_neg (by simp),
        List.flatMap_cons, List.length_append, hrest]
    · next hne =>
      have hrest := ih hnodes hn
      unfold pending at hrest ⊢
      -- The first node counts on both sides or on neither
      by_cases hf : k' ∈ found
      · simpa [hf, Ne.symm hne] using hrest
      · have hf' : k' ∉ k :: found := by simp [hf, Ne.symm hne]
        simp only [List.filter_cons, hf, hf', not_false_eq_true, decide_true, if_true,
          List.flatMap_cons, List.length_append]
        omega

/-! ### The search -/

theorem contains_of_feeds (hg : g.Mirrored) {d k : FieldKey} (h : g.Feeds d k) :
    g.contains k = true := by
  obtain ⟨n, hn, -⟩ := exists_node_of_mem_dependencies ((hg.mem_dependents_iff d k).1 h)
  rw [contains, hn]
  rfl

/-- The search finds only what has a property that dependents inherit. -/
theorem reach_subset {p : FieldKey → Prop} (hstep : ∀ a b, p a → g.Feeds a b → p b) {fuel : Nat}
    (hqueue : ∀ k ∈ queue, p k) (hfound : ∀ k ∈ found, p k) :
    ∀ k ∈ g.reach fuel queue found, p k := by
  induction fuel generalizing queue found with
  | zero => exact hfound
  | succ fuel ih =>
    cases queue with
    | nil => exact hfound
    | cons q queue =>
      obtain ⟨hq, hqueue⟩ := List.forall_mem_cons.1 hqueue
      simp only [reach]
      -- A field that was found before, or has no node, adds nothing
      split
      · exact ih hqueue hfound
      · split
        · exact ih hqueue hfound
        · next n hn =>
          refine ih (fun k hk => ?_) (List.forall_mem_cons.2 ⟨hq, hfound⟩)
          rcases List.mem_append.1 hk with hk | hk
          · exact hqueue k hk
          · -- A dependent of the field that was taken
            exact hstep q k hq (by simpa [Feeds, dependents, hn] using hk)

/-- With enough fuel the search finds its whole queue and everything that this leads to. -/
theorem reach_closed (hg : g.Mirrored) {fuel : Nat} (hqueue : ∀ k ∈ queue, g.contains k = true)
    (hclosed : ∀ a ∈ found, ∀ b, g.Feeds a b → b ∈ found ∨ b ∈ queue)
    (hfuel : queue.length + pending g.nodes found ≤ fuel) :
    (∀ k, k ∈ found ∨ k ∈ queue → k ∈ g.reach fuel queue found) ∧
      ∀ a ∈ g.reach fuel queue found, ∀ b, g.Feeds a b → b ∈ g.reach fuel queue found := by
  induction fuel generalizing queue found with
  | zero =>
    obtain rfl : queue = [] := List.length_eq_zero_iff.1 (by omega)
    exact ⟨by simp [reach], by simpa [reach] using hclosed⟩
  | succ fuel ih =>
    cases queue with
    | nil => exact ⟨by simp [reach], by simpa [reach] using hclosed⟩
    | cons q queue =>
      obtain ⟨hq, hqueue⟩ := List.forall_mem_cons.1 hqueue
      rw [List.length_cons] at hfuel
      by_cases hmem : q ∈ found
      · have hclosed' : ∀ a ∈ found, ∀ b, g.Feeds a b → b ∈ found ∨ b ∈ queue := by
          intro a ha b hb
          rcases hclosed a ha b hb with h | h
          · exact .inl h
          · rcases List.mem_cons.1 h with rfl | h
            · exact .inl hmem
            · exact .inr h
        -- A field that was found before is dropped from the queue
        obtain ⟨hsub, hcl⟩ := ih hqueue hclosed' (by omega)
        simp only [reach, if_pos hmem]
        refine ⟨fun k hk => hsub k ?_, hcl⟩
        rcases hk with hk | hk
        · exact .inl hk
        · rcases List.mem_cons.1 hk with rfl | hk
          · exact .inl hmem
          · exact .inr hk
      · obtain ⟨n, hn⟩ := Option.isSome_iff_exists.1 hq
        have hdep : g.dependents q = n.dependents := by simp [dependents, hn]
        -- A new field moves its edges from those pending to the queue
        have hpending := pending_cons (KeyMap.nodup_of_sorted hg.sorted) hmem hn
        have hqueue' : ∀ k ∈ queue ++ n.dependents, g.contains k = true := by
          intro k hk
          rcases List.mem_append.1 hk with hk | hk
          · exact hqueue k hk
          · exact contains_of_feeds hg (d := q) (by rwa [Feeds, hdep])
        -- What the new field leads to is queued now
        have hclosed' : ∀ a ∈ q :: found, ∀ b, g.Feeds a b →
            b ∈ q :: found ∨ b ∈ queue ++ n.dependents := by
          intro a ha b hb
          rcases List.mem_cons.1 ha with rfl | ha
          · exact .inr (List.mem_append_right _ (hdep ▸ hb))
          · rcases hclosed a ha b hb with h | h
            · exact .inl (List.mem_cons_of_mem _ h)
            · rcases List.mem_cons.1 h with rfl | h
              · exact .inl List.mem_cons_self
              · exact .inr (List.mem_append_left _ h)
        obtain ⟨hsub, hcl⟩ := ih hqueue' hclosed' (by rw [List.length_append]; omega)
        simp only [reach, if_neg hmem, hn]
        refine ⟨fun k hk => hsub k ?_, hcl⟩
        rcases hk with hk | hk
        · exact .inl (List.mem_cons_of_mem _ hk)
        · rcases List.mem_cons.1 hk with rfl | hk
          · exact .inl List.mem_cons_self
          · exact .inr (List.mem_append_left _ hk)

/-- The affected fields are those that read a changed one, directly or through others. -/
theorem mem_affected (hg : g.Mirrored) {rank : FieldKey → Nat}
    (hrank : ∀ k, ∀ d ∈ g.dependencies k, rank d < rank k) {changed : List FieldKey}
    {k : FieldKey} :
    k ∈ g.affected changed ↔ ∃ d ∈ changed, Relation.TransGen g.Feeds d k := by
  have hqueue : ∀ k, k ∈ changed.flatMap g.dependents ↔ ∃ d ∈ changed, g.Feeds d k := by
    simp [List.mem_flatMap, Feeds]
  -- Before the search every edge of the graph is pending
  have hfuel : (changed.flatMap g.dependents).length + pending g.nodes [] ≤
      (changed.flatMap g.dependents).length + g.edgeCount := by
    simp [pending, edgeCount]
  have hcontains : ∀ k ∈ changed.flatMap g.dependents, g.contains k = true := by
    intro k hk
    obtain ⟨d, _, hd⟩ := (hqueue k).1 hk
    exact contains_of_feeds hg hd
  obtain ⟨hsub, hcl⟩ := reach_closed hg hcontains (by simp) hfuel
  -- Ranks leave no circle, so sorting what was found drops nothing
  have hreach : k ∈ g.affected changed ↔
      k ∈ g.reach ((changed.flatMap g.dependents).length + g.edgeCount)
        (changed.flatMap g.dependents) [] := by
    refine Iff.trans ⟨mem_of_mem_sort hg (KeySet.nodup_ofList _), ?_⟩ KeySet.mem_ofList
    exact mem_sort_of_rank hg (KeySet.nodup_ofList _) fun k _ d hd _ => hrank k d hd
  rw [hreach]
  clear hreach
  constructor
  · refine reach_subset (p := fun k => ∃ d ∈ changed, Relation.TransGen g.Feeds d k) ?_ ?_
      (by simp) k
    · rintro a b ⟨d, hd, ha⟩ hab
      exact ⟨d, hd, ha.tail hab⟩
    · intro q hq
      obtain ⟨d, hd, hq⟩ := (hqueue q).1 hq
      exact ⟨d, hd, .single hq⟩
  · -- Along a chain of edges, each field is found because the one before it is
    rintro ⟨d, hd, hk⟩
    induction hk with
    | single hk => exact hsub _ (.inr ((hqueue _).2 ⟨d, hd, hk⟩))
    | tail _ hk ih => exact hcl _ ih _ hk

/-- In an acyclic graph the affected fields are those that read a changed one, directly or through
others.  Each of them stands once, after all the affected fields that it reads. -/
theorem Assembled.affected_reached_in_order (hg : g.Assembled) (h : g.Acyclic)
    (changed : List FieldKey) :
    (∀ k, k ∈ g.affected changed ↔ ∃ d ∈ changed, Relation.TransGen g.Feeds d k) ∧
      (g.affected changed).Nodup ∧
      ∀ k ∈ g.affected changed, ∀ d ∈ g.affected changed, d ∈ g.dependencies k →
        (g.affected changed).idxOf d < (g.affected changed).idxOf k := by
  -- Without circles there are ranks, so the sort leaves nothing out
  obtain ⟨rank, hrank⟩ := h.exists_rank hg.mirrored
  have hfound := KeySet.nodup_ofList (g.reach
    ((changed.flatMap g.dependents).length + g.edgeCount) (changed.flatMap g.dependents) [])
  exact ⟨fun k => mem_affected hg.mirrored hrank, nodup_sort hg.mirrored hfound,
    fun k hk d hd hread =>
      idxOf_sort_lt hg.mirrored hfound hk hread (mem_of_mem_sort hg.mirrored hfound hd)⟩

/-! ### A sample -/

/-- `d` reads `x` through `b` and through `c`, and `e` reads nothing. -/
def diamond : Graph :=
  let nodes := ((((empty.addNode (.isolated ⟨"app", "x"⟩ false)).addNode
    (.isolated ⟨"app", "b"⟩ true)).addNode (.isolated ⟨"app", "c"⟩ true)).addNode
    (.isolated ⟨"app", "d"⟩ true)).addNode (.isolated ⟨"app", "e"⟩ true)
  (((nodes.addEdge ⟨"app", "x"⟩ ⟨"app", "b"⟩).addEdge ⟨"app", "x"⟩ ⟨"app", "c"⟩).addEdge
    ⟨"app", "b"⟩ ⟨"app", "d"⟩).addEdge ⟨"app", "c"⟩ ⟨"app", "d"⟩

theorem assembled_diamond : diamond.Assembled := by
  have hx := Assembled.empty.addNode ⟨"app", "x"⟩ false
  have hbc := (hx.addNode ⟨"app", "b"⟩ true).addNode ⟨"app", "c"⟩ true
  have hnodes := (hbc.addNode ⟨"app", "d"⟩ true).addNode ⟨"app", "e"⟩ true
  have hxb := hnodes.addEdge ⟨"app", "x"⟩ ⟨"app", "b"⟩ rfl rfl
  have hxc := hxb.addEdge ⟨"app", "x"⟩ ⟨"app", "c"⟩ rfl rfl
  have hbd := hxc.addEdge ⟨"app", "b"⟩ ⟨"app", "d"⟩ rfl rfl
  exact hbd.addEdge _ _ rfl rfl

theorem acyclic_diamond : diamond.Acyclic := by
  refine acyclic_of_rank (fun k => ["x", "b", "c", "d"].idxOf k.field) ?_
  decide

/-- A change of `x`, told twice, and of a field that is not there: `d` is found once, and stands
after `b` and `c`. -/
theorem affected_reached_in_order_diamond :
    let changed := [⟨"app", "x"⟩, ⟨"app", "y"⟩, ⟨"app", "x"⟩]
    diamond.affected changed = [⟨"app", "b"⟩, ⟨"app", "c"⟩, ⟨"app", "d"⟩] ∧
      (diamond.affected changed).Nodup ∧
      ∃ d ∈ changed, Relation.TransGen diamond.Feeds d ⟨"app", "d"⟩ := by
  intro changed
  have haffected : diamond.affected changed = [⟨"app", "b"⟩, ⟨"app", "c"⟩, ⟨"app", "d"⟩] := rfl
  obtain ⟨hreached, hnodup, -⟩ :=
    assembled_diamond.affected_reached_in_order acyclic_diamond changed
  exact ⟨haffected, hnodup, (hreached ⟨"app", "d"⟩).1 (by simp [haffected])⟩

end Graph

end ReactiveState
