import ReactiveState.Layout
import ReactiveState.Proofs.Schema.Built

/-!
# Paths of containers

The containers of a schema that can be built have distinct paths (`nodup_paths`): the paths below a
container start with its path and a dot, and the segments that follow hold no dots, so the children
share no path with each other or with their parent.
-/

namespace ReactiveState

/-- The second path is the first one, or leads on from it after a dot. -/
def PathExtends (path other : String) : Prop :=
  other.toList = path.toList ∨ ∃ rest, other.toList = path.toList ++ '.' :: rest

theorem pathExtends_refl (path : String) : PathExtends path path := .inl rfl

theorem PathExtends.trans {a b c : String} (hab : PathExtends a b) (hbc : PathExtends b c) :
    PathExtends a c := by
  rcases hab with hab | ⟨rest, hab⟩
  · simpa only [PathExtends, hab] using hbc
  · rcases hbc with hbc | ⟨rest', hbc⟩
    · exact .inr ⟨rest, hbc.trans hab⟩
    · exact .inr ⟨rest ++ '.' :: rest', by rw [hbc, hab]; simp⟩

theorem toList_child (path name : String) :
    (path ++ "." ++ name).toList = path.toList ++ '.' :: name.toList := by
  simp

theorem pathExtends_child (path name : String) : PathExtends path (path ++ "." ++ name) :=
  .inr ⟨name.toList, toList_child path name⟩

/-- A path below a child is not the path of the parent. -/
theorem PathExtends.ne_parent {path name other : String}
    (h : PathExtends (path ++ "." ++ name) other) : other ≠ path := by
  rintro rfl
  -- A path below the child is longer than that of the parent
  have hlen := toList_child other name
  rcases h with h | ⟨rest, h⟩
  · have := congrArg List.length (h.trans hlen)
    simp at this
  · rw [hlen] at h
    have := congrArg List.length h
    simp at this

/-- The segment that follows, up to the next dot. -/
private theorem takeWhile_segment {name rest : List Char} (h : '.' ∉ name) :
    (name ++ '.' :: rest).takeWhile (· ≠ '.') = name := by
  have hall : ∀ c ∈ name, decide (c ≠ '.') = true := by
    intro c hc
    rw [decide_eq_true_iff]
    exact fun heq => h (heq ▸ hc)
  rw [List.takeWhile_append_of_pos hall]
  simp

/-- A path is below one child only. -/
theorem PathExtends.name_unique {path name name' other : String}
    (hname : isIdentifier name = true) (hname' : isIdentifier name' = true)
    (h : PathExtends (path ++ "." ++ name) other)
    (h' : PathExtends (path ++ "." ++ name') other) : name = name' := by
  -- The name of the child can be read off any path below it: it is the text between the dot after
  -- the path and the next one
  have segment : ∀ {n : String}, isIdentifier n = true →
      PathExtends (path ++ "." ++ n) other →
      ((other.toList.drop (path.toList.length + 1)) ++ ['.']).takeWhile (· ≠ '.') = n.toList := by
    intro n hn hext
    have hdot := dot_notMem_of_isIdentifier hn
    have hdrop : ∀ l : List Char,
        (path.toList ++ '.' :: l).drop (path.toList.length + 1) = l := fun l => by simp
    rcases hext with hext | ⟨rest, hext⟩
    · rw [hext, toList_child, hdrop]
      exact takeWhile_segment hdot
    · rw [hext, toList_child, List.append_assoc, List.cons_append, hdrop, List.append_assoc,
        List.cons_append]
      exact takeWhile_segment hdot
  exact String.toList_injective ((segment hname h).symm.trans (segment hname' h'))

namespace Schema

mutual

/-- Every path of a schema starts with its own. -/
theorem pathExtends_containersAt (path : String) (parent : Option String) :
    ∀ (s : Schema), ∀ c ∈ s.containersAt path parent, PathExtends path c.path
  | .mk name fields computed handlers children inherited, c, hc => by
    rw [containersAt, List.mem_cons] at hc
    rcases hc with rfl | hc
    · exact pathExtends_refl path
    · obtain ⟨n, _, hext⟩ := pathExtends_childContainersAt path children c hc
      exact (pathExtends_child path n).trans hext

/-- Every path below a container starts with that of one of the children. -/
theorem pathExtends_childContainersAt (path : String) :
    ∀ (children : List (String × Schema)), ∀ c ∈ childContainersAt path children,
      ∃ n ∈ KeyMap.keys children, PathExtends (path ++ "." ++ n) c.path
  | [], c, hc => nomatch hc
  | (n, child) :: children, c, hc => by
    rw [childContainersAt, List.mem_append] at hc
    rcases hc with hc | hc
    · -- The container belongs to the first child or to one of the others
      exact ⟨n, List.mem_cons_self, pathExtends_containersAt _ _ child c hc⟩
    · obtain ⟨n', hn', hext⟩ := pathExtends_childContainersAt path children c hc
      exact ⟨n', List.mem_cons_of_mem _ hn', hext⟩

end

mutual

/-- No two containers of a schema have one path. -/
theorem nodup_paths (path : String) (parent : Option String) :
    ∀ (s : Schema), s.Built → ((s.containersAt path parent).map (·.path)).Nodup
  | .mk name fields computed handlers children inherited, hs => by
    have hw := hs.wellNamed
    have hid : ∀ n ∈ KeyMap.keys children, ReactiveState.isIdentifier n = true := fun n hn =>
      hw.isIdentifier n (by simp [names, hn])
    rw [containersAt, List.map_cons, List.nodup_cons]
    refine ⟨fun hmem => ?_, nodup_childPaths path children hw.nodup_children hid hw.children⟩
    obtain ⟨c, hc, heq⟩ := List.mem_map.1 hmem
    -- A path below a child is not that of the container itself
    obtain ⟨n, _, hext⟩ := pathExtends_childContainersAt path children c hc
    exact hext.ne_parent heq

/-- No two containers below a container have one path. -/
theorem nodup_childPaths (path : String) :
    ∀ (children : List (String × Schema)), (KeyMap.keys children).Nodup →
      (∀ n ∈ KeyMap.keys children, ReactiveState.isIdentifier n = true) →
      (∀ c ∈ children, c.2.Built) →
      ((childContainersAt path children).map (·.path)).Nodup
  | [], _, _, _ => by simp [childContainersAt]
  | (n, child) :: children, hnodup, hid, hbuilt => by
    obtain ⟨hn, hnodup⟩ := List.nodup_cons.1 hnodup
    obtain ⟨hidn, hid⟩ := List.forall_mem_cons.1 hid
    obtain ⟨hchild, hbuilt⟩ := List.forall_mem_cons.1 hbuilt
    rw [childContainersAt, List.map_append, List.nodup_append]
    refine ⟨nodup_paths _ _ child hchild, nodup_childPaths path children hnodup hid hbuilt, ?_⟩
    rintro p hp q hq rfl
    obtain ⟨c, hc, rfl⟩ := List.mem_map.1 hp
    obtain ⟨c', hc', heq⟩ := List.mem_map.1 hq
    -- A path below two children would have both of their names
    have hext := pathExtends_containersAt _ _ child c hc
    obtain ⟨n', hn', hext'⟩ := pathExtends_childContainersAt path children c' hc'
    rw [heq] at hext'
    exact hn (hext.name_unique hidn (hid n' hn') hext' ▸ hn')

end

mutual

/-- The containers of a schema that can be built have such schemas. -/
theorem built_of_mem_containersAt (path : String) (parent : Option String) :
    ∀ (s : Schema), s.Built → ∀ c ∈ s.containersAt path parent, c.schema.Built
  | .mk name fields computed handlers children inherited, hs, c, hc => by
    rw [containersAt, List.mem_cons] at hc
    rcases hc with rfl | hc
    · exact hs
    · exact built_of_mem_childContainersAt path children hs.wellNamed.children c hc

/-- The containers below a container have schemas that can be built. -/
theorem built_of_mem_childContainersAt (path : String) :
    ∀ (children : List (String × Schema)), (∀ c ∈ children, c.2.Built) →
      ∀ c ∈ childContainersAt path children, c.schema.Built
  | [], _, c, hc => nomatch hc
  | (n, child) :: children, hbuilt, c, hc => by
    obtain ⟨hchild, hbuilt⟩ := List.forall_mem_cons.1 hbuilt
    rw [childContainersAt, List.mem_append] at hc
    rcases hc with hc | hc
    · exact built_of_mem_containersAt _ _ child hchild c hc
    · exact built_of_mem_childContainersAt path children hbuilt c hc

end

end Schema

end ReactiveState
