import ReactiveState.Container
import ReactiveState.Proofs.Layout.Containers

/-!
# Segments of paths

A path below another one is that path and one segment after another, each after a dot
(`pathBelow`).  Reading the segments off the text of the path undoes this, for every text
(`segmentsBelow?_eq_some_iff`), as long as no segment holds a dot; so a path leads to one place only
(`pathBelow_injective`).

Names are such segments.  With that, the two ways to look up a path agree: among the paths of all
containers, and from the root down by name (`findContainer?_pathBelow`).
-/

namespace ReactiveState

/-- The name can be a segment of a path: there is no dot in it. -/
def IsSegment (name : String) : Prop := '.' ∉ name.toList

/-- The path that names lead to from another path. -/
def pathBelow (path : String) (names : List String) : String :=
  names.foldl (fun path name => path ++ "." ++ name) path

variable {root path name : String} {names names' : List String}

theorem toList_pathBelow (path : String) (names : List String) :
    (pathBelow path names).toList = path.toList ++ names.flatMap fun n => '.' :: n.toList := by
  induction names generalizing path with
  | nil => simp [pathBelow]
  | cons n names ih =>
    rw [pathBelow, List.foldl_cons, ← pathBelow, ih, toList_child]
    simp

/-! ### Reading segments off a path -/

theorem intercalate_dot (cs : List Char) (css : List (List Char)) :
    ['.'].intercalate (cs :: css) = cs ++ css.flatMap fun cs => '.' :: cs := by
  induction css generalizing cs with
  | nil => simp
  | cons cs' css ih => simp [List.intercalate_cons_cons, ih]

/-- What is between the dots holds no dot. -/
theorem dot_notMem_of_mem_splitOn {cs part : List Char} (h : part ∈ cs.splitOn '.') :
    '.' ∉ part := by
  induction cs generalizing part with
  | nil =>
    obtain rfl : part = [] := by simpa using h
    exact List.not_mem_nil
  | cons c cs ih =>
    simp only [List.splitOn, List.splitOnP_cons_eq_if_modifyHead] at h ih
    split at h
    · -- The dot itself begins a new part, which is empty so far
      rcases List.mem_cons.1 h with rfl | h
      · exact List.not_mem_nil
      · exact ih h
    · next hc =>
      -- The character goes to the first part
      obtain ⟨first, rest, hsplit⟩ := List.exists_cons_of_ne_nil
        (List.splitOnP_ne_nil (· == '.') cs)
      rw [hsplit, List.modifyHead_cons, List.mem_cons] at h
      rw [hsplit] at ih
      rcases h with rfl | h
      · have hfirst : '.' ∉ first := ih List.mem_cons_self
        have hne : '.' ≠ c := fun heq => hc (by simp [← heq])
        simp [hne, hfirst]
      · exact ih (List.mem_cons_of_mem _ h)

/-- The segments of a path are the names that lead to it, for every text. -/
theorem segmentsBelow?_eq_some_iff : Container.segmentsBelow? root path = some names ↔
    names ≠ [] ∧ (∀ n ∈ names, IsSegment n) ∧ path = pathBelow root names := by
  unfold Container.segmentsBelow?
  constructor
  · intro h
    split at h
    · next rest hstart =>
      obtain rfl := Option.some.inj h
      have hpath := List.append_eq_of_isPrefixOf?_eq_some hstart
      -- What follows the path is a dot and then the parts, joined by dots again
      obtain ⟨first, others, hsplit⟩ := List.exists_cons_of_ne_nil (List.splitOn_ne_nil '.' rest)
      have hrest : rest = first ++ others.flatMap fun cs => '.' :: cs := by
        rw [← intercalate_dot, ← hsplit, List.intercalate_splitOn]
      refine ⟨by simp [hsplit], fun n hn => ?_, String.toList_injective ?_⟩
      · obtain ⟨part, hpart, rfl⟩ := List.mem_map.1 hn
        rw [IsSegment, String.toList_ofList]
        exact dot_notMem_of_mem_splitOn hpart
      · rw [toList_pathBelow, ← hpath, hsplit, hrest]
        simp [List.flatMap_map]
    · cases h
  · rintro ⟨hne, hsegments, rfl⟩
    obtain ⟨n, ns, rfl⟩ := List.exists_cons_of_ne_nil hne
    -- In the other direction the text begins with the path, and splitting undoes the joining since
    -- no name holds a dot
    have htext : ((n :: ns).flatMap fun n => '.' :: n.toList) =
        '.' :: ['.'].intercalate ((n :: ns).map String.toList) := by
      rw [List.map_cons, intercalate_dot]
      simp [List.flatMap_map]
    have hstart : root.toList.isPrefixOf? (pathBelow root (n :: ns)).toList =
        some ('.' :: ['.'].intercalate ((n :: ns).map String.toList)) := by
      rw [List.isPrefixOf?_eq_some_iff_append_eq, toList_pathBelow, htext]
    have hparts : ∀ part ∈ (n :: ns).map String.toList, '.' ∉ part := by
      intro part hpart
      obtain ⟨m, hm, rfl⟩ := List.mem_map.1 hpart
      exact hsegments m hm
    simp only [hstart]
    rw [List.splitOn_intercalate '.' hparts (by simp)]
    simp [List.map_map, Function.comp_def]

theorem pathBelow_cons (path name : String) (names : List String) :
    pathBelow path (name :: names) = pathBelow (path ++ "." ++ name) names := rfl

theorem pathBelow_ne (path name : String) (names : List String) :
    pathBelow path (name :: names) ≠ path := by
  intro heq
  have hlength := congrArg (fun s => s.toList.length) heq
  simp only [toList_pathBelow, List.flatMap_cons, List.length_append, List.length_cons] at hlength
  omega

/-- Different segments lead to different paths. -/
theorem pathBelow_injective (h : ∀ n ∈ names, IsSegment n) (h' : ∀ n ∈ names', IsSegment n)
    (heq : pathBelow path names = pathBelow path names') : names = names' := by
  cases names with
  | nil =>
    cases names' with
    | nil => rfl
    | cons n' ns' => exact absurd heq.symm (pathBelow_ne path n' ns')
  | cons n ns =>
    cases names' with
    | nil => exact absurd heq (pathBelow_ne path n ns)
    | cons n' ns' =>
      -- Both are the segments that are read off the one path
      have hread : Container.segmentsBelow? path (pathBelow path (n :: ns)) = some (n :: ns) :=
        segmentsBelow?_eq_some_iff.2 ⟨List.cons_ne_nil n ns, h, rfl⟩
      have hread' : Container.segmentsBelow? path (pathBelow path (n :: ns)) = some (n' :: ns') :=
        segmentsBelow?_eq_some_iff.2 ⟨List.cons_ne_nil n' ns', h', heq⟩
      exact Option.some.inj (hread.symm.trans hread')

theorem isSegment_of_isIdentifier (h : isIdentifier name = true) : IsSegment name :=
  dot_notMem_of_isIdentifier h

/-- The last segment is what follows the last dot. -/
theorem splitLastDot?_child (path : String) (h : IsSegment name) :
    splitLastDot? (path ++ "." ++ name) = some (path, name) := by
  have hall : ∀ c ∈ name.toList.reverse, decide (c ≠ '.') = true := by
    intro c hc
    rw [decide_eq_true_iff]
    rintro rfl
    exact h (List.mem_reverse.1 hc)
  -- Read from its end, the path is the name, a dot and the path before
  have hback : (path ++ "." ++ name).toList.reverse =
      name.toList.reverse ++ '.' :: path.toList.reverse := by
    rw [toList_child]
    simp
  unfold splitLastDot?
  simp only [hback, List.dropWhile_append_of_pos hall, List.takeWhile_append_of_pos hall]
  simp

/-! ### Looking up a path -/

namespace Layout

/-- The container of the schema that names lead to from a container. -/
def infoBelow? : ContainerInfo → List String → Option ContainerInfo
  | c, [] => some c
  | c, name :: names =>
    (c.schema.child? name).bind fun child =>
      infoBelow? ⟨c.path ++ "." ++ name, some c.path, child⟩ names

end Layout

namespace Schema

open Layout

/-- The names of children are segments. -/
theorem WellNamed.isSegment_child {s : Schema} (h : s.WellNamed) :
    ∀ n ∈ KeyMap.keys s.children, IsSegment n := by
  obtain ⟨name, fs, cs, hs, ks, is⟩ := s
  intro n hn
  have hmem : n ∈ names (.mk name fs cs hs ks is) :=
    List.mem_append_right _ (List.mem_append_right _ (List.mem_append_right _ hn))
  exact isSegment_of_isIdentifier (h.isIdentifier n hmem)

mutual

/-- Names lead to every container of a schema. -/
theorem exists_pathBelow (path : String) (parent : Option String) :
    ∀ (s : Schema), s.Built → ∀ c ∈ s.containersAt path parent,
      ∃ names, (∀ n ∈ names, IsSegment n) ∧ c.path = pathBelow path names
  | .mk name fields computed handlers children inherited, hs, c, hc => by
    rw [containersAt, List.mem_cons] at hc
    rcases hc with rfl | hc
    · -- The container itself is reached without a name
      exact ⟨[], by simp, rfl⟩
    · obtain ⟨n, names, hn, -, hpath⟩ := exists_pathBelow_child path children
        hs.wellNamed.isSegment_child hs.wellNamed.children c hc
      exact ⟨n :: names, hn, hpath⟩

/-- Each container below one of the children has a path that goes on with the child's name. -/
theorem exists_pathBelow_child (path : String) :
    ∀ (children : List (String × Schema)), (∀ n ∈ KeyMap.keys children, IsSegment n) →
      (∀ c ∈ children, c.2.Built) → ∀ c ∈ childContainersAt path children,
      ∃ name names, (∀ n ∈ name :: names, IsSegment n) ∧ name ∈ KeyMap.keys children ∧
        c.path = pathBelow path (name :: names)
  | [], _, _, c, hc => nomatch hc
  | (n, child) :: children, hid, hbuilt, c, hc => by
    obtain ⟨hidn, hid⟩ := List.forall_mem_cons.1 hid
    obtain ⟨hchild, hbuilt⟩ := List.forall_mem_cons.1 hbuilt
    rw [childContainersAt, List.mem_append] at hc
    rcases hc with hc | hc
    · -- The container is the first child or stands below it
      obtain ⟨names, hnames, hpath⟩ := exists_pathBelow _ _ child hchild c hc
      exact ⟨n, names, List.forall_mem_cons.2 ⟨hidn, hnames⟩, List.mem_cons_self, hpath⟩
    · obtain ⟨n', names, hnames, hn', hpath⟩ :=
        exists_pathBelow_child path children hid hbuilt c hc
      exact ⟨n', names, hnames, List.mem_cons_of_mem _ hn', hpath⟩

end

mutual

/-- The container that names lead to is the one with their path. -/
theorem findContainer?_pathBelow (path : String) (parent : Option String) :
    ∀ (s : Schema), s.Built → ∀ names : List String, (∀ n ∈ names, IsSegment n) →
      findContainer? (s.containersAt path parent) (pathBelow path names) =
        infoBelow? ⟨path, parent, s⟩ names
  | .mk name fields computed handlers children inherited, _, [], _ => by
    simp [containersAt, findContainer?, pathBelow, infoBelow?]
  | .mk name fields computed handlers children inherited, hs, n :: ns, hnames => by
    have hw := hs.wellNamed
    -- Names lead away from the container
    have hne : path ≠ pathBelow path (n :: ns) := (pathBelow_ne path n ns).symm
    have hbelow := findContainer?_childPathBelow path children hw.nodup_children hw.isSegment_child
      hw.children n ns hnames
    rw [infoBelow?, containersAt, findContainer?, List.find?_cons_of_neg (by simpa using hne)]
    exact hbelow

/-- Below a container it is the child of the first name where the rest leads on. -/
theorem findContainer?_childPathBelow (path : String) :
    ∀ (children : List (String × Schema)), (KeyMap.keys children).Nodup →
      (∀ m ∈ KeyMap.keys children, IsSegment m) → (∀ c ∈ children, c.2.Built) →
      ∀ (n : String) (ns : List String), (∀ m ∈ n :: ns, IsSegment m) →
      findContainer? (childContainersAt path children) (pathBelow path (n :: ns)) =
        (KeyMap.find? n children).bind fun child =>
          infoBelow? ⟨path ++ "." ++ n, some path, child⟩ ns
  | [], _, _, _, _, _, _ => rfl
  | (m, child) :: children, hnodup, hid, hbuilt, n, ns, hnames => by
    obtain ⟨hm, hnodup⟩ := List.nodup_cons.1 hnodup
    obtain ⟨hidm, hid⟩ := List.forall_mem_cons.1 hid
    obtain ⟨hchild, hbuilt⟩ := List.forall_mem_cons.1 hbuilt
    have hrest := findContainer?_childPathBelow path children hnodup hid hbuilt n ns hnames
    rw [findContainer?] at hrest
    rw [findContainer?, childContainersAt, List.find?_append, hrest]
    by_cases heq : n = m
    · -- The first child is meant: its own containers answer, and no later child has its name
      subst heq
      have hnone : KeyMap.find? n children = none := KeyMap.find?_eq_none_iff.2 hm
      have hfirst := findContainer?_pathBelow (path ++ "." ++ n) (some path) child hchild ns
        (List.forall_mem_cons.1 hnames).2
      rw [findContainer?] at hfirst
      rw [pathBelow_cons, hfirst, hnone]
      simp [KeyMap.find?]
    · -- Every path below the other child has its name as a segment
      have hnone : (containersAt (path ++ "." ++ m) (some path) child).find?
          (fun c => decide (c.path = pathBelow path (n :: ns))) = none := by
        refine List.find?_eq_none.2 fun c hc hpath => ?_
        obtain ⟨ms, hms, hbelow⟩ := exists_pathBelow _ _ child hchild c hc
        have hsegments : ∀ x ∈ m :: ms, IsSegment x := List.forall_mem_cons.2 ⟨hidm, hms⟩
        have hsame : pathBelow path (n :: ns) = pathBelow path (m :: ms) :=
          (of_decide_eq_true hpath).symm.trans hbelow
        exact heq (List.cons.inj (pathBelow_injective hnames hsegments hsame)).1
      rw [hnone]
      simp [KeyMap.find?, heq]

end

/-- Looking up any text among the containers of a schema: it has to be the path itself, or name the
children on the way. -/
theorem findContainer?_containersAt {s : Schema} (hs : s.Built) (path : String)
    (parent : Option String) (p : String) :
    findContainer? (s.containersAt path parent) p =
      if p = path then some ⟨path, parent, s⟩
      else (Container.segmentsBelow? path p).bind (infoBelow? ⟨path, parent, s⟩) := by
  split
  · next heq =>
    subst heq
    exact findContainer?_pathBelow p parent s hs [] (by simp)
  · next hne =>
    cases hread : Container.segmentsBelow? path p with
    | some names =>
      obtain ⟨-, hsegments, rfl⟩ := segmentsBelow?_eq_some_iff.1 hread
      -- The text is read as names, whose containers are known
      exact findContainer?_pathBelow path parent s hs names hsegments
    | none =>
      -- A container of this path would have let the names be read
      refine List.find?_eq_none.2 fun c hc hpath => ?_
      obtain ⟨names, hsegments, hbelow⟩ := exists_pathBelow path parent s hs c hc
      have hp : p = pathBelow path names := (of_decide_eq_true hpath).symm.trans hbelow
      -- The text is not the path itself, so there are segments to be read off it
      have hnames : names ≠ [] := by
        rintro rfl
        exact hne hp
      rw [segmentsBelow?_eq_some_iff.2 ⟨hnames, hsegments, hp⟩] at hread
      cases hread

end Schema

end ReactiveState
