/-! # Identifiers

The names of containers, fields, computed fields, handlers and children.  An identifier is an ASCII
letter or an underscore followed by ASCII letters, digits and underscores; so it is never empty and
never holds the dot that separates the segments of a path. -/

namespace ReactiveState

/-- An ASCII letter or an underscore. -/
def isIdentifierStart (c : Char) : Bool :=
  c = '_' || c.isAlpha

/-- An ASCII letter, a digit or an underscore. -/
def isIdentifierRest (c : Char) : Bool :=
  c = '_' || c.isAlphanum

/-- Whether the text is an identifier. -/
def isIdentifier (s : String) : Bool :=
  match s.toList with
  | [] => false
  | c :: cs => isIdentifierStart c && cs.all isIdentifierRest

theorem ne_dot_of_isIdentifierRest {c : Char} (h : isIdentifierRest c = true) : c ≠ '.' := by
  rintro rfl
  exact absurd h (by decide)

theorem isIdentifierRest_of_isIdentifierStart {c : Char} (h : isIdentifierStart c = true) :
    isIdentifierRest c = true := by
  simp only [isIdentifierStart, isIdentifierRest, Char.isAlphanum, Bool.or_eq_true] at *
  exact h.imp id .inl

/-- An identifier holds no dot. -/
theorem dot_notMem_of_isIdentifier {s : String} (h : isIdentifier s = true) : '.' ∉ s.toList := by
  unfold isIdentifier at h
  split at h
  · exact absurd h (by decide)
  · next c cs heq =>
    rw [Bool.and_eq_true, List.all_eq_true] at h
    rw [heq, List.mem_cons]
    -- The dot is neither a first character nor a later one
    rintro (rfl | hm)
    · exact ne_dot_of_isIdentifierRest (isIdentifierRest_of_isIdentifierStart h.1) rfl
    · exact ne_dot_of_isIdentifierRest (h.2 _ hm) rfl

end ReactiveState
