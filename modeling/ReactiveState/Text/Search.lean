/-! # Searching and splitting

A text is found inside another, and cut at every occurrence of a separator, from the left and
without overlap.  Both work on characters; `split` and `List.intercalate` undo each other for a
separator that is not empty. -/

namespace ReactiveState.Text

/-- What follows `start`, if the characters begin with it. -/
def dropStart? : List Char → List Char → Option (List Char)
  | [], cs => some cs
  | _ :: _, [] => none
  | a :: start, c :: cs => if a = c then dropStart? start cs else none

/-- Whether `part` occurs in the characters. -/
def isInside (part : List Char) : List Char → Bool
  | [] => part.isEmpty
  | c :: cs => part.isPrefixOf (c :: cs) || isInside part cs

/-- Cuts at each occurrence of a separator that is not empty.  `skip` counts the characters of a
separator just found that are still to be passed over, `piece` holds the current piece backward. -/
def splitFrom (separator : List Char) : Nat → List Char → List Char → List (List Char)
  | _, piece, [] => [piece.reverse]
  | skip + 1, piece, _ :: cs => splitFrom separator skip piece cs
  | 0, piece, c :: cs =>
    if separator.isPrefixOf (c :: cs) then
      piece.reverse :: splitFrom separator (separator.length - 1) [] cs
    else splitFrom separator 0 (c :: piece) cs

/-- The pieces between the separators.  An empty separator cuts into single characters. -/
def split (s separator : String) : List String :=
  if separator.isEmpty then s.toList.map fun c => String.ofList [c]
  else (splitFrom separator.toList 0 [] s.toList).map String.ofList

/-- Whether `part` occurs in `s`. -/
def contains (s part : String) : Bool :=
  isInside part.toList s.toList

end ReactiveState.Text
