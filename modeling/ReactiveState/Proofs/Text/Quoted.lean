import ReactiveState.Text.Quoted

/-!
# Quoted texts are read back

What `Quoted.encode` writes after the opening quote is read up to the closing one, and gives the
string again (`Quoted.read_escapeAll`).
-/

namespace ReactiveState.Quoted

theorem hexValue?_hexDigit : ∀ n < 16, hexValue? (hexDigit n) = some n := by decide

/-- A control character is read back from its four digits. -/
theorem hexUnit?_control {n : Nat} (h : n < 32) :
    hexUnit? '0' '0' (hexDigit (n / 16)) (hexDigit (n % 16)) = some n := by
  have hzero : hexValue? '0' = some 0 := by decide
  simp only [hexUnit?, hzero, hexValue?_hexDigit (n / 16) (by omega),
    hexValue?_hexDigit (n % 16) (by omega), Option.bind_eq_bind, Option.bind_some]
  have hn : ((0 * 16 + 0) * 16 + n / 16) * 16 + n % 16 = n := by omega
  rw [hn]
  rfl

/-- An escape of one letter is one piece. -/
theorem pieces_simple {e c : Char} (hu : e ≠ 'u') (hc : simpleEscape? e = some c)
    (cs : List Char) :
    pieces ('\\' :: e :: cs) = (pieces cs).map fun p => (.char c :: p.1, p.2) := by
  rw [pieces.eq_def]
  split
  · next heq => cases heq
  · next heq => cases heq
  · -- The letter is not the one that a code begins with
    next heq => exact absurd (List.cons.inj (List.cons.inj heq).2).1 hu
  · next heq =>
    obtain ⟨rfl, rfl⟩ := List.cons.inj (List.cons.inj heq).2
    rw [hc]
    cases pieces cs <;> rfl
  · next hescape heq =>
    obtain ⟨rfl, rfl⟩ := List.cons.inj heq
    exact absurd rfl (hescape e cs rfl)

/-- The written form of a character is one piece. -/
theorem pieces_escape (c : Char) (cs : List Char) :
    pieces (escape c ++ cs) = (pieces cs).map fun p => (.char c :: p.1, p.2) := by
  have hmap : ∀ x : Option (List Piece × List Char),
      (x.bind fun p => some (Piece.char c :: p.1, p.2)) =
        x.map fun p => (.char c :: p.1, p.2) := fun x => by cases x <;> rfl
  unfold escape
  -- Seven characters have an escape of one letter
  split
  · next h => subst h; exact pieces_simple (by decide) rfl cs
  split
  · next h => subst h; exact pieces_simple (by decide) rfl cs
  split
  · next h => subst h; exact pieces_simple (by decide) rfl cs
  split
  · next h => subst h; exact pieces_simple (by decide) rfl cs
  split
  · next h => subst h; exact pieces_simple (by decide) rfl cs
  split
  · next h => subst h; exact pieces_simple (by decide) rfl cs
  split
  · next h => subst h; exact pieces_simple (by decide) rfl cs
  split
  · next h =>
    -- A control character is written by its code, which is no surrogate
    have hsurrogate : ¬(0xD800 ≤ c.toNat ∧ c.toNat < 0xE000) := by omega
    simp only [List.cons_append, List.nil_append, pieces, hexUnit?_control h, Option.bind_eq_bind,
      Option.bind_some, if_neg hsurrogate, Char.ofNat_toNat]
    exact hmap (pieces cs)
  · next hquote hbackslash _ _ _ _ _ hcontrol =>
    -- Any other character is written as it is, and is neither a quote nor a backslash
    rw [List.singleton_append, pieces.eq_def]
    split
    · next heq => cases heq
    · next heq => exact absurd (List.cons.inj heq).1 hquote
    · next heq => exact absurd (List.cons.inj heq).1 hbackslash
    · next heq => exact absurd (List.cons.inj heq).1 hbackslash
    · next heq =>
      obtain ⟨rfl, rfl⟩ := List.cons.inj heq
      rw [if_neg hcontrol]
      exact hmap (pieces cs)

/-- A written text is read as its characters, up to the closing quote. -/
theorem pieces_escapeAll (cs rest : List Char) :
    pieces (escapeAll cs ++ '"' :: rest) = some (cs.map .char, rest) := by
  induction cs with
  | nil => rfl
  | cons c cs ih => rw [escapeAll, List.append_assoc, pieces_escape, ih]; rfl

/-- Characters that are no codes are joined as they are. -/
theorem join?_chars (cs : List Char) : join? (cs.map .char) = some cs := by
  induction cs with
  | nil => rfl
  | cons c cs ih => rw [List.map_cons, join?, ih]; rfl

/-- The body of a quoted text gives the text. -/
theorem read_escapeAll (s : String) (rest : List Char) :
    read (escapeAll s.toList ++ '"' :: rest) = some (some s, rest) := by
  simp only [read, pieces_escapeAll, Option.map_some, join?_chars, String.ofList_toList]

end ReactiveState.Quoted
