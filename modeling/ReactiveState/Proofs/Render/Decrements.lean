import ReactiveState.Proofs.Render.Signs

/-!
# Decrements in rendered source

Where the scan of rendered source stops at a decrement.  `scans_render` goes through the lowering
rules: their own texts are neutral, and the only sign that can come to stand directly before an
operand is that of a negation.  So the source holds a decrement exactly if the operand of some
negation begins with a minus sign.

A literal number is rendered without parentheses, so this happens: `Built.minus_signs` says that
for built expressions it happens exactly where a negative literal is negated, and `minus_glued` has
examples of it and of a negative literal as the base of a power.
-/

namespace ReactiveState

namespace Render

variable {a b : String} {p q : Prop}

/-! ### Texts one behind the other -/

/-- Of two texts in a row there is a decrement in one of them, if no sign of the one meets a sign of
the other. -/
theorem Scans.text (h : Scans a.toList p) (h' : Scans b.toList q) :
    Scans (a ++ b).toList (p ∨ q) := by
  rw [String.toList_append]
  exact h.append h'

/-- A text without signs behind adds no decrement. -/
theorem Scans.before (h : Scans a.toList p) (b : String) (hb : Neutral b.toList) :
    Scans (a ++ b).toList p :=
  (h.text hb.scans).congr (or_iff_left id)

/-- Nor does one in front. -/
theorem Scans.behind (h : Scans b.toList q) (a : String) (ha : Neutral a.toList) :
    Scans (a ++ b).toList q :=
  (ha.scans.text h).congr (or_iff_right id)

/-- The dots by which a field is reached are free of signs. -/
theorem neutral_chain (t : ValueType) : Neutral t.chain.toList := by
  have hdot : Neutral ".".toList := rfl
  have hoptional : Neutral "?.".toList := rfl
  unfold ValueType.chain
  split <;> assumption

/-- So is a name in quotes, as signs in quotes are text. -/
theorem neutral_quoted (name : String) : Neutral (Quoted.text name).toList := by
  rw [Quoted.text, String.toList_ofList]
  exact neutral_encode name

/-- An identifier has neither signs nor quotes in it. -/
theorem plain_of_isIdentifier {name : String} (h : isIdentifier name = true) :
    Plain name.toList := by
  have hrest : ∀ c, isIdentifierRest c = true → c ≠ '-' ∧ c ≠ '"' := fun c hc => by
    constructor <;> rintro rfl <;> exact absurd hc (by decide)
  unfold isIdentifier at h
  split at h
  · cases h
  · -- What may begin an identifier may also stand further back
    next c cs heq =>
    rw [Bool.and_eq_true, List.all_eq_true] at h
    rw [heq]
    exact List.forall_mem_cons.2 ⟨hrest c (isIdentifierRest_of_isIdentifierStart h.1),
      fun d hd => hrest d (h.2 d hd)⟩

/-! ### Operations -/

/-- The source of a negation glues its sign to one that the operand begins with.  No other operation
on one operand adds a sign. -/
theorem scans_unary (op : UnaryOp) (t : ValueType) (h : Scans a.toList p) (hne : a.toList ≠ []) :
    Scans (unary op t a).toList ((op = .neg ∧ a.toList.head? = some '-') ∨ p) := by
  -- Negation is the only operation that writes a sign in front of its operand
  by_cases hneg : op = .neg
  · subst hneg
    have hsign : Scans ("-" ++ a).toList (a.toList.head? = some '-' ∨ p) := by
      rw [String.toList_append]
      exact h.minus hne
    have htext : unary .neg t a = "(" ++ ("-" ++ a) ++ ")" := by simp [unary, ← String.append_assoc]
    rw [htext]
    exact ((hsign.behind "(" rfl).before ")" rfl).congr (by simp)
  · -- The others write names, brackets and dots around it
    refine Scans.congr (p := p) ?_ (by simp [hneg])
    cases op with
    | neg => exact absurd rfl hneg
    | not => exact (h.behind "(!" rfl).before ")" rfl
    | length =>
      rw [unary]
      split_ifs
      · exact (h.behind "Object.keys(" rfl).before ").length" rfl
      · exact (h.before _ (neutral_chain t)).before "length" rfl
    | stringify => exact (h.behind "String(" rfl).before ")" rfl
    | annotate _ => exact h
    | call f =>
      cases f with
      | abs => exact (h.behind "Math.abs(" rfl).before ")" rfl
      | round => exact (h.behind "Math.round(" rfl).before ")" rfl
      | upper => exact h.before ".toUpperCase()" rfl
      | lower => exact h.before ".toLowerCase()" rfl
      | trim => exact h.before ".trim()" rfl
      | keys => exact (h.behind "Object.keys(" rfl).before ")" rfl
      | values => exact (h.behind "Object.values(" rfl).before ")" rfl

/-- Two operands around a symbol without signs bring their own decrements and no other. -/
theorem scans_infixed (ha : Scans a.toList p) (hb : Scans b.toList q) (symbol : String)
    (h : Neutral (" " ++ symbol ++ " ").toList) : Scans (infixed a symbol b).toList (p ∨ q) := by
  have htext : infixed a symbol b = "(" ++ (a ++ (" " ++ symbol ++ " ") ++ b) ++ ")" := by
    simp [infixed, ← String.append_assoc]
  rw [htext]
  exact (((ha.before _ h).text hb).behind "(" rfl).before ")" rfl

/-- So do the operands of a repetition, which stand in the other order. -/
theorem scans_repeated (ha : Scans a.toList p) (hb : Scans b.toList q) :
    Scans (repeated a b).toList (q ∨ p) :=
  (((hb.behind "Array.from(\x7b length: " rfl).before " \x7d, () => " rfl).text ha).before
    ").flat()" rfl

/-- Reading an attribute adds no sign. -/
theorem scans_attribute (t : ValueType) (ha : Scans a.toList p) (name : String) :
    Scans (attributeSource t a name).toList p := by
  rw [attributeSource]
  split_ifs with h
  · exact (ha.before _ (neutral_chain t)).before _ (plain_of_isIdentifier h).neutral
  · exact ((ha.before "?.[" rfl).before _ (neutral_quoted name)).before "]" rfl

/-- No operation on two operands adds a sign that is glued to another.  The right operand of an
attribute is a literal key. -/
theorem scans_binary {op : BinaryOp} {s t : ValueType} {name : Option String}
    (ha : Scans a.toList p) (hb : Scans b.toList q)
    (hattr : op = .attr → (∃ key, name = some key) ∧ ¬ q) :
    Scans (binary op s t a b name).toList (p ∨ q) := by
  cases op with
  | add =>
    simp only [binary]
    split
    · exact (((ha.behind "[..." rfl).before ", ..." rfl).text hb).before "]" rfl
    · exact scans_infixed ha hb "+" rfl
  | mul =>
    simp only [binary]
    split
    · exact ((ha.before ".repeat(" rfl).text hb).before ")" rfl
    · -- A text on the right is repeated all the same, so the operands change places
      exact (((hb.before ".repeat(" rfl).text ha).before ")" rfl).congr or_comm
    · exact (scans_repeated ha hb).congr or_comm
    · exact scans_repeated hb ha
    · exact scans_infixed ha hb "*" rfl
  | floorDiv => exact (((ha.behind "Math.floor(" rfl).before " / " rfl).text hb).before ")" rfl
  | contains =>
    simp only [binary]
    split_ifs
    · exact (((ha.behind "Object.hasOwn(" rfl).before ", " rfl).text hb).before ")" rfl
    · exact (((ha.before _ (neutral_chain s)).before "includes(" rfl).text hb).before ")" rfl
  | index =>
    simp only [binary, indexed]
    split_ifs
    · exact ((ha.before "?.[" rfl).text hb).before "]" rfl
    · exact ((ha.before "[" rfl).text hb).before "]" rfl
    · exact (((ha.before _ (neutral_chain s)).before "at(" rfl).text hb).before ")" rfl
  | attr =>
    obtain ⟨⟨key, rfl⟩, hq⟩ := hattr rfl
    exact (scans_attribute s ha key).congr (by simp [hq])
  | call f =>
    cases f with
    | min => exact (((ha.behind "Math.min(" rfl).before ", " rfl).text hb).before ")" rfl
    | max => exact (((ha.behind "Math.max(" rfl).before ", " rfl).text hb).before ")" rfl
    | join => exact ((ha.before ".join(" rfl).text hb).before ")" rfl
    | split => exact ((ha.before ".split(" rfl).text hb).before ")" rfl
  -- The sign of a subtraction stands between blanks
  | sub => exact scans_infixed ha hb "-" rfl
  | div => exact scans_infixed ha hb "/" rfl
  | mod => exact scans_infixed ha hb "%" rfl
  | pow => exact scans_infixed ha hb "**" rfl
  | lt => exact scans_infixed ha hb "<" rfl
  | le => exact scans_infixed ha hb "<=" rfl
  | gt => exact scans_infixed ha hb ">" rfl
  | ge => exact scans_infixed ha hb ">=" rfl
  | eq => exact scans_infixed ha hb "===" rfl
  | ne => exact scans_infixed ha hb "!==" rfl

/-- Neither do `and` and `or`. -/
theorem scans_logical (op : LogicalOp) (ha : Scans a.toList p) (hb : Scans b.toList q) :
    Scans (logical op a b).toList (p ∨ q) := by
  cases op with
  | and => exact scans_infixed ha hb "&&" rfl
  | or => exact scans_infixed ha hb "||" rfl

end Render

namespace Expr

open Render (Plain Neutral Scan Scans)

variable {e o : Expr} {t : ValueType}

/-! ### Expressions -/

/-- The expression is a negation whose sign stands before another one. -/
def gluesSign : Expr → Prop
  | unary .neg o _ => o.render.toList.head? = some '-'
  | _ => False

/-- The names at the top of the expression that are written without quotes have neither signs nor
quotes in them. -/
def namesPlainly : Expr → Prop
  | field k _ => Plain k.field.toList
  | external name _ _ => Plain name.toList
  | _ => True

/-- If the expression is an attribute, its key is a literal. -/
def keysLiterally : Expr → Prop
  | binary .attr _ r _ => ∃ key, r = literal (.str key)
  | _ => True

/-- Whatever is written without quotes in the source is known well enough to scan it. -/
def Legible (e : Expr) : Prop := ∀ x ∈ e.subexpressions, x.namesPlainly ∧ x.keysLiterally

/-- The operands whose source must not begin with a minus sign: what is negated, and the base of a
power. -/
inductive Exposed (e : Expr) : Expr → Prop where
  | negated {o : Expr} {t : ValueType} (h : unary .neg o t ∈ e.subexpressions) : Exposed e o
  | base {o r : Expr} {t : ValueType} (h : binary .pow o r t ∈ e.subexpressions) : Exposed e o

/-- Among operations on one operand it is negation that may glue signs. -/
theorem gluesSign_unary {op : UnaryOp} : (unary op o t).gluesSign ↔
    op = .neg ∧ o.render.toList.head? = some '-' := by
  cases op <;> simp [gluesSign]

/-- A field with a plain name is written without a decrement. -/
theorem scans_field {k : FieldKey} (h : Plain k.field.toList) :
    Scans (field k t).render.toList False := by
  rw [render, Render.field]
  split_ifs
  · exact h.neutral.scans.behind "self." rfl
  · have hpath := (Render.neutral_quoted k.path).scans.behind "state[" rfl
    exact ((hpath.before "]." rfl).text h.neutral.scans).congr or_self_iff

mutual

/-- The source of an expression holds a decrement exactly if a negation glues its sign to another
one. -/
theorem scans_render : ∀ e : Expr, e.Legible →
    Scans e.render.toList (∃ x ∈ e.subexpressions, x.gluesSign)
  | .literal v, _ =>
    (render_literal v).neutral.scans.congr (by simp [subexpressions, gluesSign])
  | .field k t, h =>
    (scans_field (h _ (mem_subexpressions_self _)).1).congr
      (by simp [subexpressions, gluesSign])
  | .unary op e t, h => by
    have he := scans_render e fun x hx => h x (List.mem_cons_of_mem _ hx)
    rw [render]
    -- The operand has its own decrements, and the operation may glue one more
    refine (Render.scans_unary op e.type he (head?_render e).1).congr ?_
    rw [subexpressions, List.exists_mem_cons_iff, gluesSign_unary]
  | .binary op l r t, h => by
    have hl := scans_render l fun x hx => h x (by simp [subexpressions, hx])
    have hr := scans_render r fun x hx => h x (by simp [subexpressions, hx])
    have hkey := (h _ (mem_subexpressions_self _)).2
    rw [render]
    refine (Render.scans_binary hl hr ?_).congr
      (by simp [subexpressions, gluesSign, or_and_right, exists_or])
    -- A reading of an attribute is written with its key, which the build has left literal
    rintro rfl
    obtain ⟨key, rfl⟩ := hkey
    exact ⟨⟨key, rfl⟩, by simp [subexpressions, gluesSign]⟩
  | .logical op l r t, h => by
    have hl := scans_render l fun x hx => h x (by simp [subexpressions, hx])
    have hr := scans_render r fun x hx => h x (by simp [subexpressions, hx])
    rw [render]
    refine (Render.scans_logical op hl hr).congr
      (by simp [subexpressions, gluesSign, or_and_right, exists_or])
  | .cond c y n t, h => by
    have hc := scans_render c fun x hx => h x (by simp [subexpressions, hx])
    have hy := scans_render y fun x hx => h x (by simp [subexpressions, hx])
    have hn := scans_render n fun x hx => h x (by simp [subexpressions, hx])
    -- The three parts, with what is written between them
    have hparts := ((((hc.behind "(" rfl).before " ? " rfl).text hy).before " : " rfl).text hn
    rw [render]
    exact (hparts.before ")" rfl).congr
      (by simp [subexpressions, gluesSign, or_and_right, exists_or, or_assoc])
  | .external name args t, h => by
    have hargs := scans_renderArgs args fun x hx => h x (List.mem_cons_of_mem _ hx)
    -- A name that is legible has no sign in it
    have hname : Neutral (name ++ "(").toList := by
      rw [String.toList_append]
      exact (h _ (mem_subexpressions_self _)).1.neutral.append rfl
    rw [render]
    exact ((hargs.behind _ hname).before ")" rfl).congr (by simp [subexpressions, gluesSign])

/-- Arguments are written with commas between them, so each has its own decrements. -/
theorem scans_renderArgs : ∀ es : List Expr,
    (∀ x ∈ argSubexpressions es, x.namesPlainly ∧ x.keysLiterally) →
      Scans (", ".intercalate (renderArgs es)).toList (∃ x ∈ argSubexpressions es, x.gluesSign)
  | [], _ => Scans.congr (Neutral.scans (show Neutral [] from rfl)) (by simp [argSubexpressions])
  | [e], h => by
    have he := scans_render e fun x hx => h x (by simp [argSubexpressions, hx])
    simpa [renderArgs, argSubexpressions] using he
  | e :: e' :: es, h => by
    have he := scans_render e fun x hx => h x (by simp [argSubexpressions, hx])
    have hes := scans_renderArgs (e' :: es) fun x hx => h x (List.mem_append_right _ hx)
    -- The first argument, a comma and the others
    have htext : ", ".intercalate (renderArgs (e :: e' :: es)) =
        e.render ++ ", " ++ ", ".intercalate (renderArgs (e' :: es)) :=
      String.intercalate_cons_cons
    rw [htext, argSubexpressions]
    exact ((he.before ", " rfl).text hes).congr (by simp [or_and_right, exists_or])

end

/-! ### Built expressions -/

/-- The attributes of an expression that was built are read by literal keys. -/
theorem Built.keysLiterally (he : e.Built) : e.keysLiterally := by
  unfold Expr.keysLiterally
  split
  · next l r t =>
    obtain ⟨-, -, ht⟩ := he.wellTyped
    -- The rule of attributes refuses a key that is no literal
    cases hkey : r.literalText? with
    | none =>
      rw [hkey] at ht
      cases ht
    | some key => exact ⟨key, literalText?_eq_some hkey⟩
  · trivial

/-- An exposed operand is a part of the expression. -/
theorem Exposed.mem_subexpressions (h : e.Exposed o) : o ∈ e.subexpressions := by
  cases h with
  | negated h =>
    exact mem_subexpressions_trans (List.mem_cons_of_mem _ (mem_subexpressions_self o)) h
  | base h =>
    exact mem_subexpressions_trans
      (List.mem_cons_of_mem _ (List.mem_append_left _ (mem_subexpressions_self o))) h

/-- Where names are plain, no call of an external function begins with a minus sign. -/
theorem not_leadsSigned (hnames : ∀ x ∈ e.subexpressions, x.namesPlainly) : ¬ e.LeadsSigned := by
  rintro ⟨name, args, t, hlead, hname⟩
  have hplain := hnames _ (hlead ▸ leading_mem_subexpressions e)
  exact Plain.head?_ne hplain hname

/-- Of the operands that must not begin with a minus sign, exactly the negative literals do,
annotated or not, and calls of external functions with such a name.  Where names are plain, the
source holds a decrement exactly if a negative literal is negated somewhere. -/
theorem Built.minus_signs (he : e.Built) :
    (∀ o, e.Exposed o → (o.render.toList.head? = some '-' ↔ o.IsNegative ∨ o.LeadsSigned)) ∧
    ((∀ x ∈ e.subexpressions, x.namesPlainly) →
      (∀ o, e.Exposed o → (o.render.toList.head? = some '-' ↔ o.IsNegative)) ∧
      Scans e.render.toList (∃ o t, .unary .neg o t ∈ e.subexpressions ∧ IsNegative o)) := by
  have hexposed : ∀ o, e.Exposed o →
      (o.render.toList.head? = some '-' ↔ o.IsNegative ∨ o.LeadsSigned) :=
    fun o ho => (he.subexpression ho.mem_subexpressions).head?_iff
  refine ⟨hexposed, fun hnames => ?_⟩
  have hplain : ∀ o, e.Exposed o → (o.render.toList.head? = some '-' ↔ o.IsNegative) :=
    fun o ho => (hexposed o ho).trans <| or_iff_left <|
      not_leadsSigned fun x hx => hnames x (mem_subexpressions_trans hx ho.mem_subexpressions)
  refine ⟨hplain, (scans_render e fun x hx =>
    ⟨hnames x hx, (he.subexpression hx).keysLiterally⟩).congr ⟨?_, ?_⟩⟩
  · -- A glued sign is in front of a negation's operand, which is exposed and so begins with a
    -- sign only as a negative literal
    rintro ⟨x, hx, hglues⟩
    unfold gluesSign at hglues
    split at hglues
    · next o t => exact ⟨o, t, hx, (hplain o (.negated hx)).1 hglues⟩
    · cases hglues
  · rintro ⟨o, t, hx, hnegative⟩
    exact ⟨_, hx, (hplain o (.negated hx)).2 hnegative⟩

/-- The opposite of the number -5. -/
def opposite : Expr := .unary .neg (.unary (.annotate .int) (.literal (.int (-5))) .int) .int

/-- The square of the number -2. -/
def square : Expr := .binary .pow (.literal (.int (-2))) (.literal (.int 2)) .int

/-- The negated literal can be built. -/
theorem built_opposite : opposite.Built :=
  .unary (.unary (.literal trivial) (by rintro _ ⟨⟩; trivial) rfl) nofun rfl

/-- So can the power of a negative literal. -/
theorem built_square : square.Built := .binary (.literal trivial) (.literal trivial) rfl

/-- The annotation does not keep the signs apart. -/
theorem minus_signs_opposite : opposite.Built ∧ (∀ x ∈ opposite.subexpressions, x.namesPlainly) ∧
    Scan.code.after opposite.render.toList = .decrement := by
  have hnames : ∀ x ∈ opposite.subexpressions, x.namesPlainly := by
    simp [opposite, subexpressions, namesPlainly]
  refine ⟨built_opposite, hnames, ((built_opposite.minus_signs.2 hnames).2.decrement ?_)⟩
  exact ⟨_, _, List.mem_cons_self, .int (-5), rfl, by decide⟩

/-- A negated negative literal, and a negative literal as the base of a power. -/
theorem minus_glued : opposite.Built ∧ opposite.render = "(--5)" ∧
    square.Built ∧ square.render = "(-2 ** 2)" ∧
    ¬ ∀ e o : Expr, e.Built → e.Exposed o → o.render.toList.head? ≠ some '-' := by
  refine ⟨built_opposite, by decide, built_square, by decide, fun h => ?_⟩
  exact h square _ built_square (.base (mem_subexpressions_self _)) (by decide)

end Expr

end ReactiveState
