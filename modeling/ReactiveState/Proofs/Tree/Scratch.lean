import ReactiveState.Proofs.Expr.Evaluation
import ReactiveState.Proofs.Layout.Compiled
import ReactiveState.Tree

/-!
# Evaluation from scratch

`Tree.scratch` is the plain meaning of a field: a stored field has its value, and a computed field
has the value of its expression with its dependencies evaluated the same way.  No cache is looked
at.

* `fromScratch_scratch` and `FromScratch.eq_scratch`: it is the one function with this property,
* `scratch_congr`: it looks at no stored field that the field does not read, directly or through
  others.
-/

namespace ReactiveState

namespace Layout

/-- The answer for a field: its stored value, or the value of its expression with the given answers
for what it reads. -/
def answer (l : Layout) (stored? : FieldKey → Option Value) (source : FieldKey → Evaluated)
    (k : FieldKey) : Evaluated :=
  match stored? k with
  | some v => .ok v
  | none =>
    match l.computed? k with
    | some e => e.evalWith source
    | none => .error (.unknownField k)

/-- The answer for a field from stored values, with fields evaluated inside each other at most
`depth` deep. -/
def evaluate (l : Layout) (stored? : FieldKey → Option Value) : Nat → FieldKey → Evaluated
  | 0 => fun k => .error (.unknownField k)
  | depth + 1 => l.answer stored? (evaluate l stored? depth)

end Layout

namespace Tree

/-- The value of a field, evaluated from the stored fields alone. -/
def scratch (l : Layout) (t : Tree) (k : FieldKey) : Evaluated :=
  l.evaluate t.stored? (l.computedCount + 1) k

/-- The source answers every field from the stored values and its own answers. -/
def FromScratch (l : Layout) (t : Tree) (source : FieldKey → Evaluated) : Prop :=
  ∀ k, source k = l.answer t.stored? source k

end Tree

namespace Layout

variable {l : Layout} {stored? stored?' : FieldKey → Option Value}
  {source source' : FieldKey → Evaluated} {k d : FieldKey}

theorem Sound.rank_lt (hl : l.Sound) (h : l.Reads k d) : l.rank d < l.rank k :=
  Layout.rank_lt hl.idxOf_lt h

theorem Sound.rank_le (hl : l.Sound) (k : FieldKey) : l.rank k ≤ l.computedCount := by
  rw [rank]
  split
  · next hk => exact List.idxOf_lt_length_of_mem ((hl.mem_order k).2 hk)
  · exact Nat.zero_le _

/-- The answer for a field looks at the answers for what it reads. -/
theorem answer_congr (hk : stored? k = stored?' k)
    (h : ∀ d, l.Reads k d → source d = source' d) :
    l.answer stored? source k = l.answer stored?' source' k := by
  unfold answer
  rw [hk]
  cases stored?' k with
  | some v => rfl
  | none =>
    cases he : l.computed? k with
    | none => rfl
    | some e => exact Expr.evalWith_congr fun d hd => h d ⟨e, he, hd⟩

/-- Beyond the rank of the field more depth changes nothing. -/
theorem Sound.evaluate_depth (hl : l.Sound) {depth depth' : Nat} (h : l.rank k < depth)
    (h' : l.rank k < depth') : l.evaluate stored? depth k = l.evaluate stored? depth' k := by
  induction depth generalizing depth' k with
  | zero => exact absurd h (Nat.not_lt_zero _)
  | succ depth ih =>
    obtain ⟨depth', rfl⟩ := Nat.exists_eq_add_one_of_ne_zero (Nat.ne_zero_of_lt h')
    -- What the field reads ranks lower, so a step less is deep enough for it
    refine answer_congr rfl fun d hd => ih ?_ ?_
    · have := hl.rank_lt hd
      omega
    · have := hl.rank_lt hd
      omega

/-- Stored fields that are not read, directly or through others, are not looked at. -/
theorem evaluate_congr {depth : Nat} (hk : stored? k = stored?' k)
    (h : ∀ d, Relation.TransGen l.Reads k d → stored? d = stored?' d) :
    l.evaluate stored? depth k = l.evaluate stored?' depth k := by
  induction depth generalizing k with
  | zero => rfl
  | succ depth ih =>
    exact answer_congr hk fun d hd =>
      ih (h d (.single hd)) fun d' hd' => h d' (.head hd hd')

end Layout

namespace Tree

variable {l : Layout} {t t' : Tree} {k : FieldKey}

/-- The values from scratch answer every field by its stored value or by its expression. -/
theorem fromScratch_scratch (hl : l.Sound) (t : Tree) : FromScratch l t (t.scratch l) := by
  intro k
  refine Layout.answer_congr rfl fun d hd => hl.evaluate_depth ?_ ?_
  · have := hl.rank_lt hd
    have := hl.rank_le k
    omega
  · have := hl.rank_le d
    omega

/-- There is one function that answers from scratch. -/
theorem FromScratch.eq_scratch (hl : l.Sound) {source : FieldKey → Evaluated}
    (h : FromScratch l t source) (k : FieldKey) : source k = t.scratch l k := by
  -- At every depth above the rank, by induction on the depth
  suffices ∀ depth, l.rank k < depth → source k = l.evaluate t.stored? depth k from
    this _ (Nat.lt_succ_of_le (hl.rank_le k))
  intro depth
  induction depth generalizing k with
  | zero => exact fun hk => absurd hk (Nat.not_lt_zero _)
  | succ depth ih =>
    intro hk
    rw [h k]
    refine Layout.answer_congr rfl fun d hd => ih d ?_
    have := hl.rank_lt hd
    omega

/-- A stored field has its stored value from scratch. -/
theorem scratch_stored {v : Value} (hl : l.Sound) (h : t.stored? k = some v) :
    t.scratch l k = .ok v := by
  rw [fromScratch_scratch hl t k, Layout.answer, h]

/-- A computed field has the value of its expression over the values from scratch. -/
theorem scratch_computed {e : Expr} (hl : l.Sound) (h : t.stored? k = none)
    (hk : l.computed? k = some e) : t.scratch l k = e.evalWith (t.scratch l) := by
  rw [fromScratch_scratch hl t k, Layout.answer, h, hk]

/-- A field that is neither stored nor computed is unknown. -/
theorem scratch_unknown (hl : l.Sound) (h : t.stored? k = none) (hk : l.computed? k = none) :
    t.scratch l k = .error (.unknownField k) := by
  rw [fromScratch_scratch hl t k, Layout.answer, h, hk]

/-- Trees with the same stored values answer alike. -/
theorem scratch_eq_of_values_eq (h : t'.values = t.values) : t'.scratch l = t.scratch l := by
  have hstored : t'.stored? = t.stored? := by
    funext k
    simp only [stored?, h]
  funext k
  rw [scratch, scratch, hstored]

theorem scratch_congr (hk : t'.stored? k = t.stored? k)
    (h : ∀ d, Relation.TransGen l.Reads k d → t'.stored? d = t.stored? d) :
    t'.scratch l k = t.scratch l k :=
  Layout.evaluate_congr hk h

end Tree

end ReactiveState
