import ReactiveState.Proofs.Tree.Refresh

/-!
# What the client holds

A client that knows the stored values and what it was told of the computed fields can be asked for
any field (`Tree.held`).  A field is `Undisturbed` when what the client holds of it is what its
expression gives on what the client holds of everything else.  Where nothing else is left, the
client holds every value there is from scratch (`upToDate_of_undisturbed`): fields that fail are
held with an old value, but no field that succeeds has read one of them.
-/

namespace ReactiveState

namespace Tree

/-- What a client that knows the stored values holds of a field. -/
def held (t : Tree) (k : FieldKey) : Evaluated :=
  match t.stored? k with
  | some v => .ok v
  | none =>
    match t.synced? k with
    | some v => .ok v
    | none => .error (.unknownField k)

/-- What the client holds of the field is the value of its expression on what the client holds. -/
def Undisturbed (l : Layout) (t : Tree) (k : FieldKey) : Prop :=
  ∀ w, t.synced? k = some w → l.answer t.stored? t.held k = .ok w

/-- The client was told the value from scratch. -/
def Told (l : Layout) (t : Tree) (k : FieldKey) : Prop :=
  ∃ v, t.scratch l k = .ok v ∧ t.synced? k = some v

/-- The client holds every value that a computed field has from scratch. -/
def UpToDate (l : Layout) (t : Tree) : Prop :=
  ∀ k v, l.isComputed k = true → t.scratch l k = .ok v → t.synced? k = some v

variable {l : Layout} {t t' : Tree} {k d : FieldKey}

theorem held_stored {v : Value} (h : t.stored? k = some v) : t.held k = .ok v := by
  rw [held, h]

theorem held_computed {v : Value} (h : t.stored? k = none) (hs : t.synced? k = some v) :
    t.held k = .ok v := by
  rw [held, h, hs]

/-- Trees that agree on a field are asked for it with the same answer. -/
theorem held_congr (h : t'.stored? k = t.stored? k) (hs : t'.synced? k = t.synced? k) :
    t'.held k = t.held k := by
  rw [held, held, h, hs]

/-- A field stays undisturbed while what it reads and what is held of it stay. -/
theorem Undisturbed.congr (h : Undisturbed l t k) (hk : t'.stored? k = t.stored? k)
    (hsynced : t'.synced? k = t.synced? k) (hd : ∀ d, l.Reads k d → t'.held d = t.held d) :
    Undisturbed l t' k := by
  intro w hw
  rw [Layout.answer_congr hk hd]
  exact h w (hsynced ▸ hw)

/-- An answer that is a value stays the answer for a source that gives the same values, and may give
more. -/
theorem answer_ok_mono {stored? : FieldKey → Option Value} {source source' : FieldKey → Evaluated}
    {v : Value} (h : ∀ d, l.Reads k d → ∀ w, source d = .ok w → source' d = .ok w)
    (hv : l.answer stored? source k = .ok v) : l.answer stored? source' k = .ok v := by
  unfold Layout.answer at hv ⊢
  cases hs : stored? k with
  | some w => simpa only [hs] using hv
  | none =>
    cases he : l.computed? k with
    | none => simp only [hs, he] at hv; cases hv
    | some e =>
      simp only [hs, he] at hv ⊢
      exact Expr.evalWith_ok_mono (fun d hd => h d ⟨e, he, hd⟩) hv

/-- A value from scratch is held, once the client was told it. -/
theorem held_of_scratch (hl : l.Sound) {w : Value}
    (h : l.isComputed k = true → t.synced? k = some w) (hw : t.scratch l k = .ok w) :
    t.held k = .ok w := by
  cases hs : t.stored? k with
  | some v =>
    rw [held_stored hs, ← hw, scratch_stored hl hs]
  | none =>
    cases hk : l.isComputed k with
    | true => exact held_computed hs (h hk)
    | false =>
      -- A field that is neither stored nor computed has no value
      rw [scratch_unknown hl hs (by simpa [Layout.isComputed] using hk)] at hw
      cases hw

/-- Where each field fails, was told its value or is undisturbed, the client is up to date. -/
theorem upToDate_of_undisturbed (hl : l.Sound) (ht : t.Coherent l)
    (h : ∀ k, l.isComputed k = true →
      (∃ e, t.scratch l k = .error e) ∨ Told l t k ∨ Undisturbed l t k) : UpToDate l t := by
  intro k v hk hv
  -- By induction on the rank: what the field reads is up to date before the field is
  induction hn : l.rank k using Nat.strongRecOn generalizing k v with
  | ind n ih =>
    rcases h k hk with ⟨e, he⟩ | ⟨w, hw, hheld⟩ | hundisturbed
    · cases he.symm.trans hv
    · rw [hheld, Except.ok.inj (hw.symm.trans hv)]
    · obtain ⟨w, hw⟩ := exists_synced ht hk
      -- Everything that was read for the value is held as it is from scratch
      have hanswer : l.answer t.stored? t.held k = .ok v := by
        refine answer_ok_mono (fun d hd u hu => ?_) (fromScratch_scratch hl t k ▸ hv)
        exact held_of_scratch hl (fun hd' => ih _ (hn ▸ hl.rank_lt hd) d u hd' hu rfl) hu
      rw [hw, Except.ok.inj ((hundisturbed w hw).symm.trans hanswer)]

/-- In an up-to-date tree a field that was told its value is undisturbed. -/
theorem UpToDate.undisturbed (hl : l.Sound) (h : UpToDate l t) (hk : Told l t k) :
    Undisturbed l t k := by
  obtain ⟨v, hv, hheld⟩ := hk
  intro w hw
  obtain rfl : v = w := Option.some.inj (hheld.symm.trans hw)
  refine answer_ok_mono (fun d hd u hu => ?_) (fromScratch_scratch hl t k ▸ hv)
  exact held_of_scratch hl (fun hd' => h d u hd' hu) hu

end Tree

end ReactiveState
