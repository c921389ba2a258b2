import ReactiveState.Proofs.Flush.History
import ReactiveState.Proofs.Flush.Twins

/-!
# Snapshots that fail

A snapshot notes one computed field after the other as held by the client, and stops at the first
field that fails to evaluate.  Nothing is delivered then, but the notes that it has made of the
fields before stay (`snapshot_failed`); these are the fields in `passed`.

If there was nothing to tell of the fields in `passed`, the failed snapshot leaves no more behind
than caches, and no later call gives back anything else than it would have without it
(`Reachable.failed_snapshot`).  That caches are not seen in what calls give back is
`SameButCaches.outcomes_eq`: every operation respects the relation, and so do flushes
(`Alike.flush`).  And whatever there was to tell of a field in `passed` is lost: the next flush
would have told it, and now does not (`History.Reached.lost_in_failed_snapshot`).
-/

namespace ReactiveState

namespace Tree

variable {l : Layout} {t t' t₁ t₁' : Tree} {k : FieldKey} {ks : List FieldKey}

/-! ### What calls give back -/

/-- What a call gives back. -/
inductive Outcome where
  | value (result : Except StateError Value)
  | done (result : Except StateError Unit)
  | flushed (result : Except FlushError Delta)
  | snapshot (result : Except StateError Delta)

namespace Call

/-- What a call gives back, and the tree after it. -/
def outcome (l : Layout) (t : Tree) : Call → Outcome × Tree
  | .get k => (.value ((Tree.get l k).run t).1, ((Tree.get l k).run t).2)
  | .set k v => (.done ((Tree.set l k v).run t).1, ((Tree.set l k v).run t).2)
  | .modifyField k f =>
    (.done ((Tree.modifyField l k f).run t).1, ((Tree.modifyField l k f).run t).2)
  | .flush => (.flushed (Tree.flush l t).1, (Tree.flush l t).2)
  | .snapshot => (.snapshot ((Tree.snapshot l).run t).1, ((Tree.snapshot l).run t).2)

/-- What calls give back, one after another, whether they fail or not. -/
def outcomes (l : Layout) : List Call → Tree → List Outcome
  | [], _ => []
  | c :: cs, t => (c.outcome l t).1 :: outcomes l cs (c.outcome l t).2

end Call

/-! ### Caches -/

/-- Two trees that differ in caches at most. -/
structure SameButCaches (l : Layout) (t t' : Tree) : Prop extends Alike l t t' where
  dirty : t.dirty = t'.dirty
  unsent : t.unsent = t'.unsent

/-- More or less may be cached on either side. -/
theorem SameButCaches.refill (h : SameButCaches l t t') (hbare : t₁.bare = t.bare)
    (ht₁ : t₁.Coherent l) (hbare' : t₁'.bare = t'.bare) (ht₁' : t₁'.Coherent l) :
    SameButCaches l t₁ t₁' where
  left := ht₁
  right := ht₁'
  stored k := by rw [stored?_of_bare_eq hbare, stored?_of_bare_eq hbare', h.stored]
  synced k := by rw [synced?_of_bare_eq hbare, synced?_of_bare_eq hbare', h.synced]
  dirty := by rw [dirty_of_bare_eq hbare, dirty_of_bare_eq hbare', h.dirty]
  unsent := by rw [unsent_of_bare_eq hbare, unsent_of_bare_eq hbare', h.unsent]

/-- Trees that differ in caches do so after the same assignment. -/
theorem SameButCaches.assign (hl : l.Sound) (h : SameButCaches l t t')
    (hk : (l.field? k).isSome = true) (v : Value) :
    SameButCaches l (t.assign l k v) (t'.assign l k v) where
  left := h.left.assign hl hk v
  right := h.right.assign hl hk v
  stored m := by rw [stored?_assign, stored?_assign, h.stored]
  synced m := by rw [synced?_assign, synced?_assign, h.synced]
  dirty := by rw [dirty_assign, dirty_assign, h.dirty]
  unsent := by rw [unsent_assign, unsent_assign, h.unsent]

/-- Trees that differ in caches do so after the client was told the same. -/
theorem SameButCaches.sync (h : SameButCaches l t t') (k : FieldKey) (v : Value) :
    SameButCaches l (t.modifySlot k (·.sync v)) (t'.modifySlot k (·.sync v)) where
  left := h.left.sync v
  right := h.right.sync v
  stored m := h.stored m
  synced m := by rw [synced?_modifySlot_sync, synced?_modifySlot_sync, h.synced]
  dirty := h.dirty
  unsent := h.unsent

section Operations

open TreeM

variable (hl : l.Sound)

include hl

/-- Reading gives the value from scratch, or fails for want of the field. -/
theorem respects_get (k : FieldKey) : Respects (SameButCaches l) (get l k) := by
  intro t t' h
  by_cases hk : (l.field? k).isSome = true ∨ l.isComputed k = true
  · -- Both trees give the value from scratch, and only their caches are filled
    obtain ⟨t₁, hrun, hbare, ht₁⟩ := get_run hl h.left hk
    obtain ⟨t₁', hrun', hbare', ht₁'⟩ := get_run hl h.right hk
    rw [hrun, hrun', h.scratch_eq]
    exact ⟨rfl, h.refill hbare ht₁ hbare' ht₁'⟩
  · -- Neither tree has a value or a slot
    obtain ⟨hfield, hcomputed⟩ := not_or.1 hk
    have hmissing : ∀ {t : Tree}, t.Coherent l → t.stored? k = none ∧ t.slot? k = none :=
      fun ht => ⟨by simpa [hfield] using ht.stored k, by simpa [hcomputed] using ht.slot k⟩
    rw [run_get, run_get, (hmissing h.left).1, (hmissing h.left).2, (hmissing h.right).1,
      (hmissing h.right).2]
    split
    · exact ⟨rfl, h⟩
    · exact ⟨rfl, h⟩

/-- Assigning is refused alike, or assigns the same. -/
theorem respects_set (k : FieldKey) (v : Value) : Respects (SameButCaches l) (set l k v) := by
  intro t t' h
  rw [set, run_bind_ok (TreeM.run_get t), run_bind_ok (TreeM.run_get t'), h.stored]
  cases hk : l.field? k with
  | none => exact respects_throw _ h
  | some decl =>
    cases hv : decl.type.coerce v with
    | none =>
      simp only [hv]
      exact respects_throw _ h
    | some w =>
      simp only [hv]
      -- What is stored is the same in both trees, and so is whether there is a place for the value
      split
      · exact ⟨rfl, h.assign hl (by rw [hk]; rfl) w⟩
      · exact respects_throw _ h

/-- A reading and then an assignment. -/
theorem respects_modifyField (k : FieldKey) (f : Value → Value) :
    Respects (SameButCaches l) (modifyField l k f) :=
  (respects_get hl k).bind fun v => respects_set hl k (f v)

/-- Collecting values, by induction on the keys. -/
theorem respects_collect (ks : List FieldKey) (delta : Delta) :
    Respects (SameButCaches l) (collect l ks delta) := by
  induction ks generalizing delta with
  | nil => exact respects_pure delta
  | cons k ks ih =>
    -- The value is the same on both trees, and so is the delta it goes into
    refine (respects_get hl k).bind fun v => ?_
    split
    · exact Respects.bind (respects_modify fun _ _ h => h.sync k v) fun _ => ih _
    · exact (respects_pure ()).bind fun _ => ih _

/-- Taking a snapshot. -/
theorem respects_snapshot : Respects (SameButCaches l) (snapshot l) := by
  refine (respects_collect hl _ _).bind fun delta => ?_
  refine Respects.bind (respects_modify fun t t' h => ?_) fun _ => respects_pure delta
  exact ⟨⟨h.left.marks _ _, h.right.marks _ _, h.stored, h.synced⟩, h.dirty, rfl⟩

/-- Flushes tell the same, and leave trees that differ in caches. -/
theorem SameButCaches.flush (h : SameButCaches l t t') :
    (Tree.flush l t).1 = (Tree.flush l t').1 ∧
      SameButCaches l (Tree.flush l t).2 (Tree.flush l t').2 := by
  obtain ⟨hresult, halike, hunsent⟩ := h.toAlike.flush hl (fun k => by rw [h.dirty]) h.unsent
  refine ⟨hresult, halike, ?_, hunsent⟩
  rw [flush_snd, flush_snd]

/-- One call. -/
theorem SameButCaches.outcome (h : SameButCaches l t t') (c : Call) :
    (c.outcome l t).1 = (c.outcome l t').1 ∧
      SameButCaches l (c.outcome l t).2 (c.outcome l t').2 := by
  cases c with
  | get k => exact (respects_get hl k h).imp_left (congrArg Outcome.value)
  | set k v => exact (respects_set hl k v h).imp_left (congrArg Outcome.done)
  | modifyField k f => exact (respects_modifyField hl k f h).imp_left (congrArg Outcome.done)
  | flush => exact (h.flush hl).imp_left (congrArg Outcome.flushed)
  | snapshot => exact (respects_snapshot hl h).imp_left (congrArg Outcome.snapshot)

/-- Calls give the same on trees that differ in caches. -/
theorem SameButCaches.outcomes_eq (h : SameButCaches l t t') (cs : List Call) :
    Call.outcomes l cs t = Call.outcomes l cs t' := by
  induction cs generalizing t t' with
  | nil => rfl
  | cons c cs ih =>
    obtain ⟨heq, hafter⟩ := h.outcome hl c
    rw [Call.outcomes, Call.outcomes, heq, ih hafter]

end Operations

/-! ### The notes of a failed snapshot -/

/-- The computed fields that come before the first field that fails. -/
def passed (l : Layout) (t : Tree) (ks : List FieldKey) : List FieldKey :=
  (ks.takeWhile fun k => (t.scratch l k).isOk).filter l.isComputed

/-- What the client is noted to hold of a field after it was told. -/
def heldAfter (l : Layout) (t : Tree) (k : FieldKey) : Option Value :=
  (news l t k).toOption.join.or (t.synced? k)

/-- A walk does not pass a field that fails. -/
theorem passed_cons_of_error {e : EvalError} (h : t.scratch l k = .error e) :
    passed l t (k :: ks) = [] := by
  simp [passed, h, Except.isOk, Except.toBool]

/-- A walk passes a field with a value, and notes it if it is computed. -/
theorem passed_cons_of_ok {v : Value} (h : t.scratch l k = .ok v) :
    passed l t (k :: ks) =
      if l.isComputed k then k :: passed l t ks else passed l t ks := by
  simp [passed, h, Except.isOk, Except.toBool, List.filter_cons]

/-- A field without news leaves the client with what it holds. -/
theorem heldAfter_of_news_eq_none (h : news l t k = .ok none) : heldAfter l t k = t.synced? k := by
  rw [heldAfter, h]
  rfl

/-- After a field with a value was passed, the client counts as holding this value or an equal
one. -/
theorem heldAfter_of_ok {v w : Value} (hv : t.scratch l k = .ok v) (hw : t.synced? k = some w) :
    heldAfter l t k = some (if w == v then w else v) := by
  rw [heldAfter, news_of_ok hv hw, hw]
  cases w == v <;> rfl

/-- Telling a value leaves `heldAfter` at its field and all others alone. -/
theorem synced?_sync_eq (ht : t.Coherent l) (hk : l.isComputed k = true) {v : Value}
    (hv : t.scratch l k = .ok v) (m : FieldKey) : (t.modifySlot k (·.sync v)).synced? m =
      if m = k then heldAfter l t k else t.synced? m := by
  obtain ⟨w, hw⟩ := exists_synced ht hk
  -- Telling changes a note only where there is news, and so does `heldAfter`
  rw [synced?_modifySlot_sync, heldAfter_of_ok hv hw]
  split
  · next hm =>
    rw [hm, hw]
    rfl
  · rfl

/-- Which fields are passed depends on what they are from scratch. -/
theorem passed_congr (h : t'.scratch l = t.scratch l) (ks : List FieldKey) :
    passed l t' ks = passed l t ks := by
  rw [passed, passed, h]

/-- What counts as held depends on the value from scratch and on what was held. -/
theorem heldAfter_congr (h : t'.scratch l = t.scratch l) (hsynced : t'.synced? k = t.synced? k) :
    heldAfter l t' k = heldAfter l t k := by
  rw [heldAfter, heldAfter, news, news, h, hsynced]

/-- Telling a value again changes no note. -/
theorem heldAfter_of_told (h : t'.scratch l = t.scratch l) {v : Value} (hv : t.scratch l k = .ok v)
    (ht : t.Coherent l) (hk : l.isComputed k = true) (hsynced : t'.synced? k = heldAfter l t k) :
    heldAfter l t' k = heldAfter l t k := by
  obtain ⟨w, hw⟩ := exists_synced ht hk
  rw [heldAfter_of_ok hv hw] at hsynced ⊢
  rw [heldAfter_of_ok (h ▸ hv) hsynced]
  cases hwv : w == v <;> simp [hwv]

/-- A collection that fails has noted the fields before the failing one, by induction on the fields.
A field that comes twice is noted twice, with the same value. -/
theorem collect_failed (hl : l.Sound)
    (hks : ∀ k ∈ ks, (l.field? k).isSome = true ∨ l.isComputed k = true) (ht : t.Coherent l)
    {delta : Delta} {e : StateError} (h : (collect l ks delta).run t = (.error e, t')) :
    Refreshed l t t' ∧
      ∀ m, t'.synced? m = if m ∈ passed l t ks then heldAfter l t m else t.synced? m := by
  induction ks generalizing t delta with
  | nil => cases h
  | cons k ks ih =>
    obtain ⟨hk, hks⟩ := List.forall_mem_cons.1 hks
    obtain ⟨t₁, hrun, hbare, ht₁⟩ := get_run hl ht hk
    have h₁ := refreshed_of_bare_eq hbare ht₁
    have hsynced := synced?_of_bare_eq hbare
    cases hv : t.scratch l k with
    | error err =>
      -- The walk stops here, and only caches were filled
      rw [hv] at hrun
      rw [collect, run_bind_error hrun] at h
      obtain rfl : t₁ = t' := congrArg Prod.snd h
      exact ⟨h₁, fun m => by simp [passed_cons_of_error hv, hsynced]⟩
    | ok v =>
      rw [hv] at hrun
      rw [collect, run_bind_ok hrun] at h
      rw [passed_cons_of_ok hv]
      cases hcomputed : l.isComputed k with
      | false =>
        -- A stored field leaves no note
        rw [hcomputed] at h
        obtain ⟨hrest, hnotes⟩ := ih hks ht₁ h
        refine ⟨h₁.trans hrest, fun m => ?_⟩
        rw [hnotes, passed_congr h₁.scratch_eq, heldAfter_congr h₁.scratch_eq (hsynced m), hsynced]
        rfl
      | true =>
        rw [hcomputed] at h
        have hv₁ : t₁.scratch l k = .ok v := by rw [h₁.scratch_eq, hv]
        have h₂ := h₁.trans (refreshed_sync ht₁ hv₁)
        obtain ⟨hrest, hnotes⟩ := ih hks h₂.coherent h
        -- The note of this field, and no other so far
        have hnote : ∀ m, (t₁.modifySlot k (·.sync v)).synced? m =
            if m = k then heldAfter l t k else t.synced? m := fun m => by
          rw [synced?_sync_eq ht₁ hcomputed hv₁, hsynced,
            heldAfter_congr h₁.scratch_eq (hsynced k)]
        refine ⟨h₂.trans hrest, fun m => ?_⟩
        rw [hnotes, passed_congr h₂.scratch_eq, hnote]
        -- The rest may note this field once more
        by_cases hm : m = k
        · subst hm
          rw [heldAfter_of_told h₂.scratch_eq hv ht hcomputed (by rw [hnote, if_pos rfl])]
          simp
        · rw [heldAfter_congr h₂.scratch_eq (by rw [hnote, if_neg hm])]
          simp [hm]

/-- What a failed snapshot leaves behind: the fields that it passed count as told. -/
theorem snapshot_failed (hl : l.Sound) (ht : t.Coherent l) {e : StateError}
    (h : (snapshot l).run t = (.error e, t')) :
    Refreshed l t t' ∧ ∀ k, t'.synced? k =
      if k ∈ passed l t l.clientKeys then heldAfter l t k else t.synced? k := by
  -- The client is only told fields that are there
  have hks : ∀ k ∈ l.clientKeys, (l.field? k).isSome = true ∨ l.isComputed k = true :=
    fun k hk => ((hl.mem_clientKeys k).1 hk).imp (fun ⟨decl, hdecl, _⟩ => by rw [hdecl]; rfl) id
  rw [snapshot, run_bind] at h
  rcases hcollect : (collect l l.clientKeys .empty).run t with ⟨e' | delta, t₁⟩
  · rw [hcollect] at h
    obtain rfl : t₁ = t' := congrArg Prod.snd h
    exact collect_failed hl hks ht hcollect
  · -- Once everything is collected nothing fails any more
    rw [hcollect] at h
    cases h

/-- A failed snapshot leaves the values and all marks as they are, and notes exactly the computed
fields before the failing one as told.  If there was nothing to tell of any of these, then whatever
is called afterwards gives back what it would have without the snapshot. -/
theorem Reachable.failed_snapshot {root : Schema} (hroot : root.Built)
    (hl : Layout.compile root = .ok l) (ht : Reachable l t) {e : StateError}
    (hfailed : (Tree.snapshot l).run t = (.error e, t')) :
    (t'.values = t.values ∧ t'.dirty = t.dirty ∧ t'.unsent = t.unsent ∧
      ∀ k, t'.synced? k =
        if k ∈ passed l t l.clientKeys then heldAfter l t k else t.synced? k) ∧
    ((∀ k ∈ passed l t l.clientKeys, news l t k = .ok none) →
      ∀ cs, Call.outcomes l cs t' = Call.outcomes l cs t) := by
  have hsound := Layout.compile_sound hroot hl
  have hcoherent := ht.coherent hsound
  obtain ⟨hrefreshed, hnotes⟩ := snapshot_failed hsound hcoherent hfailed
  refine ⟨⟨hrefreshed.values, hrefreshed.dirty, hrefreshed.unsent, hnotes⟩, fun hnothing cs => ?_⟩
  -- Without news every note is the one from before
  have hsynced : ∀ k, t'.synced? k = t.synced? k := fun k => by
    rw [hnotes]
    split
    · next hk => exact heldAfter_of_news_eq_none (hnothing k hk)
    · rfl
  -- The trees differ in their caches only, and no call can tell these apart
  have hsame : SameButCaches l t' t :=
    ⟨⟨hrefreshed.coherent, hcoherent, hrefreshed.stored?_eq, hsynced⟩, hrefreshed.dirty,
      hrefreshed.unsent⟩
  exact hsame.outcomes_eq hsound cs

/-! ### What is lost -/

/-- A flush tells nothing of a field that the client holds. -/
theorem get?_flush_of_news_eq_none (hl : l.Sound) (ht : t.Coherent l)
    (hk : l.isComputed k = true) (hnews : news l t k = .ok none) :
    (delivered (Tree.flush l t).1).get? k.path k.field = none := by
  obtain ⟨n, -, hrounds⟩ := rounds_settled hl t
  rw [delivered_flush]
  -- No refresh changes what the client holds of the field, as there is nothing to tell of it
  refine (hrounds.keeps hl (I := fun s => Refreshed l t s.tree ∧ news l s.tree k = .ok none ∧
    s.delta.get? k.path k.field = none) (fun _ h => h) ?_ ⟨.refl ht, hnews, ?_⟩).2.2
  · -- One refresh, of this field or of another one
    rintro s m hm ⟨hrefreshed, hnone, hdelta⟩
    obtain ⟨t₁, hrun, ht₁, hsynced⟩ := refreshInto_run hl hrefreshed.coherent hm
    have hsame : t₁.synced? k = s.tree.synced? k := by
      rw [hsynced]
      split
      · next hkm => rw [← hkm, hnone]; rfl
      · rfl
    have hnone₁ : news l t₁ k = .ok none := by
      rw [news, ht₁.scratch_eq, hsame]
      exact hnone
    rw [hrun]
    rcases hm : news l s.tree m with e | _ | v
    · exact ⟨hrefreshed.trans ht₁, hnone₁, hdelta⟩
    · exact ⟨hrefreshed.trans ht₁, hnone₁, hdelta⟩
    · refine ⟨hrefreshed.trans ht₁, hnone₁, ?_⟩
      have hkm : k ≠ m := by
        rintro rfl
        rw [hnone] at hm
        cases hm
      change (s.delta.insert m.path m.field v).get? k.path k.field = none
      rw [Delta.get?_insert_key, if_neg hkm, hdelta]
  · -- Before the first refresh the delta has stored fields only
    change (dirtyDelta l t).get? k.path k.field = none
    rw [get?_dirtyDelta, ht.stored?_eq_none hl hk, ite_self]

/-- What there was to tell of a field before the failing one would have been told by the next flush,
and is not told after the failed snapshot. -/
theorem History.Reached.lost_in_failed_snapshot {h : History} {root : Schema} (hroot : root.Built)
    (hl : Layout.compile root = .ok l) (hh : History.Reached l h)
    (hexact : Value.ExactOn h.occurred) {e : StateError}
    (hfailed : (Tree.snapshot l).run h.tree = (.error e, t')) {v : Value}
    (hk : k ∈ passed l h.tree l.clientKeys) (hnews : news l h.tree k = .ok (some v)) :
    (delivered (Tree.flush l h.tree).1).get? k.path k.field = some v ∧
      (delivered (Tree.flush l t').1).get? k.path k.field = none := by
  have hsound := Layout.compile_sound hroot hl
  have hh' := hh.sound hsound hexact
  have hcoherent := hh'.tracked.coherent
  have hcomputed : l.isComputed k = true := (List.mem_filter.1 hk).2
  obtain ⟨hrefreshed, hnotes⟩ := snapshot_failed hsound hcoherent hfailed
  -- The client does not hold the value before, and is noted to hold it afterwards
  obtain ⟨hv, hnot⟩ : h.tree.scratch l k = .ok v ∧ h.tree.synced? k ≠ some v := by
    cases hscratch : h.tree.scratch l k with
    | error err => cases hnews.symm.trans (news_of_error hscratch)
    | ok u =>
      rcases hh'.comparable.news_cases hcoherent hcomputed hscratch with ⟨-, hsame⟩ | ⟨hne, hsome⟩
      · cases hnews.symm.trans hsame
      · obtain rfl := Option.some.inj (Except.ok.inj (hnews.symm.trans hsome))
        exact ⟨rfl, hne⟩
  have hheld : t'.synced? k = some v := by
    rw [hnotes, if_pos hk, heldAfter, hnews]
    rfl
  have hflushed := flush_spec hsound hh'.tracked hh'.comparable
  -- The flush without the snapshot tells the value; after it there is no news of the field
  refine ⟨(hflushed.delta_computed k v hcomputed).2 ⟨hv, hnot⟩,
    get?_flush_of_news_eq_none hsound hrefreshed.coherent hcomputed ?_⟩
  have hv' : t'.scratch l k = .ok v := by rw [hrefreshed.scratch_eq, hv]
  rcases (hh'.comparable.refreshed hrefreshed).news_cases hrefreshed.coherent hcomputed hv' with
    ⟨-, hnone⟩ | ⟨hne, -⟩
  · exact hnone
  · exact absurd hheld hne

end Tree

/-! ### A sample -/

namespace Schema

/-- An amount, less a fee, and as shared among people. -/
def bill : Schema :=
  .mk "app" [⟨"amount", .int, .int 10, false, none⟩, ⟨"people", .int, .int 1, false, none⟩]
    [("net", .binary .sub (.field (.relative "amount") .int) (.literal (.int 1)) .int),
      ("share", .binary .floorDiv (.field (.relative "amount") .int)
        (.field (.relative "people") .int) .int)] [] [] []

/-- The bill is made by the builder. -/
theorem built_bill : bill.Built := by
  have hstart : Built (.mk "app" [] [] [] [] []) := .start (show start "app" = _ from rfl)
  have hamount := hstart.declare
    (show declare _ ⟨"amount", .int, .int 10, false, none⟩ = _ from rfl)
  have hpeople := hamount.declare
    (show declare _ ⟨"people", .int, .int 1, false, none⟩ = _ from rfl)
  have hnet := hpeople.declareComputed (show declareComputed _ "net"
    (.binary .sub (.field (.relative "amount") .int) (.literal (.int 1)) .int) = _ from rfl)
  exact hnet.declareComputed (show declareComputed _ "share"
    (.binary .floorDiv (.field (.relative "amount") .int) (.field (.relative "people") .int)
      .int) = _ from rfl)

end Schema

/-- The layout of the bill. -/
def Layout.bill : Layout := (Layout.compile Schema.bill).toOption.get rfl

/-- The bill compiles. -/
theorem Layout.compile_bill : Layout.compile Schema.bill = .ok Layout.bill := rfl

namespace Tree

/-- The started bill, then shared among no one. -/
def unshared : Tree :=
  ((set Layout.bill ⟨"app", "people"⟩ (.int 0)).run
    ((start Layout.bill).toOption.getD (instantiate Layout.bill))).2

/-- The bill that is shared among no one is reached by one assignment. -/
theorem reachable_unshared : Reachable Layout.bill unshared := .set (.start rfl) _ _

/-- The client holds the net amount already, so the snapshot that fails at the share is not seen
afterwards. -/
theorem failed_snapshot_unshared :
    (∃ e, ((snapshot Layout.bill).run unshared).1 = .error e) ∧
      passed Layout.bill unshared Layout.bill.clientKeys = [⟨"app", "net"⟩] ∧
      ∀ cs, Call.outcomes Layout.bill cs ((snapshot Layout.bill).run unshared).2 =
        Call.outcomes Layout.bill cs unshared := by
  have hfailed : ∃ e, ((snapshot Layout.bill).run unshared).1 = .error e := ⟨_, rfl⟩
  have hpassed : passed Layout.bill unshared Layout.bill.clientKeys = [⟨"app", "net"⟩] := by
    decide +kernel
  refine ⟨hfailed, hpassed, ?_⟩
  obtain ⟨e, he⟩ := hfailed
  have hspec := reachable_unshared.failed_snapshot Schema.built_bill Layout.compile_bill
    (Prod.ext he rfl : (snapshot Layout.bill).run unshared = (.error e, _))
  -- The only field that was passed is the net amount, which has no news
  refine hspec.2 fun k hk => ?_
  rw [hpassed] at hk
  obtain rfl := List.mem_singleton.1 hk
  rfl

/-- A bill whose amount was changed is shared among no one.  The flush tells the new net amount,
though the share fails; after a failed snapshot it does not, and so it is not the same flush. -/
theorem flush_ne_after_failed_snapshot :
    let t := ((set Layout.bill ⟨"app", "amount"⟩ (.int 20)).run unshared).2
    let t' := ((snapshot Layout.bill).run t).2
    Reachable Layout.bill t ∧ ((snapshot Layout.bill).run t).1.isOk = false ∧
      (delivered (flush Layout.bill t).1).keys =
        [⟨"app", "amount"⟩, ⟨"app", "net"⟩, ⟨"app", "people"⟩] ∧
      (delivered (flush Layout.bill t').1).keys = [⟨"app", "amount"⟩, ⟨"app", "people"⟩] ∧
      (flush Layout.bill t').1 ≠ (flush Layout.bill t).1 := by
  intro t t'
  -- The deltas of both flushes have different keys
  have htold : (delivered (flush Layout.bill t).1).keys =
      [⟨"app", "amount"⟩, ⟨"app", "net"⟩, ⟨"app", "people"⟩] := by
    decide +kernel
  have hlost : (delivered (flush Layout.bill t').1).keys =
      [⟨"app", "amount"⟩, ⟨"app", "people"⟩] := by
    decide +kernel
  refine ⟨.set reachable_unshared _ _, rfl, htold, hlost, fun heq => ?_⟩
  rw [heq, htold] at hlost
  exact absurd hlost (by decide)

end Tree

end ReactiveState
