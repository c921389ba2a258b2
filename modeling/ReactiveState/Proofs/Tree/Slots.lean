import ReactiveState.Proofs.KeyMap
import ReactiveState.Tree

/-!
# Slots of a tree

What changing one slot does to the views `stored?`, `slot?` and `synced?` of a tree.

Two trees with equal `bare` differ in what is cached at most: they store the same values, and their
clients hold the same.  That is all that a reading may change.
-/

namespace ReactiveState

namespace Slot

variable (s : Slot) (v : Value)

/-- Dropping the cache keeps what the client holds. -/
@[simp] theorem synced_invalidate : s.invalidate.synced = s.synced := rfl

/-- What is stored is cached. -/
@[simp] theorem cached_store : (s.store v).cached = some v := rfl

/-- Noting what the client holds keeps the cache. -/
@[simp] theorem cached_sync : (s.sync v).cached = s.cached := by
  unfold sync
  split <;> rfl

/-- Storing a value touches the cache only. -/
@[simp] theorem invalidate_store : (s.store v).invalidate = s.invalidate := rfl

end Slot

namespace Tree

variable (t : Tree) (k m : FieldKey) (f : Slot → Slot)

/-- The value of a computed field that the client holds. -/
def synced? (t : Tree) (k : FieldKey) : Option Value :=
  (t.slot? k).map Slot.synced

/-- The tree with nothing cached. -/
def bare (t : Tree) : Tree :=
  { t with slots := t.slots.map fun p => (p.1, p.2.invalidate) }

/-- A change of a slot touches nothing but the slots. -/
@[simp] theorem values_modifySlot : (t.modifySlot k f).values = t.values := rfl

@[simp] theorem stored?_modifySlot : (t.modifySlot k f).stored? m = t.stored? m := rfl

@[simp] theorem dirty_modifySlot : (t.modifySlot k f).dirty = t.dirty := rfl

@[simp] theorem unsent_modifySlot : (t.modifySlot k f).unsent = t.unsent := rfl

@[simp] theorem values_bare : t.bare.values = t.values := rfl

@[simp] theorem dirty_bare : t.bare.dirty = t.dirty := rfl

@[simp] theorem unsent_bare : t.bare.unsent = t.unsent := rfl

/-- A change of a slot shows at its own key only. -/
theorem slot?_modifySlot : (t.modifySlot k f).slot? m =
    if m = k then (t.slot? m).map f else t.slot? m :=
  KeyMap.find?_modify k m f t.slots

/-- Slots are neither added nor removed. -/
@[simp] theorem isSome_slot?_modifySlot :
    ((t.modifySlot k f).slot? m).isSome = (t.slot? m).isSome := by
  rw [slot?_modifySlot]
  split <;> simp

/-! ### Caches -/

variable {t k}

/-- A change of one slot that is not seen without the cache is not seen in the bare tree. -/
theorem bare_modifySlot {f : Slot → Slot} (h : ∀ s, (f s).invalidate = s.invalidate) :
    (t.modifySlot k f).bare = t.bare := by
  -- By induction on the slots, as the change goes through them
  have hslots : ∀ m : List (FieldKey × Slot), (KeyMap.modify k f m).map
      (fun p => (p.1, p.2.invalidate)) = m.map fun p => (p.1, p.2.invalidate) := by
    intro m
    induction m with
    | nil => rfl
    | cons p m ih =>
      obtain ⟨k', s⟩ := p
      rw [KeyMap.modify]
      split
      · rw [List.map_cons, List.map_cons, h]
      · rw [List.map_cons, List.map_cons, ih]
  simp only [bare, modifySlot, hslots]

/-- Storing a value in a cache is not seen in the bare tree. -/
theorem bare_store (v : Value) : (t.modifySlot k (·.store v)).bare = t.bare :=
  bare_modifySlot fun s => s.invalidate_store v

/-- Dropping a cache is not seen in the bare tree. -/
theorem bare_invalidate : (t.modifySlot k Slot.invalidate).bare = t.bare :=
  bare_modifySlot fun _ => rfl

section BareEq

variable {t t' : Tree} (h : t'.bare = t.bare)

include h

/-- Trees that differ in caches only have the same stored values. -/
theorem values_of_bare_eq : t'.values = t.values := by
  rw [← values_bare, h, values_bare]

/-- Trees that differ in caches only have the same marks. -/
theorem dirty_of_bare_eq : t'.dirty = t.dirty := by
  rw [← dirty_bare, h, dirty_bare]

/-- Trees that differ in caches only have the same fields to retry. -/
theorem unsent_of_bare_eq : t'.unsent = t.unsent := by
  rw [← unsent_bare, h, unsent_bare]

/-- Trees that differ in caches only hold the same value under each key. -/
theorem stored?_of_bare_eq (k : FieldKey) : t'.stored? k = t.stored? k := by
  rw [stored?, stored?, values_of_bare_eq h]

/-- Trees that differ in caches only have the same slots, caches apart. -/
theorem slot?_of_bare_eq (k : FieldKey) :
    (t'.slot? k).map Slot.invalidate = (t.slot? k).map Slot.invalidate := by
  -- Looking up a key and emptying the slots may be exchanged
  have hslots := congrArg (fun b : Tree => KeyMap.find? k b.slots) h
  simp only [bare, KeyMap.find?_map k fun _ s => Slot.invalidate s] at hslots
  exact hslots

/-- Trees that differ in caches at most have slots for the same fields. -/
theorem isSome_slot?_of_bare_eq (k : FieldKey) : (t'.slot? k).isSome = (t.slot? k).isSome := by
  simpa using congrArg Option.isSome (slot?_of_bare_eq h k)

/-- Trees that differ in caches only have told the client the same. -/
theorem synced?_of_bare_eq (k : FieldKey) : t'.synced? k = t.synced? k := by
  simpa [synced?, Function.comp_def] using
    congrArg (Option.map Slot.synced) (slot?_of_bare_eq h k)

end BareEq

/-! ### Invalidating many fields -/

/-- Dropping many caches is not seen in the bare tree either. -/
theorem bare_foldl_invalidate (ks : List FieldKey) (t : Tree) :
    (ks.foldl (fun t d => t.modifySlot d Slot.invalidate) t).bare = t.bare := by
  induction ks generalizing t with
  | nil => rfl
  | cons d ks ih => exact (ih _).trans bare_invalidate

/-- The slots of the given fields have lost their caches, and all others are as before. -/
theorem slot?_foldl_invalidate (ks : List FieldKey) (t : Tree) (k : FieldKey) :
    (ks.foldl (fun t d => t.modifySlot d Slot.invalidate) t).slot? k =
      if k ∈ ks then (t.slot? k).map Slot.invalidate else t.slot? k := by
  induction ks generalizing t with
  | nil => simp
  | cons d ks ih =>
    rw [List.foldl_cons, ih, slot?_modifySlot]
    by_cases hk : k = d
    · -- A field that is listed twice has lost its cache already
      subst hk
      cases t.slot? k <;> simp [Slot.invalidate]
    · simp [hk]

end Tree

end ReactiveState
