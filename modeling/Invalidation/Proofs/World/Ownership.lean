import Invalidation.Proofs.World.Tables
import Invalidation.World.Call

/-! Who keeps a set alive. A set is *owned* while a handle or a slot has a share in it, and *issued*
    from the moment it is made. Letting go only takes owners away, a record is never lost, and the
    identity of a new set is one that was never issued. -/

namespace Invalidation

namespace World

variable {σ : World}

/-- Somebody has a share in the set. -/
def Owned (σ : World) (s : SetId) : Prop :=
  (∃ h, σ.handleSet? h = some s) ∨ ∃ i, σ.fatSet? i = some s

/-- The set has been made at some time. -/
def Issued (σ : World) : SetId → Prop
  | .ofHandle h => ∃ t, σ.handles.get? h = some t
  | .ofSlot i n => ∃ t, σ.slots.get? i = some t ∧ n < t.promotions

/-! ### Looking objects up -/

theorem handleSet?_eq_some_iff {σ : World} {h : HandleId} {s : SetId} :
    σ.handleSet? h = some s ↔ ∃ t, σ.handles.get? h = some t ∧ t.held = true ∧ t.set = s := by
  unfold handleSet?
  cases σ.handles.get? h with
  | none => simp
  | some t => by_cases ht : t.held = true <;> simp [ht]

theorem slot?_eq_some_iff {σ : World} {i : SlotId} {t : Slot} :
    σ.slot? i = some t ↔ σ.slots.get? i = some t ∧ t.held = true := by
  unfold slot?
  cases σ.slots.get? i with
  | none => simp
  | some u =>
    by_cases hu : u.held = true
    · simp only [hu, Option.bind_eq_bind, Option.bind_some, if_true]
      exact ⟨fun h => ⟨h, Option.some.inj h ▸ hu⟩, fun h => h.1⟩
    · simp only [hu, Option.bind_eq_bind, Option.bind_some]
      refine ⟨fun h => by simp at h, fun h => absurd (Option.some.inj h.1 ▸ h.2) hu⟩

theorem fatSet?_eq_some_iff {σ : World} {i : SlotId} {s : SetId} :
    σ.fatSet? i = some s ↔
      ∃ t, σ.slots.get? i = some t ∧ t.held = true ∧ t.storage = .fat s := by
  have hslot : σ.fatSet? i = some s ↔ ∃ t, σ.slot? i = some t ∧ t.storage = .fat s := by
    unfold fatSet?
    rcases σ.slot? i with _ | ⟨st, n, held⟩
    · simp
    · cases st <;> simp
  simp only [hslot, slot?_eq_some_iff, and_assoc]

theorem slot?_of_fatSet? {i : SlotId} {s : SetId} (h : σ.fatSet? i = some s) :
    ∃ n held, σ.slot? i = some ⟨.fat s, n, held⟩ := by
  unfold fatSet? at h
  split at h
  · next n held hs => exact ⟨n, held, Option.some.inj h ▸ hs⟩
  · cases h

theorem mem_values_of_get? {κ α : Type} [DecidableEq κ] {s : Store κ α} {k : κ} {a : α}
    (h : s.get? k = some a) : a ∈ s.values := List.mem_map_of_mem (Store.mem_pairs_of_get? h)

/-- A set without owners is owned by nobody. -/
theorem not_owned_of_owners_eq_zero {σ : World} {s : SetId} (h : σ.owners s = 0) : ¬ σ.Owned s := by
  obtain ⟨hh, hs⟩ := Nat.add_eq_zero_iff.mp h
  rw [List.countP_eq_zero] at hh hs
  rintro (⟨j, hj⟩ | ⟨i, hi⟩)
  · obtain ⟨t, ht, hheld, hset⟩ := handleSet?_eq_some_iff.mp hj
    exact hh t (mem_values_of_get? ht) (by simp [hheld, hset])
  · obtain ⟨t, ht, hheld, hset⟩ := fatSet?_eq_some_iff.mp hi
    exact hs t (mem_values_of_get? ht) (by simp [hheld, hset])

/-! ### Owners and records under changes to one object -/

theorem owned_of_put_handle {h : HandleId} {t : Handle} {s : SetId}
    (hs : Owned { σ with handles := σ.handles.put h t } s) : t.set = s ∨ σ.Owned s := by
  rcases hs with ⟨j, hj⟩ | hi
  · obtain ⟨u, hu, hheld, hset⟩ := handleSet?_eq_some_iff.mp hj
    rw [Store.get?_put] at hu
    split at hu
    · exact Or.inl (Option.some.inj hu ▸ hset)
    · exact Or.inr (Or.inl ⟨j, handleSet?_eq_some_iff.mpr ⟨u, hu, hheld, hset⟩⟩)
  · exact Or.inr (Or.inr hi)

theorem issued_of_put_handle {h : HandleId} {t : Handle} {s : SetId} (hs : σ.Issued s) :
    Issued { σ with handles := σ.handles.put h t } s := by
  cases s with
  | ofSlot i n => exact hs
  | ofHandle j =>
    obtain ⟨u, hu⟩ := hs
    by_cases e : h = j
    · exact ⟨t, by simp [e]⟩
    · exact ⟨u, by simpa [Store.get?_put, e] using hu⟩

theorem owned_of_put_slot {i : SlotId} {t : Slot} {s : SetId}
    (hs : Owned { σ with slots := σ.slots.put i t } s) : t.storage = .fat s ∨ σ.Owned s := by
  rcases hs with hj | ⟨j, hj⟩
  · exact Or.inr (Or.inl hj)
  · obtain ⟨u, hu, hheld, hset⟩ := fatSet?_eq_some_iff.mp hj
    rw [Store.get?_put] at hu
    split at hu
    · exact Or.inl (Option.some.inj hu ▸ hset)
    · exact Or.inr (Or.inr ⟨j, fatSet?_eq_some_iff.mpr ⟨u, hu, hheld, hset⟩⟩)

theorem issued_of_put_slot {i : SlotId} {t : Slot} {s : SetId}
    (more : ∀ u, σ.slots.get? i = some u → u.promotions ≤ t.promotions) (hs : σ.Issued s) :
    Issued { σ with slots := σ.slots.put i t } s := by
  cases s with
  | ofHandle j => exact hs
  | ofSlot j n =>
    obtain ⟨u, hu, hn⟩ := hs
    by_cases e : i = j
    · subst e
      exact ⟨t, by simp, Nat.lt_of_lt_of_le hn (more u hu)⟩
    · exact ⟨u, by simpa [Store.get?_put, e] using hu, hn⟩

theorem owned_of_dropHandle {h : HandleId} {s : SetId}
    (hs : Owned { σ with handles := σ.handles.modify h fun t => { t with held := false } } s) :
    σ.Owned s := by
  rcases hs with ⟨j, hj⟩ | hi
  · obtain ⟨u, hu, hheld, hset⟩ := handleSet?_eq_some_iff.mp hj
    rw [Store.get?_modify] at hu
    split at hu
    · obtain ⟨u', -, rfl⟩ := Option.map_eq_some_iff.mp hu
      cases hheld
    · exact Or.inl ⟨j, handleSet?_eq_some_iff.mpr ⟨u, hu, hheld, hset⟩⟩
  · exact Or.inr hi

theorem issued_of_modify_handle {h : HandleId} {f : Handle → Handle} {s : SetId} (hs : σ.Issued s) :
    Issued { σ with handles := σ.handles.modify h f } s := by
  cases s with
  | ofSlot i n => exact hs
  | ofHandle j =>
    obtain ⟨u, hu⟩ := hs
    by_cases e : h = j
    · exact ⟨f u, by simp [Store.get?_modify, e, hu]⟩
    · exact ⟨u, by simpa [Store.get?_modify, e] using hu⟩

theorem owned_of_modify_slot {i : SlotId} {f : Slot → Slot} {s : SetId}
    (less : ∀ t, (f t).held = true → t.held = true ∧ ∀ s, (f t).storage = .fat s → t.storage = .fat s)
    (hs : Owned { σ with slots := σ.slots.modify i f } s) : σ.Owned s := by
  rcases hs with hj | ⟨j, hj⟩
  · exact Or.inl hj
  · obtain ⟨u, hu, hheld, hset⟩ := fatSet?_eq_some_iff.mp hj
    rw [Store.get?_modify] at hu
    split at hu
    · obtain ⟨u', hu', rfl⟩ := Option.map_eq_some_iff.mp hu
      obtain ⟨hheld', hset'⟩ := less u' hheld
      exact Or.inr ⟨j, fatSet?_eq_some_iff.mpr ⟨u', hu', hheld', hset' s hset⟩⟩
    · exact Or.inr ⟨j, fatSet?_eq_some_iff.mpr ⟨u, hu, hheld, hset⟩⟩

theorem owned_of_store {i : SlotId} {f : Flags} {s : SetId} (hs : (σ.store i (.thin f)).Owned s) :
    σ.Owned s :=
  owned_of_modify_slot (f := fun t => { t with storage := .thin f })
    (fun _ ht => ⟨ht, fun _ he => Storage.noConfusion he⟩) hs

theorem owned_of_dropSlot {i : SlotId} {s : SetId}
    (hs : Owned { σ with slots := σ.slots.modify i fun t => { t with held := false } } s) :
    σ.Owned s :=
  owned_of_modify_slot (f := fun t => { t with held := false }) (fun _ ht => Bool.noConfusion ht) hs

theorem issued_of_modify_slot {i : SlotId} {f : Slot → Slot} {s : SetId}
    (same : ∀ t, (f t).promotions = t.promotions) (hs : σ.Issued s) :
    Issued { σ with slots := σ.slots.modify i f } s := by
  cases s with
  | ofHandle j => exact hs
  | ofSlot j n =>
    obtain ⟨u, hu, hn⟩ := hs
    by_cases e : i = j
    · exact ⟨f u, by simp [Store.get?_modify, e, hu], by rwa [same]⟩
    · exact ⟨u, by simpa [Store.get?_modify, e] using hu, hn⟩

theorem not_issued_of_new_handle {h : HandleId} (new : σ.handles.get? h = none) :
    ¬ σ.Issued (.ofHandle h) := by
  rintro ⟨t, ht⟩
  rw [new] at ht
  cases ht

theorem not_issued_of_promotions {i : SlotId} {t : Slot} (ht : σ.slots.get? i = some t) :
    ¬ σ.Issued (.ofSlot i t.promotions) := by
  rintro ⟨u, hu, hn⟩
  rw [ht] at hu
  rw [← Option.some.inj hu] at hn
  exact Nat.lt_irrefl _ hn

end World

end Invalidation
