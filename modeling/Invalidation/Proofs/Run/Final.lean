import Invalidation.Proofs.Run.Sound
import Invalidation.Proofs.World.Flags
import Invalidation.World.Report

/-! Invalidation is final, and nobody stops watching without it. Two readings of the same set or of the
    same slot, as far apart as one likes, are related by this alone:

        invalidated, then ……………………………… invalidated
        watched, then no longer watched ………… invalidated

    A slot may go through any number of sets between the two, give each of them up with others still
    sharing in it or as the last to do so, and be in the middle of any call that has failed. -/

namespace Invalidation

/-- What two readings have in common, the second in a later world than the first. -/
structure World.ReadsOnward (σ τ : World) : Prop where
  setInvalidated : ∀ s, σ.Exists s → τ.Exists s →
    (σ.setReport s).invalidated = true → (τ.setReport s).invalidated = true
  setUnwatched : ∀ s, σ.Exists s → τ.Exists s → (σ.setReport s).watched = true →
    (τ.setReport s).watched = false → (τ.setReport s).invalidated = true
  slotInvalidated : ∀ i, (σ.slot? i).isSome → (τ.slot? i).isSome →
    (σ.slotReport i).invalidated = true → (τ.slotReport i).invalidated = true
  slotUnwatched : ∀ i, (σ.slot? i).isSome → (τ.slot? i).isSome → (σ.slotReport i).watched = true →
    (τ.slotReport i).watched = false → (τ.slotReport i).invalidated = true

theorem Flags.MayBecome.invalidated_of_unwatched {f g : Flags} (h : f.MayBecome g)
    (before : f.watched = true) (after : g.watched = false) : g.invalidated = true :=
  (h.2 before).resolve_left (ne_true_of_eq_false after)

namespace World

variable {σ τ : World}

theorem slot_of_slot? {i : SlotId} {t : Slot} (h : σ.slot? i = some t) : σ.slot i = t := by
  rw [slot, (slot?_eq_some_iff.mp h).1, Option.getD_some]

/-- What the slots of a later world show may have become of what they showed. -/
theorem Onward.slot_mayBecome (h : σ.Onward τ) {i : SlotId} (before : (σ.slot? i).isSome)
    (after : (τ.slot? i).isSome) :
    (σ.slotFlags (σ.slot i)).MayBecome (τ.slotFlags (τ.slot i)) := by
  obtain ⟨t, ht⟩ := Option.isSome_iff_exists.mp before
  obtain ⟨u, hu⟩ := Option.isSome_iff_exists.mp after
  rw [slot_of_slot? ht, slot_of_slot? hu]
  exact h.slot i t u ht hu

theorem Onward.reads (h : σ.Onward τ) : σ.ReadsOnward τ where
  setInvalidated s before after := (h.set s before after).1
  setUnwatched s before after := (h.set s before after).invalidated_of_unwatched
  slotInvalidated _ before after := (h.slot_mayBecome before after).1
  slotUnwatched _ before after := (h.slot_mayBecome before after).invalidated_of_unwatched

end World

variable {ts us : List Transition} {k m : Moment}

theorem Transition.onward {t : Transition} (h : t.before.Sound) :
    t.before.world.Onward t.after.world := by
  obtain ⟨last, e, -⟩ := (does h).edits
  exact e.onward h.coherent

/-- Flags go forward only, over a run of any length. -/
theorem Run.onward (r : Run k ts m) (h : k.Sound) : k.world.Onward m.world := by
  induction r with
  | nil => exact .refl _
  | cons start _ ih =>
    subst start
    exact (Transition.onward h).trans h.coherent (ih (Transition.sound h))

/-- Once a set or a slot reads as invalidated it does so for ever, and it reads as watched no longer
    only if it reads as invalidated. -/
theorem Run.invalidation_is_final (reached : Run {} ts k) (later : Run k us m) :
    k.world.ReadsOnward m.world :=
  (later.onward (reached.sound Moment.sound_empty)).reads

/-- A slot is watched and gets a set with a watchpoint on it, which a handle shares in. -/
def watchedSlot : List Action :=
  [.call (.createAlone 0 (.scripted "p") ⟨16⟩ ⟨96⟩), .call (.resolve 0), .located (.ok ⟨4112⟩),
    .located (.ok ⟨4192⟩), .call (.newSlot 1 .watching), .call (.slotAdd 1 (some 0)),
    .call (.handleOfSlot 1 2)]

/-- The slot gives the set up and gets another one; a write to the first is reported, and while its
    watchpoint is patched, the slot gives up the second. Then the patcher fails. -/
def brokenOffWrite : List Action :=
  [.call (.freeFat 1), .call (.inflate 1), .call (.notifyWrite 2), .call (.freeFat 1),
    .failed "no memory", .call (.notifyWrite 2), .patched]

theorem invalidation_is_final_brokenOffWrite :
    ∃ ts us k m, Run {} ts k ∧ Run k us m ∧ (k.world.slotReport 1).watched = true ∧
      (m.world.slotReport 1).watched = false ∧
      (k.world.setReport (.ofSlot 1 0)).watched = true ∧
      (m.world.setReport (.ofSlot 1 0)).watched = false ∧ k.world.ReadsOnward m.world := by
  have reached := Moment.run_play {} watchedSlot
  have later := Moment.run_play (Moment.last {} (Moment.play {} watchedSlot)) brokenOffWrite
  exact ⟨_, _, _, _, reached, later, by decide, by decide, by decide, by decide,
    reached.invalidation_is_final later⟩

end Invalidation
