import Invalidation.Proofs.World.Lasting
import Invalidation.Proofs.World.Turns

/-! Which calls sweep, and what each step of a sweep does. A set is swept when somebody asks for it,
    when a write to it is reported, and when its last owner lets go of it.

        fire all            ──▶ rest           the set stays as it is
        write, if watched   ──▶ invalidate     the assumption is broken
        last owner goes     ──▶ destroy        the set goes

    Until then a sweep changes nothing but the lists: whoever fires leaves the one that it is on. -/

namespace Invalidation

namespace World

variable {σ τ : World} {s v : SetId} {w : WatchpointId} {c : Call} {ending : Ending}

/-- In this world the call sweeps the set, and this is what it does once the list is empty. -/
inductive Sweeps (σ : World) : Call → SetId → Ending → Prop where
  | fireAll {h : HandleId} {s : SetId} (share : σ.handleSet? h = some s) : σ.Sweeps (.fireAll h) s .rest
  | notifyWrite {h : HandleId} {s : SetId} (share : σ.handleSet? h = some s)
      (watched : (σ.flagsOf s).watched = true) : σ.Sweeps (.notifyWrite h) s .invalidate
  | slotNotifyWrite {i : SlotId} {s : SetId} (share : σ.fatSet? i = some s)
      (watched : (σ.flagsOf s).watched = true) : σ.Sweeps (.slotNotifyWrite i) s .invalidate
  | dropHandle {h : HandleId} {s : SetId} (share : σ.handleSet? h = some s)
      (last : owners { σ with handles := σ.handles.modify h fun t => { t with held := false } } s = 0) :
      σ.Sweeps (.dropHandle h) s .destroy
  | dropSlot {i : SlotId} {s : SetId} (share : σ.fatSet? i = some s)
      (last : owners { σ with slots := σ.slots.modify i fun t => { t with held := false } } s = 0) :
      σ.Sweeps (.dropSlot i) s .destroy
  | freeFat {i : SlotId} {s : SetId} (share : σ.fatSet? i = some s)
      (last : (σ.store i (.thin (σ.flagsAfterFree s (σ.owners s > 1)))).owners s = 0) :
      σ.Sweeps (.freeFat i) s .destroy

theorem Sweeps.owned (h : σ.Sweeps c s ending) : σ.Owned s := by
  cases h with
  | fireAll share | notifyWrite share | dropHandle share => exact Or.inl ⟨_, share⟩
  | slotNotifyWrite share | dropSlot share | freeFat share => exact Or.inr ⟨_, share⟩

theorem release_of_last (last : σ.owners s = 0) : σ.release s = σ.sweep s .destroy := by
  rw [release, if_pos last]

/-- A call that sweeps lets go of what it drops, if anything, and then starts the sweep. -/
theorem Sweeps.begin (h : σ.Sweeps c s ending) :
    ∃ τ events, Edits σ [] τ ∧ (ending = .destroy → τ.owners s = 0) ∧
      (∀ n, LogEvent.sweepFinished n ∉ events) ∧ σ.begin c = (τ.sweep s ending).after events := by
  have hnone : ∀ n, LogEvent.sweepFinished n ∉ ([] : List LogEvent) := fun _ => List.not_mem_nil
  cases h with
  | fireAll share =>
    refine ⟨σ, [], .refl σ, Ending.noConfusion, hnone, ?_⟩
    simp only [World.begin, onHandle, share]
    rfl
  | notifyWrite share watched =>
    refine ⟨σ, [], .refl σ, Ending.noConfusion, hnone, ?_⟩
    simp only [World.begin, onHandle, share, World.notifyWrite, watched, if_true]
    rfl
  | slotNotifyWrite share watched =>
    obtain ⟨n, b, hslot⟩ := slot?_of_fatSet? share
    refine ⟨σ, [], .refl σ, Ending.noConfusion, hnone, ?_⟩
    simp only [World.begin, World.slotNotifyWrite, hslot, World.notifyWrite, watched, if_true]
    rfl
  | dropHandle share last =>
    refine ⟨_, [], (Edit.dropHandle _).edits, fun _ => last, hnone, ?_⟩
    simp only [World.begin, World.dropHandle, share]
    exact release_of_last last
  | dropSlot share last =>
    refine ⟨_, [], (Edit.dropSlot _).edits, fun _ => last, hnone, ?_⟩
    simp only [World.begin, World.dropSlot, share]
    exact release_of_last last
  | freeFat share last =>
    refine ⟨_, [.released (σ.flagsAfterFree s (σ.owners s > 1)) (σ.owners s > 1)],
      edits_giveUp share _, fun _ => last, by simp, ?_⟩
    simp only [World.begin, World.freeFat, share]
    rw [release_of_last last]

/-! ### Firing -/

/-- Who fires is off its list; but for that, every set stays as it is. -/
theorem get?_fired (σ : World) (w : WatchpointId) (v : SetId) : ∃ f : WatchpointSet → WatchpointSet,
    (∀ y, (f y).flags = y.flags) ∧
      ((σ.countRedirect w).unlink w).sets.get? v = (σ.sets.get? v).map f := by
  rw [unlink]
  split
  · exact ⟨id, fun _ => rfl, Option.map_id_apply.symm⟩
  · next m _ =>
    by_cases hm : m.set = v
    · refine ⟨fun t => { t with watchers := (t.watchers.remove m.key).1 }, fun _ => rfl, ?_⟩
      exact (Store.get?_modify _ _ _ _).trans (if_pos hm)
    · exact ⟨id, fun _ => rfl,
        ((Store.get?_modify _ _ _ _).trans (if_neg hm)).trans Option.map_id_apply.symm⟩

theorem exists_fired : ((σ.countRedirect w).unlink w).Exists v ↔ σ.Exists v := by
  obtain ⟨f, -, hf⟩ := get?_fired σ w v
  simp [Exists, hf, Option.map_eq_some_iff]

theorem flagsOf_fired : ((σ.countRedirect w).unlink w).flagsOf v = σ.flagsOf v := by
  obtain ⟨f, hflags, hf⟩ := get?_fired σ w v
  rw [flagsOf, flagsOf, hf, Option.map_map]
  exact congrArg (fun o : Option Flags => o.getD {}) (Option.map_congr fun y _ => hflags y)

theorem Coherent.queue_fired (h : σ.Coherent) :
    ((σ.countRedirect w).unlink w).queue v = (σ.queue v).erase w :=
  h.queue_edits (edits_fired σ w) v

theorem holders_fired (σ : World) (w : WatchpointId) :
    ((σ.countRedirect w).unlink w).handles = σ.handles ∧
    ((σ.countRedirect w).unlink w).slots = σ.slots := by
  rw [unlink]
  split <;> exact ⟨rfl, rfl⟩

end World

end Invalidation
