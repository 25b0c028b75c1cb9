import Invalidation.Proofs.Run.Moment
import Invalidation.Proofs.World.Owners

/-! Bystanders. A call on a handle works on the set of that handle, and a call on a slot on the set
    that the slot has or comes to have; any other set is a *bystander*. Its flags and its list stay
    as they are when the call begins, and if the call waits after that, then in a sweep of its own set.

        call on s ──▶ flags and list of s
                  ──▶ flags and list of v ≠ s    only where a watchpoint leaves its list -/

namespace Invalidation

/-- The handle that a call is on. -/
def Call.handle? : Call → Option HandleId
  | .cloneHandle h _ | .add h _ | .startWatching h | .notifyWrite h | .fireAll h | .dropHandle h =>
  some h
  | _ => none

/-- The turn leaves set `v` as it is; if it stands still, then for the head of the list of another
    set. -/
structure Turn.Avoids (v : SetId) (σ : World) (t : Turn) : Prop where
  set : t.world.sets.get? v = σ.sets.get? v
  sweeps : ∀ r q, t.next = .waiting r q → ∃ w y, q = .patch ⟨w, some y⟩ ∧ y.set ≠ v ∧
    (t.world.watchersOf y.set).front? = some w

variable {σ τ : World} {s v : SetId} {i : SlotId} {h : HandleId} {w : WatchpointId} {c : Call}

namespace Turn

variable {t : Turn}

theorem Avoids.after (h : t.Avoids v σ) (events : List LogEvent) : (t.after events).Avoids v σ :=
  ⟨h.set, h.sweeps⟩

theorem Avoids.trans (h : t.Avoids v τ) (same : τ.sets.get? v = σ.sets.get? v) : t.Avoids v σ :=
  ⟨h.set.trans same, h.sweeps⟩

theorem avoids_done (same : τ.sets.get? v = σ.sets.get? v) : τ.done.Avoids v σ :=
  ⟨same, fun _ _ => Next.noConfusion⟩

theorem avoids_panic {fault : Fault} (same : τ.sets.get? v = σ.sets.get? v) :
    (τ.panic fault).Avoids v σ :=
  ⟨same, fun _ _ => Next.noConfusion⟩

end Turn

namespace World

open Turn

/-! ### Turns on another set -/

theorem get?_modifySet_of_ne (other : s ≠ v) (f : WatchpointSet → WatchpointSet) :
    (σ.modifySet s f).sets.get? v = σ.sets.get? v := by
  rw [modifySet, Store.get?_modify, if_neg other]

theorem get?_finish_of_ne (other : s ≠ v) (ending : Ending) :
    (σ.finish s ending).sets.get? v = σ.sets.get? v := by
  cases ending with
  | rest => rfl
  | invalidate => exact get?_modifySet_of_ne other _
  | destroy => exact (Store.get?_erase _ _ _).trans (if_neg other)

theorem get?_abandon_of_ne {y : Sweep} (other : y.set ≠ v) :
    (σ.abandon (some y)).sets.get? v = σ.sets.get? v := by
  obtain ⟨s, n, ending⟩ := y
  cases ending with
  | rest | invalidate => rfl
  | destroy => exact (Store.get?_erase _ _ _).trans (if_neg other)

theorem avoids_sweepOn {y : Sweep} (other : y.set ≠ v) : (σ.sweepOn y).Avoids v σ := by
  cases hfront : (σ.watchersOf y.set).front? with
  | some w =>
    rw [sweepOn_of_front hfront]
    cases ha : (σ.watchpoint w).addresses? with
    | none =>
      rw [fire_of_unresolved ha]
      exact avoids_panic (get?_abandon_of_ne other)
    | some a =>
      rw [fire_of_resolved ha]
      refine ⟨rfl, fun r q hq => ?_⟩
      cases hq
      exact ⟨w, y, rfl, other, hfront⟩
  | none =>
    rw [sweepOn_of_drained hfront]
    exact (avoids_done (get?_finish_of_ne other _)).after _

theorem avoids_release (other : s ≠ v) : (σ.release s).Avoids v σ := by
  rw [release]
  split
  · exact avoids_sweepOn other
  · exact avoids_done rfl

theorem avoids_notifyWrite (other : s ≠ v) : (σ.notifyWrite s).Avoids v σ := by
  rw [notifyWrite]
  split
  · exact avoids_sweepOn other
  · exact avoids_panic rfl

theorem avoids_add (other : s ≠ v) (w : Option WatchpointId) : (σ.add s w).Avoids v σ := by
  cases w with
  | none => exact avoids_done rfl
  | some w =>
    rw [add]
    refine Avoids.after ?_ _
    split
    · exact avoids_panic rfl
    · exact avoids_done (get?_modifySet_of_ne other _)

/-! ### Calls on a handle -/

/-- A call on a handle leaves every set alone but that of the handle. -/
theorem avoids_handle (on : c.handle? = some h) (share : σ.handleSet? h = some s) (other : s ≠ v) :
    (σ.begin c).Avoids v σ := by
  have onHandle_avoids : ∀ f : SetId → Turn, (f s).Avoids v σ → (σ.onHandle h f).Avoids v σ :=
    fun f hf => by
    rwa [onHandle, share]
  cases c with
  | cloneHandle =>
    obtain rfl := Option.some.inj on
    rw [World.begin, share]
    exact avoids_done rfl
  | add k w =>
    obtain rfl := Option.some.inj on
    exact onHandle_avoids _ (avoids_add other w)
  | startWatching =>
    obtain rfl := Option.some.inj on
    exact onHandle_avoids _ (avoids_done (get?_modifySet_of_ne other _))
  | notifyWrite =>
    obtain rfl := Option.some.inj on
    exact onHandle_avoids _ (avoids_notifyWrite other)
  | fireAll =>
    obtain rfl := Option.some.inj on
    exact onHandle_avoids _ (avoids_sweepOn other)
  | dropHandle =>
    obtain rfl := Option.some.inj on
    simp only [World.begin, dropHandle, share]
    exact (avoids_release other).trans rfl
  | _ => cases on

/-! ### What changes no slot -/

theorem slots_abandon (sweep : Option Sweep) : (σ.abandon sweep).slots = σ.slots := by
  rw [abandon.eq_def]
  split <;> rfl

theorem slots_unwind (pending : Pending) : (σ.unwind pending).slots = σ.slots := by
  cases pending with
  | patch p => exact slots_abandon p.sweep
  | locate l => rfl

theorem slots_sweepOn (y : Sweep) : (σ.sweepOn y).world.slots = σ.slots := by
  cases hfront : (σ.watchersOf y.set).front? with
  | some w =>
    rw [sweepOn_of_front hfront]
    cases ha : (σ.watchpoint w).addresses? with
    | none =>
      rw [fire_of_unresolved ha]
      exact slots_abandon (some y)
    | some a => rw [fire_of_resolved ha]
  | none =>
    rw [sweepOn_of_drained hfront]
    cases y.ending <;> rfl

theorem slots_release (s : SetId) : (σ.release s).world.slots = σ.slots := by
  rw [release]
  split
  · exact slots_sweepOn _
  · rfl

theorem slots_patched (p : Patching) : (σ.patched p).world.slots = σ.slots := by
  have hfired := (holders_fired σ p.watchpoint).2
  rw [patched]
  split
  · exact hfired
  · exact (slots_sweepOn _).trans hfired

theorem slots_located (l : Locating) (answer : Except LinkFailure Address) :
    (σ.located l answer).world.slots = σ.slots := by
  rw [located.eq_def]
  cases answer with
  | error e => rfl
  | ok a =>
    cases l.source with
    | none => rfl
    | some source =>
      dsimp only
      cases (σ.contextOf l.watchpoint).settings.linking.checkJump source a <;> rfl

/-- A call on a handle changes no slot. -/
theorem slots_handle (on : c.handle? = some h) : (σ.begin c).world.slots = σ.slots := by
  have slots_onHandle : ∀ (k : HandleId) (f : SetId → Turn), (∀ s, (f s).world.slots = σ.slots) →
      (σ.onHandle k f).world.slots = σ.slots := fun k f hf => by
    rw [onHandle]
    split
    · exact hf _
    · rfl
  cases c with
  | cloneHandle k copy =>
    rw [World.begin]
    cases σ.handleSet? k <;> rfl
  | add k w =>
    refine slots_onHandle k _ fun s => ?_
    cases w with
    | none => rfl
    | some w =>
      rw [add]
      cases (σ.watchpoint w).isOnList <;> rfl
  | startWatching k => exact slots_onHandle k _ fun s => rfl
  | notifyWrite k =>
    refine slots_onHandle k _ fun s => ?_
    rw [notifyWrite]
    split
    · exact slots_sweepOn _
    · rfl
  | fireAll k => exact slots_onHandle k _ fun s => slots_sweepOn _
  | dropHandle k =>
    rw [World.begin, dropHandle]
    split
    · exact slots_release _
    · rfl
  | _ => cases on

/-! ### Calls on a slot -/

theorem avoids_inflate (issued : σ.Issued v) : (σ.inflate i).1.sets.get? v = σ.sets.get? v := by
  rw [inflate]
  split
  · next f n b hslot =>
    refine (Store.get?_put _ _ _ _).trans (if_neg ?_)
    rintro rfl
    exact not_issued_of_promotions (slot?_eq_some_iff.mp hslot).1 issued
  · rfl

/-- A set that a slot gets is a new one. -/
theorem fatSet?_inflate (issued : σ.Issued v) (other : σ.fatSet? i ≠ some v) :
    (σ.inflate i).1.fatSet? i ≠ some v := by
  rw [inflate]
  split
  · next f n b hslot =>
    intro hfat
    obtain ⟨z, hz, -, hv⟩ := fatSet?_eq_some_iff.mp hfat
    rw [promoteFrom, Store.get?_put_self] at hz
    obtain rfl := Option.some.inj hz
    obtain rfl := Storage.fat.inj hv
    exact not_issued_of_promotions (slot?_eq_some_iff.mp hslot).1 issued
  · exact other

/-- A call on a slot leaves alone every set that has been made and is not that of the slot. -/
theorem avoids_slot (on : c.takes = some (.slot i)) (issued : σ.Issued v)
    (other : σ.fatSet? i ≠ some v) : (σ.begin c).Avoids v σ := by
  have hslot : ∀ {j}, some (Loan.slot j) = some (.slot i) → j = i := fun he =>
    Loan.slot.inj (Option.some.inj he)
  cases c with
  | slotAdd j w =>
    obtain rfl := hslot on
    rw [World.begin, slotAdd]
    split
    next τ events hinflate =>
    have hsame := avoids_inflate (i := j) issued
    have hne := fatSet?_inflate issued other
    rw [hinflate] at hsame hne
    split
    · next s hs =>
      have hsv : s ≠ v := fun he => hne (he ▸ hs)
      exact ((avoids_add hsv w).trans hsame).after _
    · exact (avoids_done hsame).after _
  | slotStartWatching j =>
    obtain rfl := hslot on
    refine avoids_done ?_
    rw [slotStartWatching]
    split
    · rfl
    · next s n b hs =>
      exact get?_modifySet_of_ne (fun he => other (by rw [fatSet?, hs, he])) _
    · rfl
  | slotNotifyWrite j =>
    obtain rfl := hslot on
    rw [World.begin, slotNotifyWrite]
    split
    · split
      · exact avoids_done rfl
      · exact avoids_done rfl
    · next s n b hs =>
      split
      · exact avoids_notifyWrite fun he => other (by rw [fatSet?, hs, he])
      · exact avoids_done rfl
    · exact avoids_done rfl
  | inflate j => exact (avoids_done (avoids_inflate issued)).after _
  | promote j =>
    obtain rfl := hslot on
    rw [World.begin, promote]
    split
    · next f n b hs =>
      have hsame := avoids_inflate (i := j) issued
      rw [inflate, hs] at hsame
      exact (avoids_done hsame).after _
    · exact avoids_panic rfl
  | handleOfSlot j k =>
    rw [World.begin]
    cases σ.fatSet? j <;> exact avoids_done rfl
  | freeFat j =>
    obtain rfl := hslot on
    rw [World.begin, freeFat]
    split
    · exact avoids_panic rfl
    · next s hs =>
      have hsv : s ≠ v := fun he => other (he ▸ hs)
      have hrelease := avoids_release (σ := σ.store j (.thin (σ.flagsAfterFree s (σ.owners s > 1)))) hsv
      exact (hrelease.trans (τ := σ.store j _) (σ := σ) rfl).after _
  | dropSlot j =>
    obtain rfl := hslot on
    rw [World.begin, dropSlot]
    split
    · next s hs =>
      have hsv : s ≠ v := fun he => other (he ▸ hs)
      exact (avoids_release hsv).trans rfl
    · exact avoids_done rfl
  | _ => cases on

/-! ### A set that a slot has given up -/

/-- A slot gets no share in a set that has been made before. -/
theorem Edit.share_before {d : Option Change} (e : Edit σ d τ) (issued : σ.Issued s)
    (share : τ.fatSet? i = some s) : σ.fatSet? i = some s := by
  obtain ⟨z, hz, hheld, hfat⟩ := fatSet?_eq_some_iff.mp share
  have same : τ.slots.get? i = σ.slots.get? i → σ.fatSet? i = some s := fun h =>
    fatSet?_eq_some_iff.mpr ⟨z, h.symm.trans hz, hheld, hfat⟩
  cases e with
  | openContext | count | appear | locate | letGo | link | watch | «break» | newSet | newHandle |
    dropHandle
  | erase | discard => exact same rfl
  | unlink w =>
    refine same ?_
    rw [World.unlink]
    split <;> rfl
  | @newSlot j mode new =>
    rw [Store.get?_put] at hz
    split at hz
    · obtain rfl := Option.some.inj hz
      cases hfat
    · exact fatSet?_eq_some_iff.mpr ⟨z, hz, hheld, hfat⟩
  | @promote j t f held thin =>
    rw [promoteFrom, Store.get?_put] at hz
    split at hz
    · obtain rfl := Option.some.inj hz
      obtain rfl := Storage.fat.inj hfat
      exact absurd issued (not_issued_of_promotions (slot?_eq_some_iff.mp held).1)
    · exact fatSet?_eq_some_iff.mpr ⟨z, hz, hheld, hfat⟩
  | @store j t f held next =>
    rw [World.store, Store.get?_modify] at hz
    split at hz
    · obtain ⟨z', -, rfl⟩ := Option.map_eq_some_iff.mp hz
      cases hfat
    · exact fatSet?_eq_some_iff.mpr ⟨z, hz, hheld, hfat⟩
  | dropSlot j =>
    rw [Store.get?_modify] at hz
    split at hz
    · obtain ⟨z', -, rfl⟩ := Option.map_eq_some_iff.mp hz
      cases hheld
    · exact fatSet?_eq_some_iff.mpr ⟨z, hz, hheld, hfat⟩

theorem Edits.share_before {ds : List Change} (e : Edits σ ds τ) (issued : σ.Issued s)
    (share : τ.fatSet? i = some s) : σ.fatSet? i = some s := by
  induction e with
  | refl => exact share
  | tail es last ih => exact ih (last.share_before (es.issued issued) share)

end World

end Invalidation
