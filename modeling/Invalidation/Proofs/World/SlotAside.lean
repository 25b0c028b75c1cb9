import Invalidation.Proofs.Run.Moment
import Invalidation.Proofs.World.Owners

/-! A slot that is left aside. What a slot keeps can be exchanged for something else before a turn
    or after it, and that makes no difference to the turn, as long as it is no call on that slot:

        world ──────turn──────▶ world
          │                       │
        exchange               exchange
          │                       │
        world ──the same turn─▶ world

    Only the count of the owners of a set could give the exchange away. So it must be of the one set in
    which the slot may have a share, before or after, that nobody else has a share. -/

namespace Invalidation

/-! ### Two keys of one table -/

namespace Store

variable {κ α : Type} [DecidableEq κ] {s : Store κ α} {k j : κ} {a b : α}

/-- Two writes to different keys can change places, if one of the keys is present already. -/
theorem put_comm (there : s.get? k = some b) (other : j ≠ k) (x y : α) :
    (s.put k x).put j y = (s.put j y).put k x := by
  have hinsert : ∀ ps : List (κ × α), lookup k ps = some b →
      insert j y (insert k x ps) = insert k x (insert j y ps) := by
    intro ps hb
    induction ps with
    | nil => cases hb
    | cons p ps ih =>
      obtain ⟨i, c⟩ := p
      by_cases hik : i = k
      · subst hik
        simp [insert, Ne.symm other]
      · by_cases hij : i = j
        · subst hij
          simp [insert, other]
        · rw [lookup, if_neg hik] at hb
          simp [insert, hik, hij, ih hb]
  exact congrArg Store.mk (hinsert s.pairs there)

theorem modify_put_comm (there : s.get? k = some b) (other : j ≠ k) (x : α) (f : α → α) :
    (s.put k x).modify j f = (s.modify j f).put k x := by
  rw [modify, modify, get?_put, if_neg (Ne.symm other)]
  split
  · exact put_comm there other x _
  · rfl

/-- What is written where it stands already changes nothing. -/
theorem put_of_get? (there : s.get? k = some a) : s.put k a = s := by
  have hinsert : ∀ ps : List (κ × α), lookup k ps = some a → insert k a ps = ps := by
    intro ps ha
    induction ps with
    | nil => cases ha
    | cons p ps ih =>
      obtain ⟨i, c⟩ := p
      rw [lookup] at ha
      rw [insert]
      split at ha
      · next hik =>
        rw [if_pos hik, ← Option.some.inj ha, hik]
      · next hik => rw [if_neg hik, ih ha]
  exact congrArg Store.mk (hinsert s.pairs there)

theorem modify_eq_put (there : s.get? k = some a) (f : α → α) : s.modify k f = s.put k (f a) := by
  rw [modify, there]

/-- What is taken out needs no writing before. -/
theorem erase_modify (s : Store κ α) (k : κ) (f : α → α) : (s.modify k f).erase k = s.erase k := by
  have hremove : ∀ (c : α) (ps : List (κ × α)), remove k (insert k c ps) = remove k ps := by
    intro c ps
    induction ps with
    | nil => simp [insert, remove]
    | cons p ps ih =>
      obtain ⟨i, d⟩ := p
      by_cases hik : i = k
      · simp [insert, remove, hik]
      · simp [insert, remove, hik, ih]
  rw [modify]
  split
  · exact congrArg Store.mk (hremove _ s.pairs)
  · rfl

end Store

/-- The world in which slot `i` is `x`. -/
def World.withSlot (σ : World) (i : SlotId) (x : Slot) : World := { σ with slots := σ.slots.put i x }

/-- The turn as it is where slot `i` is `x`. -/
def Turn.withSlot (t : Turn) (i : SlotId) (x : Slot) : Turn := { t with world := t.world.withSlot i x }

/-- The slot has a share in no other set than `s`. -/
def Slot.SharesOnly (s : SetId) (t : Slot) : Prop := ∀ x, t.storage = .fat x → x = s

/-- Nobody but slot `i` has a share in `s`, and the slot has one in no other set. -/
structure World.Aside (σ : World) (i : SlotId) (s : SetId) (t : Slot) : Prop where
  slots : σ.slots.Distinct
  there : σ.slots.get? i = some t
  own : t.SharesOnly s
  only : ∀ o, σ.shareOf? o = some s → o = .slot i

namespace World

variable {σ τ : World} {i j : SlotId} {s y : SetId} {t x : Slot} {w : WatchpointId}

/-! ### What is read -/

@[simp] theorem watchpoint_withSlot (w : WatchpointId) :
    (σ.withSlot i x).watchpoint w = σ.watchpoint w := rfl

@[simp] theorem contextOf_withSlot (w : WatchpointId) :
    (σ.withSlot i x).contextOf w = σ.contextOf w := rfl

@[simp] theorem flagsOf_withSlot (s : SetId) : (σ.withSlot i x).flagsOf s = σ.flagsOf s := rfl

@[simp] theorem watchersOf_withSlot (s : SetId) : (σ.withSlot i x).watchersOf s = σ.watchersOf s := rfl

@[simp] theorem handleSet?_withSlot (h : HandleId) :
    (σ.withSlot i x).handleSet? h = σ.handleSet? h := rfl

theorem slot?_withSlot (other : j ≠ i) (x : Slot) : (σ.withSlot i x).slot? j = σ.slot? j := by
  rw [slot?, slot?, withSlot, Store.get?_put, if_neg (Ne.symm other)]

theorem fatSet?_withSlot (other : j ≠ i) (x : Slot) : (σ.withSlot i x).fatSet? j = σ.fatSet? j := by
  rw [fatSet?, slot?_withSlot other, fatSet?]

/-- The exchange is not seen by a call on something else. -/
theorem allows_withSlot {c : Call} (there : σ.slots.get? i = some t)
    (elsewhere : c.takes ≠ some (.slot i)) : (σ.withSlot i x).allows c = σ.allows c := by
  cases c with
  | newSlot j mode =>
    have hcontains : (σ.slots.put i x).contains j = σ.slots.contains j := by
      rw [Store.contains, Store.contains, Store.get?_put]
      split
      · next hj => rw [← hj, there]; rfl
      · rfl
    exact congrArg not hcontains
  | slotAdd j | slotStartWatching j | slotNotifyWrite j | inflate j | promote j | handleOfSlot j
  | freeFat j | dropSlot j =>
    have hj : j ≠ i := fun he => elsewhere (he ▸ rfl)
    simp only [allows, slot?_withSlot hj, watchpoint_withSlot] <;> rfl
  | _ => rfl

/-- Sets in which the slot has no share, before or after, have as many owners as before. -/
theorem owners_withSlot (slots : σ.slots.Distinct) (there : σ.slots.get? i = some t)
    (own : t.SharesOnly s)
    (hx : x.SharesOnly s) (other : y ≠ s) : (σ.withSlot i x).owners y = σ.owners y := by
  have hnone : ∀ z : Slot, z.SharesOnly s →
      (some z).any (fun z => z.held && z.storage = .fat y) = false := fun z hz => by
    have hfat : z.storage ≠ .fat y := fun he => other (hz y he)
    simp [hfat]
  have hslots := (slots.put i x).countP_values_eq slots (f := fun z => z.held && z.storage = .fat y)
    (g := fun z => z.held && z.storage = .fat y) fun k => by
      rw [Store.get?_put]
      split
      · next hk => rw [← hk, there, hnone x hx, hnone t own]
      · rfl
  rw [owners, owners, withSlot, hslots]

namespace Aside

theorem ne_of_handleSet? (h : σ.Aside i s t) {k : HandleId} (hk : σ.handleSet? k = some y) : y ≠ s := by
  rintro rfl
  cases h.only (.handle k) hk

theorem ne_of_fatSet? (h : σ.Aside i s t) (other : j ≠ i) (hj : σ.fatSet? j = some y) : y ≠ s := by
  rintro rfl
  exact other (Owner.slot.inj (h.only (.slot j) hj))

end Aside

/-! ### What is changed -/

theorem withSlot_unlink (w : WatchpointId) : (σ.unlink w).withSlot i x = (σ.withSlot i x).unlink w := by
  rw [unlink, unlink, watchpoint_withSlot]
  split <;> rfl

theorem withSlot_abandon (sweep : Option Sweep) :
    (σ.abandon sweep).withSlot i x = (σ.withSlot i x).abandon sweep := by
  rw [abandon.eq_def, abandon.eq_def]
  split <;> rfl

theorem withSlot_finish (s : SetId) (ending : Ending) :
    (σ.finish s ending).withSlot i x = (σ.withSlot i x).finish s ending := by
  cases ending <;> rfl

theorem withSlot_newHandle (s : Option SetId) (h : HandleId) :
    (σ.newHandle s h).withSlot i x = (σ.withSlot i x).newHandle s h := by
  cases s <;> rfl

theorem withSlot_store (there : σ.slots.get? i = some t) (other : j ≠ i) (st : Storage) :
    (σ.store j st).withSlot i x = (σ.withSlot i x).store j st :=
  congrArg (fun slots => ({ σ with slots := slots } : World))
    (Store.modify_put_comm there other x _).symm

theorem withSlot_promoteFrom (there : σ.slots.get? i = some t) (other : j ≠ i) (z : Slot) (f : Flags) :
    (σ.promoteFrom j z f).withSlot i x = (σ.withSlot i x).promoteFrom j z f := by
  simp only [promoteFrom, withSlot, Store.put_comm there other]

theorem withSlot_inflate (there : σ.slots.get? i = some t) (other : j ≠ i) :
    (σ.inflate j).1.withSlot i x = ((σ.withSlot i x).inflate j).1 ∧
      ((σ.withSlot i x).inflate j).2 = (σ.inflate j).2 := by
  rw [inflate, inflate, slot?_withSlot other]
  split
  · exact ⟨withSlot_promoteFrom there other _ _, rfl⟩
  · exact ⟨rfl, rfl⟩

theorem withSlot_slotStartWatching (there : σ.slots.get? i = some t) (other : j ≠ i) :
    (σ.slotStartWatching j).withSlot i x = (σ.withSlot i x).slotStartWatching j := by
  rw [slotStartWatching, slotStartWatching, slot?_withSlot other]
  split
  · exact withSlot_store there other _
  · rfl
  · rfl

/-! ### Turns -/

theorem withSlot_fire (w : WatchpointId) (sweep : Option Sweep) :
    (σ.fire w sweep).withSlot i x = (σ.withSlot i x).fire w sweep := by
  rw [fire, fire, watchpoint_withSlot, contextOf_withSlot]
  cases (σ.watchpoint w).addresses? with
  | none => exact congrArg (fun τ => Turn.mk τ [] _) (withSlot_abandon sweep)
  | some a => rfl

theorem withSlot_sweepOn (sweep : Sweep) :
    (σ.sweepOn sweep).withSlot i x = (σ.withSlot i x).sweepOn sweep := by
  rw [sweepOn, sweepOn, watchersOf_withSlot]
  cases (σ.watchersOf sweep.set).front? with
  | some w => exact withSlot_fire w (some sweep)
  | none => exact congrArg (fun τ => (done τ).after _) (withSlot_finish sweep.set sweep.ending)

theorem withSlot_patched (p : Patching) : (σ.patched p).withSlot i x = (σ.withSlot i x).patched p := by
  have hworld : ((σ.countRedirect p.watchpoint).unlink p.watchpoint).withSlot i x =
      ((σ.withSlot i x).countRedirect p.watchpoint).unlink p.watchpoint := withSlot_unlink p.watchpoint
  rw [patched, patched, ← hworld]
  cases p.sweep with
  | none => rfl
  | some s => exact withSlot_sweepOn _

theorem withSlot_resolve (w : WatchpointId) :
    (σ.resolve w).withSlot i x = (σ.withSlot i x).resolve w := by
  rw [resolve, resolve, watchpoint_withSlot]
  split <;> rfl

theorem withSlot_located (l : Locating) (answer : Except LinkFailure Address) :
    (σ.located l answer).withSlot i x = (σ.withSlot i x).located l answer := by
  rw [located.eq_def, located.eq_def, contextOf_withSlot]
  cases answer with
  | error e => rfl
  | ok a =>
    cases l.source with
    | none => rfl
    | some source =>
      dsimp only
      cases (σ.contextOf l.watchpoint).settings.linking.checkJump source a <;> rfl

theorem withSlot_unwind (pending : Pending) :
    (σ.unwind pending).withSlot i x = (σ.withSlot i x).unwind pending := by
  cases pending with
  | patch p => exact withSlot_abandon p.sweep
  | locate l => rfl

theorem withSlot_add (s : SetId) (w : Option WatchpointId) :
    (σ.add s w).withSlot i x = (σ.withSlot i x).add s w := by
  cases w with
  | none => rfl
  | some w =>
    rw [add, add, flagsOf_withSlot, watchpoint_withSlot]
    cases (σ.watchpoint w).isOnList <;> rfl

theorem withSlot_notifyWrite (s : SetId) :
    (σ.notifyWrite s).withSlot i x = (σ.withSlot i x).notifyWrite s := by
  rw [notifyWrite, notifyWrite, flagsOf_withSlot]
  split
  · exact withSlot_sweepOn _
  · rfl

theorem withSlot_dropWatchpoint (w : WatchpointId) :
    (σ.dropWatchpoint w).withSlot i x = (σ.withSlot i x).dropWatchpoint w := by
  rw [dropWatchpoint, dropWatchpoint, watchpoint_withSlot, ← withSlot_unlink]
  rfl

theorem withSlot_onHandle (h : HandleId) {f g : SetId → Turn} (same : ∀ s, (f s).withSlot i x = g s) :
    (σ.onHandle h f).withSlot i x = (σ.withSlot i x).onHandle h g := by
  rw [onHandle, onHandle, handleSet?_withSlot]
  split
  · exact same _
  · rfl

theorem withSlot_openRuntime (r : RuntimeId) (p : PatcherId) (settings : Settings) :
    (σ.openRuntime r p settings).withSlot i x = (σ.withSlot i x).openRuntime r p settings := by
  rw [openRuntime, openRuntime]
  cases settings.validate <;> rfl

theorem withSlot_release (slots : σ.slots.Distinct) (there : σ.slots.get? i = some t)
    (own : t.SharesOnly s)
    (hx : x.SharesOnly s) (other : y ≠ s) :
    (σ.release y).withSlot i x = (σ.withSlot i x).release y := by
  rw [release, release, owners_withSlot slots there own hx other]
  split
  · exact withSlot_sweepOn _
  · rfl

theorem withSlot_promote (there : σ.slots.get? i = some t) (other : j ≠ i) :
    (σ.promote j).withSlot i x = (σ.withSlot i x).promote j := by
  rw [promote, promote, slot?_withSlot other]
  split
  · exact congrArg (fun τ => (done τ).after _) (withSlot_promoteFrom there other _ _)
  · rfl

theorem withSlot_slotAdd (there : σ.slots.get? i = some t) (other : j ≠ i) (w : Option WatchpointId) :
    (σ.slotAdd j w).withSlot i x = (σ.withSlot i x).slotAdd j w := by
  obtain ⟨hworld, hevents⟩ := withSlot_inflate (x := x) there other
  rw [slotAdd, slotAdd]
  simp only [← hworld, hevents, fatSet?_withSlot other]
  split
  · exact congrArg (Turn.after _) (withSlot_add _ w)
  · rfl

theorem withSlot_slotNotifyWrite (there : σ.slots.get? i = some t) (other : j ≠ i) :
    (σ.slotNotifyWrite j).withSlot i x = (σ.withSlot i x).slotNotifyWrite j := by
  rw [slotNotifyWrite, slotNotifyWrite, slot?_withSlot other]
  split
  · split
    · exact congrArg done (withSlot_store there other _)
    · rfl
  · rw [flagsOf_withSlot]
    split
    · exact withSlot_notifyWrite _
    · rfl
  · rfl

/-- A turn that does not care what the slot is leaves it as it is. -/
theorem kept_of_withSlot {f : World → Turn} (there : σ.slots.get? i = some t)
    (comm : (f σ).withSlot i t = f (σ.withSlot i t)) : (f σ).world.slots.get? i = some t := by
  have hsame : σ.withSlot i t = σ :=
    congrArg (fun slots => ({ σ with slots := slots } : World)) (Store.put_of_get? there)
  rw [hsame] at comm
  rw [← comm]
  exact Store.get?_put_self _ i t

namespace Aside

variable (h : σ.Aside i s t)
include h

/-- Another slot gives up its share in a set. -/
theorem withSlot_freeFat (hx : x.SharesOnly s) (other : j ≠ i) :
    (σ.freeFat j).withSlot i x = (σ.withSlot i x).freeFat j := by
  rw [freeFat, freeFat, fatSet?_withSlot other]
  split
  · rfl
  · next y hy =>
    have hne := h.ne_of_fatSet? other hy
    let f := σ.flagsAfterFree y (σ.owners y > 1)
    have hthere : (σ.store j (.thin f)).slots.get? i = some t := by
      rw [store, Store.get?_modify, if_neg other, h.there]
    have hturn := withSlot_release (σ := σ.store j (.thin f)) (h.slots.modify _ _) hthere h.own hx hne
    rw [withSlot_store h.there other] at hturn
    rw [owners_withSlot h.slots h.there h.own hx hne]
    exact congrArg (Turn.after [.released f (σ.owners y > 1)]) hturn

theorem withSlot_dropSlot (hx : x.SharesOnly s) (other : j ≠ i) :
    (σ.dropSlot j).withSlot i x = (σ.withSlot i x).dropSlot j := by
  have hworld :
    World.withSlot { σ with slots := σ.slots.modify j fun t => { t with held := false } } i x =
      { σ.withSlot i x with slots := (σ.slots.put i x).modify j fun t => { t with held := false } } :=
    congrArg (fun slots => ({ σ with slots := slots } : World))
      (Store.modify_put_comm h.there other x _).symm
  rw [dropSlot, dropSlot, fatSet?_withSlot other]
  split
  · next y hy =>
    have hthere : (σ.slots.modify j fun t => { t with held := false }).get? i = some t := by
      rw [Store.get?_modify, if_neg other, h.there]
    exact (withSlot_release (h.slots.modify _ _) hthere h.own hx (h.ne_of_fatSet? other hy)).trans
      (congrArg (release · y) hworld)
  · exact congrArg done hworld

theorem withSlot_dropHandle (hx : x.SharesOnly s) (k : HandleId) :
    (σ.dropHandle k).withSlot i x = (σ.withSlot i x).dropHandle k := by
  rw [dropHandle, dropHandle, handleSet?_withSlot]
  split
  · next y hy => exact withSlot_release h.slots h.there h.own hx (h.ne_of_handleSet? hy)
  · rfl

/-- The turn of a call on something else is the same wherever the slot is exchanged. -/
theorem withSlot_begin (hx : x.SharesOnly s) {c : Call} (elsewhere : c.takes ≠ some (.slot i))
    (allowed : σ.allows c = true) : (σ.begin c).withSlot i x = (σ.withSlot i x).begin c := by
  have ne : ∀ {j}, c.takes = some (.slot j) → j ≠ i := fun hj he => elsewhere (he ▸ hj)
  cases c with
  | openRuntime r p settings => exact withSlot_openRuntime r p settings
  | create | createAlone | newSet => rfl
  | resolve w => exact withSlot_resolve w
  | fire w => exact withSlot_fire w none
  | dropWatchpoint w => exact withSlot_dropWatchpoint w
  | cloneHandle k copy => exact congrArg done (withSlot_newHandle _ copy)
  | add k w => exact withSlot_onHandle k fun s => withSlot_add s w
  | startWatching k => exact withSlot_onHandle k fun s => rfl
  | notifyWrite k => exact withSlot_onHandle k fun s => withSlot_notifyWrite s
  | fireAll k => exact withSlot_onHandle k fun s => withSlot_sweepOn _
  | dropHandle k => exact h.withSlot_dropHandle hx k
  | newSlot j mode =>
    have hj : j ≠ i := by
      rintro rfl
      simp [allows, Store.contains, h.there] at allowed
    exact congrArg (fun slots => done { σ with slots := slots }) (Store.put_comm h.there hj _ _).symm
  | slotAdd j w => exact withSlot_slotAdd h.there (ne rfl) w
  | slotStartWatching j => exact congrArg done (withSlot_slotStartWatching h.there (ne rfl))
  | slotNotifyWrite j => exact withSlot_slotNotifyWrite h.there (ne rfl)
  | inflate j =>
    obtain ⟨hworld, hevents⟩ := withSlot_inflate (x := x) h.there (ne (j := j) rfl)
    simp only [World.begin]
    rw [hevents, ← hworld]
    rfl
  | promote j => exact withSlot_promote h.there (ne rfl)
  | handleOfSlot j k =>
    refine congrArg done ((withSlot_newHandle _ k).trans ?_)
    rw [fatSet?_withSlot (ne rfl)]
  | freeFat j => exact h.withSlot_freeFat hx (ne rfl)
  | dropSlot j => exact h.withSlot_dropSlot hx (ne rfl)

/-- A call on something else leaves the slot as it is. -/
theorem kept_begin {c : Call} (elsewhere : c.takes ≠ some (.slot i)) (allowed : σ.allows c = true) :
    (σ.begin c).world.slots.get? i = some t :=
  kept_of_withSlot (f := fun σ => σ.begin c) h.there (h.withSlot_begin h.own elsewhere allowed)

end Aside

/-! ### Who else has a share -/

/-- Somebody else has a share in the set of the slot. -/
def Shared (σ : World) (i : SlotId) (s : SetId) : Prop := ∃ o, σ.shareOf? o = some s ∧ o ≠ .slot i

/-- Only one slot can have a share in a set, so whether it is shared can be told from the number of
    owners. -/
theorem Tidy.shared_iff (tidy : σ.Tidy) (share : σ.fatSet? i = some s) :
    σ.owners s > 1 ↔ σ.Shared i s := by
  obtain ⟨z, hz, hheld, hfat⟩ := fatSet?_eq_some_iff.mp share
  have only : ∀ j, σ.fatSet? j = some s → j = i := fun j hj => by
    obtain ⟨z', hz', -, hfat'⟩ := fatSet?_eq_some_iff.mp hj
    obtain ⟨n, hn⟩ := tidy.home i z s hz hfat
    obtain ⟨n', hn'⟩ := tidy.home j z' s hz' hfat'
    exact (SetId.ofSlot.inj (hn.symm.trans hn')).1.symm
  have hslots : σ.slots.values.countP (fun z => z.held && z.storage = .fat s) = 1 := by
    let one : Store SlotId Slot := ⟨[(i, z)]⟩
    have hget : ∀ j, one.get? j = if i = j then some z else none := fun j => rfl
    have hany : ∀ j, (σ.slots.get? j).any (fun z => z.held && z.storage = .fat s) = true ↔
        σ.fatSet? j = some s := fun j => by
      simp only [fatSet?_eq_some_iff, Option.any_eq_true, Bool.and_eq_true, decide_eq_true_eq]
    rw [tidy.slots.countP_values_eq (t := one) (List.nodup_singleton i)
      (f := fun z => z.held && z.storage = .fat s) (g := fun z => z.held && z.storage = .fat s)
        fun j => ?_]
    · simp [one, Store.values, hheld, hfat]
    · rw [Bool.eq_iff_iff, hany, hget]
      split
      · next hj => simp [← hj, share, hheld, hfat]
      · next hj => exact iff_of_false (fun hown => hj (only j hown).symm) Bool.false_ne_true
  rw [owners, hslots, gt_iff_lt, Nat.lt_add_left_iff_pos, List.countP_pos_iff]
  constructor
  · rintro ⟨u, hu, hown⟩
    obtain ⟨k, hk⟩ := tidy.handles.mem_values_iff.mp hu
    rw [Bool.and_eq_true, decide_eq_true_eq] at hown
    exact ⟨.handle k, handleSet?_eq_some_iff.mpr ⟨u, hk, hown.1, hown.2⟩, Owner.noConfusion⟩
  · rintro ⟨k | j, ho, hne⟩
    · obtain ⟨u, hu, hheld, hset⟩ := handleSet?_eq_some_iff.mp ho
      exact ⟨u, mem_values_of_get? hu, by simp [hheld, hset]⟩
    · exact absurd (congrArg Owner.slot (only j ho)) hne

/-- Slot `i`, which is `t`, has a share in the set. -/
structure Fat (σ : World) (i : SlotId) (s : SetId) (t : Slot) : Prop where
  there : σ.slots.get? i = some t
  held : t.held = true
  storage : t.storage = .fat s

theorem Fat.share (h : σ.Fat i s t) : σ.fatSet? i = some s :=
  fatSet?_eq_some_iff.mpr ⟨t, h.there, h.held, h.storage⟩

theorem exists_fat (share : σ.fatSet? i = some s) : ∃ t, σ.Fat i s t := by
  obtain ⟨t, there, held, storage⟩ := fatSet?_eq_some_iff.mp share
  exact ⟨t, there, held, storage⟩

theorem Fat.congr (h : σ.Fat i s t) (there : τ.slots.get? i = some t) : τ.Fat i s t :=
  ⟨there, h.held, h.storage⟩

/-- A slot that has the only share in its set can be left aside. -/
theorem Tidy.aside (tidy : σ.Tidy) (fat : σ.Fat i s t) (alone : ¬ σ.Shared i s) : σ.Aside i s t where
  slots := tidy.slots
  there := fat.there
  own y hy := (Storage.fat.inj (fat.storage.symm.trans hy)).symm
  only o ho := by
    by_contra hne
    exact alone ⟨o, ho, hne⟩

theorem Tidy.withSlot (tidy : σ.Tidy) {f : Flags} (thin : x.storage = .thin f) :
    (σ.withSlot i x).Tidy :=
  ⟨tidy.handles, tidy.slots.put _ _, tidy.home_put fun _ hs => by cases thin.symm.trans hs⟩

/-- Without the share of the slot, nobody has one. -/
theorem Aside.owners_eq_zero (h : σ.Aside i s t) (tidy : σ.Tidy) {f : Flags}
    (thin : x.storage = .thin f) : (σ.withSlot i x).owners s = 0 := by
  rw [(tidy.withSlot thin).owners_eq_zero_iff, owned_iff]
  rintro ⟨k | j, ho⟩
  · cases h.only (.handle k) ho
  · by_cases hj : j = i
    · subst hj
      obtain ⟨z, hz, -, hfat⟩ := fatSet?_eq_some_iff.mp ho
      rw [withSlot, Store.get?_put_self] at hz
      cases (Option.some.inj hz ▸ thin).symm.trans hfat
    · exact hj (Owner.slot.inj (h.only (.slot j) ((fatSet?_withSlot hj x).symm.trans ho)))

theorem store_eq_withSlot (there : σ.slots.get? i = some t) (st : Storage) :
    σ.store i st = σ.withSlot i { t with storage := st } :=
  congrArg (fun slots => ({ σ with slots := slots } : World)) (Store.modify_eq_put there _)

end World

end Invalidation
