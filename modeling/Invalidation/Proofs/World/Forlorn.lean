import Invalidation.Proofs.World.Flags
import Invalidation.Proofs.World.Owners
import Invalidation.Proofs.World.Unowned

/-! No set is left behind. A set is *forlorn* if it is there though nobody has a share in it. A turn
    makes a set forlorn only when its last owner lets go of it, and then leaves the sweep waiting
    that will do away with it:

        owned ──last owner goes──▶ forlorn, and a sweep waits ──▶ … ──▶ gone

    A sweep that goes on, or is cut short, either waits once more or has done away with its set. -/

namespace Invalidation

/-- The set is there, and nobody has a share in it. -/
def World.Forlorn (σ : World) (s : SetId) : Prop := σ.Exists s ∧ ¬ σ.Owned s

/-- The turn leaves a sweep waiting that will do away with the set. -/
def Turn.WillDestroy (s : SetId) (t : Turn) : Prop :=
  ∃ r p x, t.next = .waiting r (.patch p) ∧ p.sweep = some x ∧ x.Destroys s

/-- Every set that is forlorn after the turn is one of those owed to somebody else, or the turn
    itself sees to it. -/
def Turn.Tends (owed : SetId → Prop) (t : Turn) : Prop :=
  ∀ s, t.world.Forlorn s → owed s ∨ t.WillDestroy s

/-- Handles and slots are the same in both worlds, and no set has come to be. -/
structure World.Level (σ τ : World) : Prop where
  handles : τ.handles = σ.handles
  slots : τ.slots = σ.slots
  sets : ∀ s, τ.Exists s → σ.Exists s

variable {σ τ υ : World} {s : SetId} {w : WatchpointId}

namespace Turn

variable {owed owed' : SetId → Prop} {t : Turn}

theorem Tends.mono (h : t.Tends owed) (imp : ∀ s, owed s → owed' s) : t.Tends owed' :=
  fun s hs => (h s hs).imp_left (imp s)

theorem Tends.after (h : t.Tends owed) (events : List LogEvent) : (t.after events).Tends owed := h

theorem tends_of_forlorn (h : ∀ s, t.world.Forlorn s → owed s) : t.Tends owed :=
  fun s hs => Or.inl (h s hs)

end Turn

namespace World

open Turn

/-! ### Steps that touch no share -/

namespace Level

theorem refl (σ : World) : σ.Level σ := ⟨rfl, rfl, fun _ => id⟩

theorem trans (h : σ.Level τ) (h' : τ.Level υ) : σ.Level υ :=
  ⟨h'.handles.trans h.handles, h'.slots.trans h.slots, fun s hs => h.sets s (h'.sets s hs)⟩

theorem owned_iff (h : σ.Level τ) : τ.Owned s ↔ σ.Owned s := by
  simp only [Owned, handleSet?, fatSet?, slot?, h.handles, h.slots]

theorem forlorn (h : σ.Level τ) (hs : τ.Forlorn s) : σ.Forlorn s :=
  ⟨h.sets s hs.1, fun ho => hs.2 (h.owned_iff.mpr ho)⟩

theorem tends {t : Turn} (h : σ.Level t.world) : t.Tends σ.Forlorn :=
  tends_of_forlorn fun _ => h.forlorn

end Level

theorem level_modifySet (σ : World) (x : SetId) (f : WatchpointSet → WatchpointSet) :
    σ.Level (σ.modifySet x f) := ⟨rfl, rfl, fun _ => exists_of_modifySet⟩

theorem level_modifyWatchpoint (σ : World) (w : WatchpointId) (f : Watchpoint → Watchpoint) :
    σ.Level (σ.modifyWatchpoint w f) := ⟨rfl, rfl, fun _ => id⟩

theorem level_count (σ : World) (w : WatchpointId) (f : Counters → Counters) : σ.Level (σ.count w f) :=
  ⟨rfl, rfl, fun _ => id⟩

theorem level_settle (σ : World) (w : WatchpointId) (source destination : Address) :
    σ.Level (σ.settle w source destination) := (level_modifyWatchpoint σ w _).trans (level_count _ w _)

theorem level_unlink (σ : World) (w : WatchpointId) : σ.Level (σ.unlink w) := by
  rw [unlink]
  split
  · exact .refl σ
  · exact (level_modifyWatchpoint σ w _).trans (level_modifySet _ _ _)

theorem level_link (σ : World) (x : SetId) (w : WatchpointId) : σ.Level (σ.link x w) :=
  (level_modifySet σ x _).trans (level_modifyWatchpoint _ w _)

theorem level_erase (σ : World) (x : SetId) : σ.Level { σ with sets := σ.sets.erase x } := by
  refine ⟨rfl, rfl, fun s ⟨y, hy⟩ => ?_⟩
  rw [Store.get?_erase] at hy
  split at hy
  · cases hy
  · exact ⟨y, hy⟩

theorem not_forlorn_erase (σ : World) (x : SetId) : ¬ Forlorn { σ with sets := σ.sets.erase x } x := by
  rintro ⟨⟨y, hy⟩, -⟩
  rw [Store.get?_erase_self] at hy
  cases hy

/-! ### Firing and sweeping -/

/-- A sweep that is cut short has done away with the set that was to go. -/
theorem forlorn_of_abandon {sweep : Option Sweep} (hs : (σ.abandon sweep).Forlorn s) :
    σ.Forlorn s ∧ ∀ x, sweep = some x → ¬ x.Destroys s := by
  unfold abandon at hs
  split at hs
  · next y n =>
    refine ⟨(level_erase σ y).forlorn hs, fun x hx hd => ?_⟩
    obtain rfl := Option.some.inj hx
    obtain rfl : y = s := hd.1
    exact not_forlorn_erase σ y hs
  · next hrest =>
    refine ⟨hs, ?_⟩
    rintro ⟨y, n, ending⟩ rfl ⟨rfl, rfl⟩
    exact hrest _ _ rfl

theorem forlorn_of_finish {x : Sweep} (hs : (σ.finish x.set x.ending).Forlorn s) :
    σ.Forlorn s ∧ ¬ x.Destroys s := by
  cases he : x.ending with
  | rest =>
    rw [he] at hs
    exact ⟨hs, fun hd => Ending.noConfusion (he.symm.trans hd.2)⟩
  | invalidate =>
    rw [he] at hs
    exact ⟨(level_modifySet σ _ _).forlorn hs, fun hd => Ending.noConfusion (he.symm.trans hd.2)⟩
  | destroy =>
    rw [he] at hs
    refine ⟨(level_erase σ _).forlorn hs, ?_⟩
    rintro ⟨rfl, -⟩
    exact not_forlorn_erase σ _ hs

theorem tends_fire (w : WatchpointId) (sweep : Option Sweep) :
    (σ.fire w sweep).Tends fun s => σ.Forlorn s ∧ ∀ x, sweep = some x → ¬ x.Destroys s := by
  cases ha : (σ.watchpoint w).addresses? with
  | none =>
    rw [fire_of_unresolved ha]
    exact tends_of_forlorn fun s => forlorn_of_abandon
  | some a =>
    rw [fire_of_resolved ha]
    intro s hs
    by_cases destroys : ∃ x, sweep = some x ∧ x.Destroys s
    · obtain ⟨x, hx, hd⟩ := destroys
      exact Or.inr ⟨_, _, x, rfl, hx, hd⟩
    · exact Or.inl ⟨hs, fun x hx hd => destroys ⟨x, hx, hd⟩⟩

theorem tends_sweepOn (x : Sweep) : (σ.sweepOn x).Tends fun s => σ.Forlorn s ∧ ¬ x.Destroys s := by
  cases hf : (σ.watchersOf x.set).front? with
  | some w =>
    rw [sweepOn_of_front hf]
    exact (tends_fire w (some x)).mono fun s h => ⟨h.1, h.2 x rfl⟩
  | none =>
    rw [sweepOn_of_drained hf]
    exact Tends.after (tends_of_forlorn fun s => forlorn_of_finish) _

/-- Going on after a jump, a sweep that will do away with its set waits once more or has done so. -/
theorem tends_patched (p : Patching) :
    (σ.patched p).Tends fun s => σ.Forlorn s ∧ ∀ x, p.sweep = some x → ¬ x.Destroys s := by
  have level : σ.Level ((σ.countRedirect p.watchpoint).unlink p.watchpoint) :=
    (level_count σ _ _).trans (level_unlink _ _)
  rw [patched]
  split
  · next none =>
    refine tends_of_forlorn fun s hs => ⟨level.forlorn hs, fun x hx => ?_⟩
    cases none.symm.trans hx
  · next y hy =>
    refine (tends_sweepOn _).mono fun s h => ⟨level.forlorn h.1, fun x hx => ?_⟩
    obtain rfl := Option.some.inj (hy.symm.trans hx)
    exact h.2

theorem tends_sweep (x : SetId) (ending : Ending) : (σ.sweep x ending).Tends σ.Forlorn :=
  (tends_sweepOn _).mono fun _ h => h.1

/-- The last to let go of a set leaves its sweep waiting, or sees it gone. -/
theorem tends_release (tidy : σ.Tidy) (x : SetId) :
    (σ.release x).Tends fun s => σ.Forlorn s ∧ s ≠ x := by
  rw [release]
  split
  · refine (tends_sweepOn _).mono fun s h => ⟨h.1, ?_⟩
    rintro rfl
    exact h.2 ⟨rfl, rfl⟩
  · next others =>
    refine tends_of_forlorn fun s hs => ⟨hs, ?_⟩
    rintro rfl
    exact others (tidy.owners_eq_zero_iff.mpr hs.2)

/-! ### Letting go -/

/-- Whoever lets go makes no set forlorn but the one that it had a share in. -/
theorem LetsGo.forlorn {o : Owner} {x : Option SetId} (h : σ.LetsGo o τ) (share : σ.shareOf? o = x)
    (hs : τ.Forlorn s) (other : some s ≠ x) : σ.Forlorn s := by
  refine ⟨?_, fun owned => hs.2 ?_⟩
  · obtain ⟨y, hy⟩ := hs.1
    exact ⟨y, h.apart.sets ▸ hy⟩
  · obtain ⟨o', ho'⟩ := owned_iff.mp owned
    refine owned_iff.mpr ⟨o', ?_⟩
    rw [h.shares, if_neg, ho']
    rintro rfl
    exact other (ho'.symm.trans share)

theorem tends_begin_of_release {c : Call} {o : Owner} {x : SetId} (tidy : σ.Tidy)
    (hc : c.release? = some o) (share : σ.shareOf? o = some x) : (σ.begin c).Tends σ.Forlorn := by
  obtain ⟨τ, events, hgo, heq⟩ := begin_of_release hc share
  rw [heq]
  refine ((tends_release (tidy.edits hgo.edits) x).mono fun s h => ?_).after events
  exact hgo.forlorn share h.1 fun he => h.2 (Option.some.inj he)

theorem tends_dropSlot (tidy : σ.Tidy) (i : SlotId) : (σ.dropSlot i).Tends σ.Forlorn := by
  cases share : σ.fatSet? i with
  | some x => exact tends_begin_of_release (c := .dropSlot i) tidy rfl share
  | none =>
    simp only [dropSlot, share]
    exact tends_of_forlorn fun s hs =>
      (letsGo_dropSlot σ i).forlorn (x := none) share hs (Option.some_ne_none s)

theorem tends_freeFat (tidy : σ.Tidy) (i : SlotId) : (σ.freeFat i).Tends σ.Forlorn := by
  cases share : σ.fatSet? i with
  | some x => exact tends_begin_of_release (c := .freeFat i) tidy rfl share
  | none =>
    simp only [freeFat, share]
    exact Level.tends (.refl σ)

/-! ### New objects -/

theorem owned_put_handle {h : HandleId} (new : σ.handles.get? h = none) (t : Handle) (hs : σ.Owned s) :
    Owned { σ with handles := σ.handles.put h t } s := by
  rcases hs with ⟨j, hj⟩ | hi
  · obtain ⟨u, hu, hheld, hset⟩ := handleSet?_eq_some_iff.mp hj
    refine Or.inl ⟨j, handleSet?_eq_some_iff.mpr ⟨u, ?_, hheld, hset⟩⟩
    rw [Store.get?_put, if_neg, hu]
    rintro rfl
    cases new.symm.trans hu
  · exact Or.inr hi

/-- A slot that shares in no set may be written anew. -/
theorem owned_put_slot {i : SlotId} (unshared : σ.fatSet? i = none) (t : Slot) (hs : σ.Owned s) :
    Owned { σ with slots := σ.slots.put i t } s := by
  rcases hs with hh | ⟨j, hj⟩
  · exact Or.inl hh
  · obtain ⟨u, hu, hheld, hset⟩ := fatSet?_eq_some_iff.mp hj
    refine Or.inr ⟨j, fatSet?_eq_some_iff.mpr ⟨u, ?_, hheld, hset⟩⟩
    rw [Store.get?_put, if_neg, hu]
    rintro rfl
    cases unshared.symm.trans hj

theorem forlorn_of_newSet {h : HandleId} {mode : InitialMode} (new : σ.handles.get? h = none)
    (hs : (σ.newSet h mode).Forlorn s) : σ.Forlorn s := by
  have owner : (σ.newSet h mode).handleSet? h = some (.ofHandle h) :=
    handleSet?_eq_some_iff.mpr ⟨_, Store.get?_put_self .., rfl, rfl⟩
  have other : SetId.ofHandle h ≠ s := by
    rintro rfl
    exact hs.2 (Or.inl ⟨h, owner⟩)
  exact ⟨exists_of_put hs.1 other, fun owned => hs.2 (owned_put_handle new _ owned)⟩

theorem forlorn_of_newHandle {x : Option SetId} {h : HandleId} (new : σ.handles.get? h = none)
    (hs : (σ.newHandle x h).Forlorn s) : σ.Forlorn s := by
  cases x with
  | none => exact hs
  | some x => exact ⟨hs.1, fun owned => hs.2 (owned_put_handle new _ owned)⟩

theorem fatSet?_of_slots_eq_none {i : SlotId} (new : σ.slots.get? i = none) : σ.fatSet? i = none := by
  rw [fatSet?, slot?, new]
  rfl

theorem fatSet?_of_thin {i : SlotId} {t : Slot} {f : Flags} (held : σ.slot? i = some t)
    (thin : t.storage = .thin f) : σ.fatSet? i = none := by
  obtain ⟨storage, n, b⟩ := t
  obtain rfl : storage = .thin f := thin
  rw [fatSet?, held]

theorem forlorn_of_promoteFrom {i : SlotId} {t : Slot} {f : Flags} (held : σ.slot? i = some t)
    (thin : t.storage = .thin f) (hs : (σ.promoteFrom i t f).Forlorn s) : σ.Forlorn s := by
  have owner : (σ.promoteFrom i t f).fatSet? i = some (.ofSlot i t.promotions) :=
    fatSet?_eq_some_iff.mpr ⟨_, Store.get?_put_self .., (slot?_eq_some_iff.mp held).2, rfl⟩
  have other : SetId.ofSlot i t.promotions ≠ s := by
    rintro rfl
    exact hs.2 (Or.inr ⟨i, owner⟩)
  exact ⟨exists_of_put hs.1 other,
    fun owned => hs.2 (owned_put_slot (fatSet?_of_thin held thin) _ owned)⟩

theorem forlorn_of_inflate (i : SlotId) (hs : (σ.inflate i).1.Forlorn s) : σ.Forlorn s := by
  unfold inflate at hs
  split at hs
  · next held => exact forlorn_of_promoteFrom held rfl hs
  · exact hs

theorem forlorn_of_store_thin {i : SlotId} {t : Slot} {f g : Flags} (held : σ.slot? i = some t)
    (thin : t.storage = .thin f) (hs : (σ.store i (.thin g)).Forlorn s) : σ.Forlorn s := by
  refine ⟨hs.1, fun owned => hs.2 ?_⟩
  rcases owned with hh | ⟨j, hj⟩
  · exact Or.inl hh
  · have other : j ≠ i := by
      rintro rfl
      cases (fatSet?_of_thin held thin).symm.trans hj
    refine Or.inr ⟨j, ?_⟩
    rw [store, fatSet?_modified (fun _ _ _ => Storage.noConfusion), if_neg other, hj]

/-! ### Calls -/

theorem tends_add (x : SetId) (w : Option WatchpointId) : (σ.add x w).Tends σ.Forlorn := by
  cases w with
  | none => exact Level.tends (.refl σ)
  | some w =>
    cases hm : (σ.watchpoint w).membership with
    | none =>
      obtain ⟨events, h⟩ := add_of_off x hm
      rw [h]
      exact Level.tends (level_link σ x w)
    | some m =>
      obtain ⟨events, h⟩ := add_of_on x hm
      rw [h]
      exact Level.tends (.refl σ)

theorem tends_notifyWrite (x : SetId) : (σ.notifyWrite x).Tends σ.Forlorn := by
  rw [notifyWrite]
  split
  · exact tends_sweep x .invalidate
  · exact Level.tends (.refl σ)

theorem tends_onHandle {h : HandleId} {f : SetId → Turn} (hf : ∀ x, (f x).Tends σ.Forlorn) :
    (σ.onHandle h f).Tends σ.Forlorn := by
  rw [onHandle]
  split
  · exact hf _
  · exact Level.tends (.refl σ)

theorem tends_slotAdd (i : SlotId) (w : Option WatchpointId) : (σ.slotAdd i w).Tends σ.Forlorn := by
  have inflated : ∀ s, (σ.inflate i).1.Forlorn s → σ.Forlorn s := fun s => forlorn_of_inflate i
  cases share : (σ.inflate i).1.fatSet? i with
  | some x =>
    simp only [slotAdd, share]
    exact ((tends_add x w).mono inflated).after _
  | none =>
    simp only [slotAdd, share]
    exact tends_of_forlorn inflated

theorem forlorn_of_slotStartWatching (i : SlotId) (hs : (σ.slotStartWatching i).Forlorn s) :
    σ.Forlorn s := by
  unfold slotStartWatching at hs
  split at hs
  · next held => exact forlorn_of_store_thin held rfl hs
  · exact (level_modifySet σ _ _).forlorn hs
  · exact hs

theorem tends_slotNotifyWrite (i : SlotId) : (σ.slotNotifyWrite i).Tends σ.Forlorn := by
  unfold slotNotifyWrite
  split
  · next held =>
    split
    · exact tends_of_forlorn fun s => forlorn_of_store_thin held rfl
    · exact Level.tends (.refl σ)
  · split
    · exact tends_notifyWrite _
    · exact Level.tends (.refl σ)
  · exact Level.tends (.refl σ)

theorem tends_promote (i : SlotId) : (σ.promote i).Tends σ.Forlorn := by
  unfold promote
  split
  · next held => exact tends_of_forlorn fun s => forlorn_of_promoteFrom held rfl
  · exact Level.tends (.refl σ)

theorem tends_located (l : Locating) (answer : Except LinkFailure Address) :
    (σ.located l answer).Tends σ.Forlorn := by
  refine Level.tends ?_
  unfold located
  split
  · exact .refl σ
  · exact .refl σ
  · split
    · exact .refl σ
    · exact level_settle σ _ _ _

/-- Every call sees to the sets that it makes forlorn. -/
theorem tends_begin (tidy : σ.Tidy) {c : Call} (allowed : σ.allows c = true) :
    (σ.begin c).Tends σ.Forlorn := by
  cases c with
  | openRuntime r p settings =>
    refine Level.tends ?_
    rw [begin, openRuntime]
    split <;> exact ⟨rfl, rfl, fun _ => id⟩
  | create | createAlone => exact Level.tends ⟨rfl, rfl, fun _ => id⟩
  | resolve w =>
    refine Level.tends ?_
    rw [begin, resolve]
    split <;> exact .refl σ
  | fire w => exact (tends_fire w none).mono fun _ h => h.1
  | dropWatchpoint w => exact Level.tends ((level_unlink σ w).trans (level_modifyWatchpoint _ w _))
  | newSet h mode =>
    exact tends_of_forlorn fun s => forlorn_of_newSet (get?_eq_none_of_not_contains allowed)
  | cloneHandle h copy =>
    exact tends_of_forlorn fun s =>
      forlorn_of_newHandle (get?_eq_none_of_not_contains (Bool.and_eq_true_iff.mp allowed).2)
  | handleOfSlot i h =>
    exact tends_of_forlorn fun s =>
      forlorn_of_newHandle (get?_eq_none_of_not_contains (Bool.and_eq_true_iff.mp allowed).2)
  | add h w => exact tends_onHandle fun x => tends_add x w
  | startWatching h => exact tends_onHandle fun x => Level.tends (level_modifySet σ x _)
  | notifyWrite h => exact tends_onHandle tends_notifyWrite
  | fireAll h => exact tends_onHandle fun x => tends_sweep x .rest
  | dropHandle h =>
    obtain ⟨x, share⟩ := Option.isSome_iff_exists.mp allowed
    exact tends_begin_of_release (o := .handle h) tidy rfl share
  | newSlot i mode =>
    have unshared := fatSet?_of_slots_eq_none (get?_eq_none_of_not_contains allowed)
    exact tends_of_forlorn fun s hs => ⟨hs.1, fun owned => hs.2 (owned_put_slot unshared _ owned)⟩
  | slotAdd i w => exact tends_slotAdd i w
  | slotStartWatching i => exact tends_of_forlorn fun s => forlorn_of_slotStartWatching i
  | slotNotifyWrite i => exact tends_slotNotifyWrite i
  | inflate i => exact tends_of_forlorn fun s => forlorn_of_inflate i
  | promote i => exact tends_promote i
  | freeFat i => exact tends_freeFat tidy i
  | dropSlot i => exact tends_dropSlot tidy i

end World

end Invalidation
