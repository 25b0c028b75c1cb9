import Invalidation.Proofs.World.Turns

/-! Which objects have been made, and which of them are still held. Firing, sweeping, resolving and all
    that happens to lists and flags leaves this as it is: only a call that makes an object or drops one
    changes it, and only for that object.

        none ──make──▶ some true ──drop──▶ some false -/

namespace Invalidation

/-- The identity of an object that a call makes or works on. -/
inductive Identity where
  | context (context : ContextId)
  | watchpoint (watchpoint : WatchpointId)
  | handle (handle : HandleId)
  | slot (slot : SlotId)
  deriving DecidableEq

namespace Call

/-- The objects that a call makes. -/
def makes : Call → List Identity
  | .openRuntime r _ _ => [.context (.ofRuntime r)]
  | .create w _ _ _ => [.watchpoint w]
  | .createAlone w _ _ _ => [.context (.ofWatchpoint w), .watchpoint w]
  | .newSet h _ | .cloneHandle _ h | .handleOfSlot _ h => [.handle h]
  | .newSlot i _ => [.slot i]
  | _ => []

/-- The object that a call drops. -/
def drops : Call → Option Identity
  | .dropWatchpoint w => some (.watchpoint w)
  | .dropHandle h => some (.handle h)
  | .dropSlot i => some (.slot i)
  | _ => none

end Call

namespace World

variable {σ τ : World}

/-- Whether the object is held, if it has been made. -/
def held? (σ : World) : Identity → Option Bool
  | .context c => (σ.contexts.get? c).map fun _ => true
  | .watchpoint w => (σ.watchpoints.get? w).map Watchpoint.held
  | .handle h => (σ.handles.get? h).map Handle.held
  | .slot i => (σ.slots.get? i).map Slot.held

/-! ### Looking objects up -/

theorem held_watchpoint_iff {w : WatchpointId} :
    (σ.watchpoint w).held = true ↔ σ.held? (.watchpoint w) = some true := by
  rw [held?, watchpoint]
  cases σ.watchpoints.get? w with
  | none => exact iff_of_false Bool.false_ne_true (Option.some_ne_none _).symm
  | some v => simp

theorem isSome_handleSet?_iff {h : HandleId} :
    (σ.handleSet? h).isSome = true ↔ σ.held? (.handle h) = some true := by
  rw [held?, handleSet?]
  cases σ.handles.get? h with
  | none => simp
  | some t => cases ht : t.held <;> simp [ht]

theorem isSome_slot?_iff {i : SlotId} :
    (σ.slot? i).isSome = true ↔ σ.held? (.slot i) = some true := by
  rw [held?, slot?]
  cases σ.slots.get? i with
  | none => simp
  | some t => cases ht : t.held <;> simp [ht]

theorem contains_contexts (σ : World) (c : ContextId) :
    σ.contexts.contains c = (σ.held? (.context c)).isSome := (Option.isSome_map ..).symm

theorem contains_watchpoints (σ : World) (w : WatchpointId) :
    σ.watchpoints.contains w = (σ.held? (.watchpoint w)).isSome := (Option.isSome_map ..).symm

theorem contains_handles (σ : World) (h : HandleId) :
    σ.handles.contains h = (σ.held? (.handle h)).isSome := (Option.isSome_map ..).symm

theorem contains_slots (σ : World) (i : SlotId) :
    σ.slots.contains i = (σ.held? (.slot i)).isSome := (Option.isSome_map ..).symm

/-! ### Changes that nobody notices here -/

theorem get?_put_map {κ α β : Type} [DecidableEq κ] (s : Store κ α) (k j : κ) (a : α) (f : α → β) :
    ((s.put k a).get? j).map f = if k = j then some (f a) else (s.get? j).map f := by
  rw [Store.get?_put]
  split <;> rfl

theorem get?_modify_map {κ α β : Type} [DecidableEq κ] (s : Store κ α) (k j : κ) (f : α → α) (g : α → β)
    (same : ∀ a, g (f a) = g a) : ((s.modify k f).get? j).map g = (s.get? j).map g := by
  rw [Store.get?_modify]
  split
  · cases s.get? j <;> simp [same]
  · rfl

theorem held?_modifyWatchpoint {w : WatchpointId} {f : Watchpoint → Watchpoint}
    (same : ∀ v, (f v).held = v.held) : (σ.modifyWatchpoint w f).held? = σ.held? := by
  funext x
  cases x with
  | context | handle | slot => rfl
  | watchpoint v => exact get?_modify_map _ _ _ _ _ same

@[simp] theorem held?_modifySet (s : SetId) (f : WatchpointSet → WatchpointSet) :
    (σ.modifySet s f).held? = σ.held? := rfl

@[simp] theorem held?_modifyFlags (s : SetId) (f : Flags → Flags) :
    (σ.modifyFlags s f).held? = σ.held? := rfl

@[simp] theorem held?_count (w : WatchpointId) (f : Counters → Counters) :
    (σ.count w f).held? = σ.held? := by
  funext x
  cases x with
  | watchpoint | handle | slot => rfl
  | context c => exact get?_modify_map _ _ _ _ _ fun _ => rfl

@[simp] theorem held?_store (i : SlotId) (storage : Storage) : (σ.store i storage).held? = σ.held? := by
  funext x
  cases x with
  | context | watchpoint | handle => rfl
  | slot j => exact get?_modify_map _ _ _ _ _ fun _ => rfl

@[simp] theorem held?_unlink (w : WatchpointId) : (σ.unlink w).held? = σ.held? := by
  rw [unlink]
  split
  · rfl
  · exact (held?_modifySet _ _).trans (held?_modifyWatchpoint fun _ => rfl)

@[simp] theorem held?_link (s : SetId) (w : WatchpointId) : (σ.link s w).held? = σ.held? :=
  held?_modifyWatchpoint (σ := σ.modifySet s _) fun _ => rfl

@[simp] theorem held?_settle (w : WatchpointId) (source destination : Address) :
    (σ.settle w source destination).held? = σ.held? := by
  rw [settle, held?_count]
  exact held?_modifyWatchpoint fun _ => rfl

@[simp] theorem held?_promoteFrom {i : SlotId} {t : Slot} {f : Flags} (there : σ.slot? i = some t) :
    (σ.promoteFrom i t f).held? = σ.held? := by
  funext x
  cases x with
  | context | watchpoint | handle => rfl
  | slot j =>
    obtain ⟨hi, hheld⟩ := slot?_eq_some_iff.mp there
    refine (get?_put_map _ _ _ _ _).trans ?_
    split
    · next hj => rw [← hj, held?, hi, Option.map_some]
    · rfl

/-! ### Turns -/

@[simp] theorem world_after (t : Turn) (events : List LogEvent) :
    (t.after events).world = t.world := rfl

@[simp] theorem world_done : σ.done.world = σ := rfl

@[simp] theorem world_panic (fault : Fault) : (σ.panic fault).world = σ := rfl

@[simp] theorem held?_finish (s : SetId) (ending : Ending) : (σ.finish s ending).held? = σ.held? := by
  cases ending <;> rfl

@[simp] theorem held?_abandon (sweep : Option Sweep) : (σ.abandon sweep).held? = σ.held? := by
  unfold abandon
  split <;> rfl

@[simp] theorem held?_fire (w : WatchpointId) (sweep : Option Sweep) :
    (σ.fire w sweep).world.held? = σ.held? := by
  rw [fire]
  split
  · exact held?_abandon sweep
  · rfl

@[simp] theorem held?_sweepOn (s : Sweep) : (σ.sweepOn s).world.held? = σ.held? := by
  rw [sweepOn]
  split
  · exact held?_fire _ _
  · exact held?_finish _ _

@[simp] theorem held?_sweep (s : SetId) (ending : Ending) : (σ.sweep s ending).world.held? = σ.held? :=
  held?_sweepOn _

@[simp] theorem held?_release (s : SetId) : (σ.release s).world.held? = σ.held? := by
  rw [release]
  split
  · exact held?_sweep s .destroy
  · rfl

@[simp] theorem held?_patched (p : Patching) : (σ.patched p).world.held? = σ.held? := by
  rw [patched]
  split <;> simp [countRedirect]

@[simp] theorem held?_located (l : Locating) (answer : Except LinkFailure Address) :
    (σ.located l answer).world.held? = σ.held? := by
  unfold located
  split
  · rfl
  · rfl
  · split
    · rfl
    · exact held?_settle _ _ _

@[simp] theorem held?_unwind (pending : Pending) : (σ.unwind pending).held? = σ.held? := by
  cases pending with
  | patch p => exact held?_abandon _
  | locate l => rfl

@[simp] theorem held?_resolve (w : WatchpointId) : (σ.resolve w).world.held? = σ.held? := by
  rw [resolve]
  split <;> rfl

@[simp] theorem held?_add (s : SetId) (w : Option WatchpointId) :
    (σ.add s w).world.held? = σ.held? := by
  cases w with
  | none => rfl
  | some w =>
    simp only [add, world_after]
    split
    · rfl
    · exact held?_link s w

@[simp] theorem held?_notifyWrite (s : SetId) : (σ.notifyWrite s).world.held? = σ.held? := by
  rw [notifyWrite]
  split
  · exact held?_sweep s _
  · rfl

@[simp] theorem held?_onHandle (h : HandleId) (f : SetId → Turn)
    (same : ∀ s, (f s).world.held? = σ.held?) : (σ.onHandle h f).world.held? = σ.held? := by
  rw [onHandle]
  split
  · exact same _
  · rfl

@[simp] theorem held?_inflate (i : SlotId) : (σ.inflate i).1.held? = σ.held? := by
  rw [inflate]
  split
  · next h => exact held?_promoteFrom h
  · rfl

@[simp] theorem held?_promote (i : SlotId) : (σ.promote i).world.held? = σ.held? := by
  rw [promote]
  split
  · next h => exact held?_promoteFrom h
  · rfl

@[simp] theorem held?_slotAdd (i : SlotId) (w : Option WatchpointId) :
    (σ.slotAdd i w).world.held? = σ.held? := by
  simp only [slotAdd]
  split <;> simp

@[simp] theorem held?_slotStartWatching (i : SlotId) : (σ.slotStartWatching i).held? = σ.held? := by
  rw [slotStartWatching]
  split <;> simp

@[simp] theorem held?_slotNotifyWrite (i : SlotId) : (σ.slotNotifyWrite i).world.held? = σ.held? := by
  rw [slotNotifyWrite]
  split
  · split <;> simp
  · split <;> simp
  · rfl

@[simp] theorem held?_freeFat (i : SlotId) : (σ.freeFat i).world.held? = σ.held? := by
  rw [freeFat]
  split <;> simp

/-! ### Calls -/

theorem held?_putContext (c : ContextId) (a : Context) (x : Identity) :
    held? { σ with contexts := σ.contexts.put c a } x = if x =
    .context c then some true else σ.held? x := by
  cases x with
  | watchpoint | handle | slot => rfl
  | context d => simpa [held?, eq_comm] using get?_put_map σ.contexts c d a fun _ => true

theorem held?_putHandle (h : HandleId) (a : Handle) (x : Identity) :
    held? { σ with handles := σ.handles.put h a } x =
      if x = .handle h then some a.held else σ.held? x := by
  cases x with
  | context | watchpoint | slot => rfl
  | handle j => simpa [held?, eq_comm] using get?_put_map σ.handles h j a Handle.held

theorem held?_putSlot (i : SlotId) (a : Slot) (x : Identity) :
    held? { σ with slots := σ.slots.put i a } x = if x = .slot i then some a.held else σ.held? x := by
  cases x with
  | context | watchpoint | handle => rfl
  | slot j => simpa [held?, eq_comm] using get?_put_map σ.slots i j a Slot.held

theorem held?_create (w : WatchpointId) (c : ContextId) (s d : Label) (x : Identity) :
    (σ.create w c s d).held? x = if x = .watchpoint w then some true else σ.held? x := by
  rw [create, held?_count]
  cases x with
  | context | handle | slot => rfl
  | watchpoint v =>
    refine (get?_put_map σ.watchpoints w v _ Watchpoint.held).trans ?_
    simp [held?, eq_comm]

theorem held?_newHandle (s : SetId) (h : HandleId) (x : Identity) :
    (σ.newHandle (some s) h).held? x = if x = .handle h then some true else σ.held? x :=
  held?_putHandle h _ x

theorem held?_dropWatchpoint {w : WatchpointId} {x : Identity} (other : x ≠ .watchpoint w) :
    (σ.dropWatchpoint w).world.held? x = σ.held? x := by
  rw [← held?_unlink (σ := σ) w]
  cases x with
  | context | handle | slot => rfl
  | watchpoint v =>
    have hv : w ≠ v := fun he => other (he ▸ rfl)
    exact congrArg (Option.map Watchpoint.held) ((Store.get?_modify _ _ _ _).trans (if_neg hv))

theorem held?_dropHandle {h : HandleId} {x : Identity} (other : x ≠ .handle h) :
    (σ.dropHandle h).world.held? x = σ.held? x := by
  have hmap : held? { σ with handles := σ.handles.modify h fun t => { t with held := false } } x =
      σ.held? x := by
    cases x with
    | context | watchpoint | slot => rfl
    | handle j =>
      have hj : h ≠ j := fun he => other (he ▸ rfl)
      exact congrArg (Option.map Handle.held) ((Store.get?_modify _ _ _ _).trans (if_neg hj))
  rw [dropHandle]
  split
  · rw [held?_release, hmap]
  · exact hmap

theorem held?_dropSlot {i : SlotId} {x : Identity} (other : x ≠ .slot i) :
    (σ.dropSlot i).world.held? x = σ.held? x := by
  have hmap : held? { σ with slots := σ.slots.modify i fun t => { t with held := false } } x =
      σ.held? x := by
    cases x with
    | context | watchpoint | handle => rfl
    | slot j =>
      have hj : i ≠ j := fun he => other (he ▸ rfl)
      exact congrArg (Option.map Slot.held) ((Store.get?_modify _ _ _ _).trans (if_neg hj))
  rw [dropSlot]
  split
  · rw [held?_release, hmap]
  · exact hmap

/-- A call leaves alone what it neither makes nor drops. -/
theorem held?_begin_of_ne {c : Call} {x : Identity} (new : x ∉ c.makes) (kept : c.drops ≠ some x) :
    (σ.begin c).world.held? x = σ.held? x := by
  cases c with
  | openRuntime r p settings =>
    rw [begin, openRuntime]
    split
    · rfl
    · exact (held?_putContext _ _ x).trans (if_neg (by simpa [Call.makes] using new))
  | create w r s d => exact (held?_create _ _ _ _ x).trans (if_neg (by simpa [Call.makes] using new))
  | createAlone w p s d =>
    rw [Call.makes, List.mem_cons, List.mem_singleton, not_or] at new
    refine (held?_create _ _ _ _ x).trans ((if_neg new.2).trans ?_)
    exact (held?_putContext _ _ x).trans (if_neg new.1)
  | newSet h mode => exact (held?_putHandle _ _ x).trans (if_neg (by simpa [Call.makes] using new))
  | cloneHandle h copy =>
    rw [begin, world_done]
    cases σ.handleSet? h with
    | none => rfl
    | some s => exact (held?_newHandle s _ x).trans (if_neg (by simpa [Call.makes] using new))
  | handleOfSlot i h =>
    rw [begin, world_done]
    cases σ.fatSet? i with
    | none => rfl
    | some s => exact (held?_newHandle s _ x).trans (if_neg (by simpa [Call.makes] using new))
  | newSlot i mode => exact (held?_putSlot _ _ x).trans (if_neg (by simpa [Call.makes] using new))
  | dropWatchpoint w => exact held?_dropWatchpoint fun he => kept (he ▸ rfl)
  | dropHandle h => exact held?_dropHandle fun he => kept (he ▸ rfl)
  | dropSlot i => exact held?_dropSlot fun he => kept (he ▸ rfl)
  | resolve w => rw [begin, held?_resolve]
  | fire w => rw [begin, held?_fire]
  | add h w => rw [begin, held?_onHandle _ _ fun s => held?_add s w]
  | startWatching h =>
    rw [begin, held?_onHandle]
    intro s
    rfl
  | notifyWrite h => rw [begin, held?_onHandle _ _ held?_notifyWrite]
  | fireAll h => rw [begin, held?_onHandle _ _ fun s => held?_sweep s .rest]
  | slotAdd i w => rw [begin, held?_slotAdd]
  | slotStartWatching i => rw [begin, world_done, held?_slotStartWatching]
  | slotNotifyWrite i => rw [begin, held?_slotNotifyWrite]
  | inflate i => rw [begin, world_after, world_done, held?_inflate]
  | promote i => rw [begin, held?_promote]
  | freeFat i => rw [begin, held?_freeFat]

/-- What a call has made is held, if the call returns; a handle on the set of a slot is made only if the
    slot has one. -/
theorem held?_begin_of_makes {c : Call} {x : Identity} (new : x ∈ c.makes) (allowed : σ.allows c = true)
    (returned : (σ.begin c).next = .returned)
    (fat : ∀ i h, c = .handleOfSlot i h → (σ.fatSet? i).isSome = true) :
    (σ.begin c).world.held? x = some true := by
  cases c with
  | openRuntime r p settings =>
    rw [begin, openRuntime] at returned ⊢
    split at returned
    · cases returned
    · exact (held?_putContext _ _ x).trans (if_pos (by simpa [Call.makes] using new))
  | create w r s d => exact (held?_create _ _ _ _ x).trans (if_pos (by simpa [Call.makes] using new))
  | createAlone w p s d =>
    refine (held?_create _ _ _ _ x).trans ?_
    split
    · rfl
    · next hx =>
      refine (held?_putContext _ _ x).trans (if_pos ?_)
      simpa [Call.makes, hx] using new
  | newSet h mode => exact (held?_putHandle _ _ x).trans (if_pos (by simpa [Call.makes] using new))
  | cloneHandle h copy =>
    obtain ⟨s, hs⟩ := Option.isSome_iff_exists.mp (Bool.and_eq_true_iff.mp allowed).1
    rw [begin, world_done, hs]
    exact (held?_newHandle s _ x).trans (if_pos (by simpa [Call.makes] using new))
  | handleOfSlot i h =>
    obtain ⟨s, hs⟩ := Option.isSome_iff_exists.mp (fat i h rfl)
    rw [begin, world_done, hs]
    exact (held?_newHandle s _ x).trans (if_pos (by simpa [Call.makes] using new))
  | newSlot i mode => exact (held?_putSlot _ _ x).trans (if_pos (by simpa [Call.makes] using new))
  | _ => cases new

end World

end Invalidation
