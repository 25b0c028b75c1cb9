import Invalidation.Proofs.World.Tables
import Invalidation.Proofs.World.Turns

/-! The library without its traces. Whether redirects leave a trace is a setting of a context; a
    world is *untraced* by taking it away from all of them, and a log by striking out what it made.
    Nothing else depends on it: every turn of the untraced world is the turn of the world, untraced.

        world ────────turn───────▶ world
          │                          │
        untraced                  untraced
          │                          │
        world ──the same turn────▶ world

    What the setting does do is said once, for the turn as a whole: a turn that ends by asking for a
    jump reports that jump last if the watchpoint's context traces redirects, and no turn reports
    any other. -/

namespace Invalidation

/-- The settings without the trace of redirects. -/
def Settings.untraced (s : Settings) : Settings := { s with firing := { traceRedirects := false } }

/-- The context without the trace of redirects. -/
def Context.untraced (c : Context) : Context := { c with settings := c.settings.untraced }

/-- The world without the trace of redirects. -/
def World.untraced (σ : World) : World := { σ with contexts := σ.contexts.map Context.untraced }

/-- The call with settings that do not trace redirects. -/
def Call.untraced : Call → Call
  | .openRuntime r p settings => .openRuntime r p settings.untraced
  | c => c

/-- The event as it would be without the trace of redirects, if it would be there at all. -/
def LogEvent.untraced? : LogEvent → Option LogEvent
  | .redirecting _ _ => none
  | .runtimeReady settings => some (.runtimeReady settings.untraced)
  | e => some e

/-- The turn without the trace of redirects. -/
def Turn.untraced (t : Turn) : Turn := ⟨t.world.untraced, t.events.filterMap LogEvent.untraced?, t.next⟩

namespace World

variable {σ : World} {s : SetId} {w : WatchpointId} {i : SlotId} {h : HandleId}

/-! ### What is read -/

@[simp] theorem watchpoint_untraced (w : WatchpointId) : σ.untraced.watchpoint w = σ.watchpoint w := rfl

@[simp] theorem flagsOf_untraced (s : SetId) : σ.untraced.flagsOf s = σ.flagsOf s := rfl

@[simp] theorem watchersOf_untraced (s : SetId) : σ.untraced.watchersOf s = σ.watchersOf s := rfl

@[simp] theorem owners_untraced (s : SetId) : σ.untraced.owners s = σ.owners s := rfl

@[simp] theorem handleSet?_untraced (h : HandleId) : σ.untraced.handleSet? h = σ.handleSet? h := rfl

@[simp] theorem slot?_untraced (i : SlotId) : σ.untraced.slot? i = σ.slot? i := rfl

@[simp] theorem fatSet?_untraced (i : SlotId) : σ.untraced.fatSet? i = σ.fatSet? i := rfl

@[simp] theorem flagsAfterFree_untraced (s : SetId) (shared : Bool) :
    σ.untraced.flagsAfterFree s shared = σ.flagsAfterFree s shared := rfl

@[simp] theorem context_untraced (c : ContextId) : σ.untraced.context c = (σ.context c).untraced := by
  rw [context, context, untraced, Store.get?_map]
  cases σ.contexts.get? c <;> rfl

@[simp] theorem contextOf_untraced (w : WatchpointId) :
    σ.untraced.contextOf w = (σ.contextOf w).untraced :=
  context_untraced _

theorem allows_untraced (c : Call) : σ.untraced.allows c.untraced = σ.allows c := by
  cases c with
  | openRuntime r p settings => simp only [Call.untraced, allows, untraced, Store.contains_map]
  | create w r s d | createAlone w p s d =>
    simp only [Call.untraced, allows, untraced, Store.contains_map]
  | _ => rfl

/-! ### What is changed -/

theorem untraced_count (w : WatchpointId) (f : Counters → Counters) :
    (σ.count w f).untraced = σ.untraced.count w f := by
  have hcontexts :=
    Store.map_modify (f := Context.untraced) (g := fun c => { c with counters := f c.counters })
    (h := fun c => { c with counters := f c.counters }) (fun _ => rfl) σ.contexts
      (σ.watchpoint w).context
  exact congrArg (fun cs => ({ σ with contexts := cs } : World)) hcontexts

theorem untraced_unlink (w : WatchpointId) : (σ.unlink w).untraced = σ.untraced.unlink w := by
  rw [unlink, unlink, watchpoint_untraced]
  split <;> rfl

theorem untraced_abandon (sweep : Option Sweep) :
    (σ.abandon sweep).untraced = σ.untraced.abandon sweep := by
  rw [abandon.eq_def, abandon.eq_def]
  split <;> rfl

theorem untraced_finish (s : SetId) (ending : Ending) :
    (σ.finish s ending).untraced = σ.untraced.finish s ending := by
  cases ending <;> rfl

theorem untraced_settle (w : WatchpointId) (s d : Address) :
    (σ.settle w s d).untraced = σ.untraced.settle w s d := untraced_count _ _

theorem untraced_openContext (c : ContextId) (x : Context) :
    untraced { σ with contexts := σ.contexts.put c x } =
      { σ.untraced with contexts := σ.untraced.contexts.put c x.untraced } := by
  rw [untraced, untraced, Store.map_put]

theorem untraced_ownContext (w : WatchpointId) (p : PatcherId) :
    (σ.ownContext w p).untraced = σ.untraced.ownContext w p := untraced_openContext _ _

theorem untraced_create (w : WatchpointId) (c : ContextId) (s d : Label) :
    (σ.create w c s d).untraced = σ.untraced.create w c s d := untraced_count _ _

theorem untraced_slotStartWatching (i : SlotId) :
    (σ.slotStartWatching i).untraced = σ.untraced.slotStartWatching i := by
  rw [slotStartWatching, slotStartWatching, slot?_untraced]
  split <;> rfl

theorem untraced_inflate (i : SlotId) :
    (σ.inflate i).1.untraced = (σ.untraced.inflate i).1 ∧
      (σ.untraced.inflate i).2 = (σ.inflate i).2 ∧
      (σ.inflate i).2.filterMap LogEvent.untraced? = (σ.inflate i).2 := by
  rw [inflate, inflate, slot?_untraced]
  split <;> exact ⟨rfl, rfl, rfl⟩

theorem untraced_newHandle (s : Option SetId) (h : HandleId) :
    (σ.newHandle s h).untraced = σ.untraced.newHandle s h := by
  cases s <;> rfl

end World

/-! ### Turns -/

namespace Turn

theorem untraced_after (events : List LogEvent) (t : Turn) :
    (t.after events).untraced = t.untraced.after (events.filterMap LogEvent.untraced?) := by
  rw [after, untraced, List.filterMap_append]
  rfl

end Turn

namespace World

variable {σ : World} {s : SetId} {w : WatchpointId} {i : SlotId} {h : HandleId}

theorem untraced_fire (w : WatchpointId) (sweep : Option Sweep) :
    (σ.fire w sweep).untraced = σ.untraced.fire w sweep := by
  rw [fire, fire, watchpoint_untraced, contextOf_untraced]
  cases (σ.watchpoint w).addresses? with
  | none => exact congrArg (fun τ => Turn.mk τ [] _) (untraced_abandon sweep)
  | some a =>
    -- only here does the setting make a difference, and what it makes is struck out
    cases ht : (σ.contextOf w).settings.firing.traceRedirects <;>
      simp [Turn.untraced, Context.untraced, Settings.untraced, LogEvent.untraced?, ht]

theorem untraced_sweepOn (sweep : Sweep) : (σ.sweepOn sweep).untraced = σ.untraced.sweepOn sweep := by
  rw [sweepOn, sweepOn, watchersOf_untraced]
  cases (σ.watchersOf sweep.set).front? with
  | some w => exact untraced_fire w (some sweep)
  | none =>
    rw [Turn.untraced_after, ← untraced_finish]
    split <;> rfl

theorem untraced_sweep (s : SetId) (ending : Ending) :
    (σ.sweep s ending).untraced = σ.untraced.sweep s ending := untraced_sweepOn _

theorem untraced_release (s : SetId) : (σ.release s).untraced = σ.untraced.release s := by
  rw [release, release, owners_untraced]
  split
  · exact untraced_sweep s .destroy
  · rfl

theorem untraced_patched (p : Patching) : (σ.patched p).untraced = σ.untraced.patched p := by
  have hworld : ((σ.countRedirect p.watchpoint).unlink p.watchpoint).untraced =
      (σ.untraced.countRedirect p.watchpoint).unlink p.watchpoint := by
    rw [untraced_unlink, countRedirect, untraced_count, countRedirect]
  rw [patched, patched, ← hworld]
  cases p.sweep with
  | none => rfl
  | some s => exact untraced_sweepOn _

theorem untraced_resolve (w : WatchpointId) : (σ.resolve w).untraced = σ.untraced.resolve w := by
  rw [resolve, resolve, watchpoint_untraced]
  split <;> rfl

theorem untraced_located (l : Locating) (answer : Except LinkFailure Address) :
    (σ.located l answer).untraced = σ.untraced.located l answer := by
  rw [located.eq_def, located.eq_def, contextOf_untraced]
  cases answer with
  | error e => rfl
  | ok a =>
    cases l.source with
    | none => rfl
    | some source =>
      have hlinking : (σ.contextOf l.watchpoint).untraced.settings.linking =
          (σ.contextOf l.watchpoint).settings.linking := rfl
      dsimp only
      rw [hlinking]
      cases (σ.contextOf l.watchpoint).settings.linking.checkJump source a with
      | error e => rfl
      | ok u =>
        rw [← untraced_settle]
        rfl

theorem untraced_add (s : SetId) (w : Option WatchpointId) :
    (σ.add s w).untraced = σ.untraced.add s w := by
  cases w with
  | none => rfl
  | some w =>
    rw [add, add, Turn.untraced_after, flagsOf_untraced, watchpoint_untraced]
    congr 1
    · split <;> rfl
    · split <;> rfl

theorem untraced_notifyWrite (s : SetId) : (σ.notifyWrite s).untraced = σ.untraced.notifyWrite s := by
  rw [notifyWrite, notifyWrite, flagsOf_untraced]
  split
  · exact untraced_sweep s .invalidate
  · rfl

theorem untraced_dropWatchpoint (w : WatchpointId) :
    (σ.dropWatchpoint w).untraced = σ.untraced.dropWatchpoint w := by
  rw [dropWatchpoint, dropWatchpoint, Turn.untraced_after, watchpoint_untraced, ← untraced_unlink]
  congr 1
  split <;> rfl

theorem untraced_promote (i : SlotId) : (σ.promote i).untraced = σ.untraced.promote i := by
  rw [promote, promote, slot?_untraced]
  split <;> rfl

theorem untraced_slotAdd (i : SlotId) (w : Option WatchpointId) :
    (σ.slotAdd i w).untraced = σ.untraced.slotAdd i w := by
  obtain ⟨hworld, hevents, hkept⟩ := untraced_inflate (σ := σ) i
  rw [slotAdd, slotAdd]
  simp only [← hworld, hevents, fatSet?_untraced]
  split
  · rw [Turn.untraced_after, untraced_add, hkept]
  · rw [Turn.untraced_after, hkept]
    rfl

theorem untraced_slotNotifyWrite (i : SlotId) :
    (σ.slotNotifyWrite i).untraced = σ.untraced.slotNotifyWrite i := by
  rw [slotNotifyWrite, slotNotifyWrite, slot?_untraced]
  split
  · split <;> rfl
  · rw [flagsOf_untraced]
    split
    · exact untraced_notifyWrite _
    · rfl
  · rfl

theorem untraced_freeFat (i : SlotId) : (σ.freeFat i).untraced = σ.untraced.freeFat i := by
  rw [freeFat, freeFat, fatSet?_untraced]
  split
  · rfl
  · rw [Turn.untraced_after, untraced_release]
    rfl

theorem untraced_dropHandle (h : HandleId) : (σ.dropHandle h).untraced = σ.untraced.dropHandle h := by
  rw [dropHandle, dropHandle, handleSet?_untraced]
  split
  · exact untraced_release _
  · rfl

theorem untraced_dropSlot (i : SlotId) : (σ.dropSlot i).untraced = σ.untraced.dropSlot i := by
  rw [dropSlot, dropSlot, fatSet?_untraced]
  split
  · exact untraced_release _
  · rfl

theorem untraced_onHandle (h : HandleId) {f g : SetId → Turn} (same : ∀ s, (f s).untraced = g s) :
    (σ.onHandle h f).untraced = σ.untraced.onHandle h g := by
  rw [onHandle, onHandle, handleSet?_untraced]
  split
  · exact same _
  · rfl

theorem untraced_openRuntime (r : RuntimeId) (p : PatcherId) (settings : Settings) :
    (σ.openRuntime r p settings).untraced = σ.untraced.openRuntime r p settings.untraced := by
  have hvalid : settings.untraced.validate = settings.validate.map Settings.untraced := by
    rw [Settings.validate, Settings.validate, show settings.untraced.linking =
      settings.linking from rfl]
    cases settings.linking.validate <;> rfl
  rw [openRuntime, openRuntime, hvalid]
  cases settings.validate with
  | error e => rfl
  | ok settings =>
    change Turn.untraced (Turn.after _ _) = Turn.after _ _
    rw [Turn.untraced_after]
    exact congrArg (fun τ => (done τ).after _) (untraced_openContext _ _)

/-- The turn of a call, untraced, is the turn of the untraced call in the untraced world. -/
theorem untraced_begin (c : Call) : (σ.begin c).untraced = σ.untraced.begin c.untraced := by
  cases c with
  | openRuntime r p settings => exact untraced_openRuntime r p settings
  | create w r s d => exact congrArg done (untraced_create w _ s d)
  | createAlone w p s d =>
    refine congrArg done ((untraced_create w _ s d).trans ?_)
    rw [untraced_ownContext]
  | resolve w => exact untraced_resolve w
  | fire w => exact untraced_fire w none
  | dropWatchpoint w => exact untraced_dropWatchpoint w
  | newSet | newSlot => rfl
  | cloneHandle h copy => exact congrArg done (untraced_newHandle _ copy)
  | add h w => exact untraced_onHandle h fun s => untraced_add s w
  | startWatching h => exact untraced_onHandle h fun s => rfl
  | notifyWrite h => exact untraced_onHandle h fun s => untraced_notifyWrite s
  | fireAll h => exact untraced_onHandle h fun s => untraced_sweep s .rest
  | dropHandle h => exact untraced_dropHandle h
  | slotAdd i w => exact untraced_slotAdd i w
  | slotStartWatching i => exact congrArg done (untraced_slotStartWatching i)
  | slotNotifyWrite i => exact untraced_slotNotifyWrite i
  | inflate i =>
    obtain ⟨hworld, hevents, hkept⟩ := untraced_inflate (σ := σ) i
    change Turn.untraced (Turn.after _ _) = Turn.after _ _
    rw [Turn.untraced_after, hkept, hevents, ← hworld]
    rfl
  | promote i => exact untraced_promote i
  | handleOfSlot i h => exact congrArg done (untraced_newHandle _ h)
  | freeFat i => exact untraced_freeFat i
  | dropSlot i => exact untraced_dropSlot i

theorem untraced_unwind (pending : Pending) :
    (σ.unwind pending).untraced = σ.untraced.unwind pending := by
  cases pending with
  | patch p => exact untraced_abandon p.sweep
  | locate l => rfl

end World

/-! ### What the setting does -/

/-- Whether an event is the trace of a redirect. -/
def LogEvent.isRedirect : LogEvent → Bool
  | .redirecting _ _ => true
  | _ => false

namespace Turn

/-- The trace of the jump that a turn ends by asking for, if the context of its watchpoint traces
    redirects. -/
def announcement (t : Turn) : List LogEvent :=
  match t.next with
  | .waiting (.patch _ source destination) (.patch p) =>
    if (t.world.contextOf p.watchpoint).settings.firing.traceRedirects then
      [.redirecting source destination]
    else []
  | _ => []

/-- The turn traces the jump that it asks for, last of all that it reports, and no other. -/
def Announced (t : Turn) : Prop :=
  ∃ others : List LogEvent, t.events = others ++ t.announcement ∧ ∀ e ∈ others, e.isRedirect = false

theorem quiet_singleton {e : LogEvent} (quiet : e.isRedirect = false) :
    ∀ x ∈ [e], x.isRedirect = false := by
  simpa using quiet

theorem quiet_ite {c : Prop} [Decidable c] {e : LogEvent} (quiet : e.isRedirect = false) :
    ∀ x ∈ if c then [e] else [], x.isRedirect = false := by
  split
  · exact quiet_singleton quiet
  · exact fun _ hx => by cases hx

variable {t : Turn}

theorem announced_of_quiet (asks : t.announcement = []) (quiet : ∀ e ∈ t.events, e.isRedirect = false) :
    t.Announced := ⟨t.events, by rw [asks, List.append_nil], quiet⟩

theorem Announced.after {events : List LogEvent} (h : t.Announced)
    (quiet : ∀ e ∈ events, e.isRedirect = false) : (t.after events).Announced := by
  obtain ⟨others, heq, hquiet⟩ := h
  refine ⟨events ++ others, ?_, List.forall_mem_append.mpr ⟨quiet, hquiet⟩⟩
  change events ++ t.events = events ++ others ++ t.announcement
  rw [heq, List.append_assoc]

end Turn

namespace World

variable {σ : World}

theorem announced_done : σ.done.Announced := Turn.announced_of_quiet rfl fun _ he => by cases he

theorem announced_panic (fault : Fault) : (σ.panic fault).Announced :=
  Turn.announced_of_quiet rfl fun _ he => by cases he

theorem announced_fire (w : WatchpointId) (sweep : Option Sweep) : (σ.fire w sweep).Announced := by
  rw [fire]
  split
  · exact announced_panic _
  · exact ⟨[], rfl, fun _ he => by cases he⟩

theorem announced_sweepOn (sweep : Sweep) : (σ.sweepOn sweep).Announced := by
  rw [sweepOn]
  split
  · exact announced_fire _ _
  · exact announced_done.after (Turn.quiet_ite rfl)

theorem announced_release (s : SetId) : (σ.release s).Announced := by
  rw [release]
  split
  · exact announced_sweepOn _
  · exact announced_done

theorem announced_patched (p : Patching) : (σ.patched p).Announced := by
  rw [patched]
  split
  · exact announced_done
  · exact announced_sweepOn _

theorem announced_located (l : Locating) (answer : Except LinkFailure Address) :
    (σ.located l answer).Announced := by
  rw [located.eq_def]
  split
  · exact Turn.announced_of_quiet rfl fun _ he => by cases he
  · exact Turn.announced_of_quiet rfl fun _ he => by cases he
  · split
    · exact Turn.announced_of_quiet rfl fun _ he => by cases he
    · exact announced_done.after (Turn.quiet_singleton rfl)

theorem announced_add (s : SetId) (w : Option WatchpointId) : (σ.add s w).Announced := by
  cases w with
  | none => exact announced_done
  | some w =>
    refine Turn.Announced.after ?_ (Turn.quiet_ite rfl)
    split
    · exact announced_panic _
    · exact announced_done

theorem announced_notifyWrite (s : SetId) : (σ.notifyWrite s).Announced := by
  rw [notifyWrite]
  split
  · exact announced_sweepOn _
  · exact announced_panic _

theorem quiet_inflate (i : SlotId) : ∀ e ∈ (σ.inflate i).2, e.isRedirect = false := by
  rw [inflate]
  split
  · exact Turn.quiet_singleton rfl
  · exact fun _ he => by cases he

theorem announced_onHandle (h : HandleId) {f : SetId → Turn} (all : ∀ s, (f s).Announced) :
    (σ.onHandle h f).Announced := by
  rw [onHandle]
  split
  · exact all _
  · exact announced_done

theorem announced_begin (c : Call) : (σ.begin c).Announced := by
  cases c with
  | openRuntime r p settings =>
    rw [begin, openRuntime]
    split
    · exact Turn.announced_of_quiet rfl fun _ he => by cases he
    · exact announced_done.after (Turn.quiet_singleton rfl)
  | create | createAlone | newSet | newSlot | cloneHandle | handleOfSlot | slotStartWatching =>
    exact announced_done
  | resolve w =>
    rw [begin, resolve]
    split <;> exact Turn.announced_of_quiet rfl fun _ he => by cases he
  | fire w => exact announced_fire w none
  | dropWatchpoint w => exact announced_done.after (Turn.quiet_ite rfl)
  | add h w => exact announced_onHandle h fun s => announced_add s w
  | startWatching h => exact announced_onHandle h fun s => announced_done
  | notifyWrite h => exact announced_onHandle h announced_notifyWrite
  | fireAll h => exact announced_onHandle h fun s => announced_sweepOn _
  | dropHandle h =>
    rw [begin, dropHandle]
    split
    · exact announced_release _
    · exact announced_done
  | slotAdd i w =>
    rw [begin, slotAdd]
    have hquiet : ∀ e ∈ (σ.inflate i).2, e.isRedirect = false := quiet_inflate i
    generalize σ.inflate i = promotion at hquiet
    obtain ⟨τ, events⟩ := promotion
    dsimp only at hquiet ⊢
    split
    · exact (announced_add _ w).after hquiet
    · exact announced_done.after hquiet
  | slotNotifyWrite i =>
    rw [begin, slotNotifyWrite]
    split
    · exact announced_done
    · split
      · exact announced_notifyWrite _
      · exact announced_done
    · exact announced_done
  | inflate i => exact announced_done.after (quiet_inflate i)
  | promote i =>
    rw [begin, promote]
    split
    · exact announced_done.after (Turn.quiet_singleton rfl)
    · exact announced_panic _
  | freeFat i =>
    rw [begin, freeFat]
    split
    · exact announced_panic _
    · exact (announced_release _).after (Turn.quiet_singleton rfl)
  | dropSlot i =>
    rw [begin, dropSlot]
    split
    · exact announced_release _
    · exact announced_done

end World

end Invalidation
