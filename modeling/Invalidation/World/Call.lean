import Invalidation.World.Register
import Invalidation.World.Resolve

/-! The calls of the library and the turn that each begins with. A call names what it works on by
    identity; a call that makes something new brings an identity that has not been used yet.

    Two calls are different from the others in that they stand still in the middle of their work:
    resolving asks a link buffer, and everything that fires asks a patcher. The object such a call
    was made on stays lent to it until it ends, so that it cannot be dropped from inside. -/

namespace Invalidation

/-- A call of the library. -/
inductive Call where
  /-- Opens a runtime with a patcher and settings. -/
  | openRuntime (runtime : RuntimeId) (patcher : PatcherId) (settings : Settings)
  /-- Makes a watchpoint in a runtime. -/
  | create (watchpoint : WatchpointId) (runtime : RuntimeId) (source destination : Label)
  /-- Makes a watchpoint that belongs to no runtime. -/
  | createAlone (watchpoint : WatchpointId) (patcher : PatcherId) (source destination : Label)
  /-- Turns the labels of a watchpoint into addresses. -/
  | resolve (watchpoint : WatchpointId)
  /-- Fires one watchpoint. -/
  | fire (watchpoint : WatchpointId)
  /-- The creator of a watchpoint lets go of it. -/
  | dropWatchpoint (watchpoint : WatchpointId)
  /-- Makes a set with one handle on it. -/
  | newSet (handle : HandleId) (mode : InitialMode)
  /-- Makes another handle on the set of a handle. -/
  | cloneHandle (handle copy : HandleId)
  /-- Registers a watchpoint on a set. -/
  | add (handle : HandleId) (watchpoint : Option WatchpointId)
  /-- Marks a set watched. -/
  | startWatching (handle : HandleId)
  /-- Reports that the assumption of a set no longer holds. -/
  | notifyWrite (handle : HandleId)
  /-- Fires what is registered on a set. -/
  | fireAll (handle : HandleId)
  /-- Lets go of a handle. -/
  | dropHandle (handle : HandleId)
  /-- Makes a slot. -/
  | newSlot (slot : SlotId) (mode : InitialMode)
  /-- Registers a watchpoint on a slot. -/
  | slotAdd (slot : SlotId) (watchpoint : Option WatchpointId)
  /-- Marks a slot watched. -/
  | slotStartWatching (slot : SlotId)
  /-- Reports that the assumption of a slot no longer holds. -/
  | slotNotifyWrite (slot : SlotId)
  /-- Gives a slot a set of its own unless it has one. -/
  | inflate (slot : SlotId)
  /-- Gives a slot that has no set one of its own. -/
  | promote (slot : SlotId)
  /-- Makes a handle on the set of a slot. -/
  | handleOfSlot (slot : SlotId) (handle : HandleId)
  /-- A slot gives up its share in a set. -/
  | freeFat (slot : SlotId)
  /-- Lets go of a slot. -/
  | dropSlot (slot : SlotId)
  deriving DecidableEq

/-- What a call has on loan until it ends. -/
inductive Loan where
  | nothing
  | watchpoint (watchpoint : WatchpointId)
  | handle (handle : HandleId)
  | slot (slot : SlotId)
  deriving DecidableEq

namespace Call

/-- What a call has on loan while it waits. What it drops is no longer anybody's, so it is not lent. -/
def loan : Call → Loan
  | .resolve w | .fire w => .watchpoint w
  | .notifyWrite h | .fireAll h => .handle h
  | .slotNotifyWrite i | .freeFat i => .slot i
  | _ => .nothing

end Call

namespace World

/-- Opens a runtime, if its settings are valid. -/
def openRuntime (σ : World) (r : RuntimeId) (p : PatcherId) (settings : Settings) : Turn :=
  match settings.validate with
  | .error reason => ⟨σ, [], .failed (.invalidSettings reason)⟩
  | .ok settings =>
    ({ σ with
        contexts := σ.contexts.put (.ofRuntime r) { patcher := p, settings := settings } } :
      World).done.after [.runtimeReady settings]

/-- Makes a watchpoint in a context and counts it there. -/
def create (σ : World) (w : WatchpointId) (c : ContextId) (source destination : Label) : World :=
  ({ σ with
      watchpoints := σ.watchpoints.put w
        { source := .label source, destination := .label destination, context := c,
          held := true } } : World).count
    w fun n => { n with created := n.created + 1 }

/-- Makes a context that one watchpoint has for itself, with the default settings. -/
def ownContext (σ : World) (w : WatchpointId) (p : PatcherId) : World :=
  { σ with contexts := σ.contexts.put (.ofWatchpoint w) { patcher := p } }

/-- Makes a set with one handle on it. -/
def newSet (σ : World) (h : HandleId) (mode : InitialMode) : World :=
  { σ with
    sets := σ.sets.put (.ofHandle h) { flags := mode.flags }
    handles := σ.handles.put h { set := .ofHandle h } }

/-- Makes a handle on a set that lives already. -/
def newHandle (σ : World) (s : Option SetId) (h : HandleId) : World :=
  match s with
  | some s => { σ with handles := σ.handles.put h { set := s } }
  | none => σ

/-- A turn on the set of a handle; nothing happens if the handle has been dropped. -/
def onHandle (σ : World) (h : HandleId) (f : SetId → Turn) : Turn :=
  match σ.handleSet? h with
  | some s => f s
  | none => σ.done

/-- The first turn of a call. -/
def begin (σ : World) : Call → Turn
  | .openRuntime r p settings => σ.openRuntime r p settings
  | .create w r source destination => (σ.create w (.ofRuntime r) source destination).done
  | .createAlone w p source destination =>
    ((σ.ownContext w p).create w (.ofWatchpoint w) source destination).done
  | .resolve w => σ.resolve w
  | .fire w => σ.fire w none
  | .dropWatchpoint w => σ.dropWatchpoint w
  | .newSet h mode => (σ.newSet h mode).done
  | .cloneHandle h copy => (σ.newHandle (σ.handleSet? h) copy).done
  | .add h w => σ.onHandle h fun s => σ.add s w
  | .startWatching h => σ.onHandle h fun s => (σ.modifyFlags s fun f => { f with watched := true }).done
  | .notifyWrite h => σ.onHandle h fun s => σ.notifyWrite s
  | .fireAll h => σ.onHandle h fun s => σ.sweep s .rest
  | .dropHandle h => σ.dropHandle h
  | .newSlot i mode => ({ σ with slots := σ.slots.put i { storage := .thin mode.flags } } : World).done
  | .slotAdd i w => σ.slotAdd i w
  | .slotStartWatching i => (σ.slotStartWatching i).done
  | .slotNotifyWrite i => σ.slotNotifyWrite i
  | .inflate i => (σ.inflate i).1.done.after (σ.inflate i).2
  | .promote i => σ.promote i
  | .handleOfSlot i h => (σ.newHandle (σ.fatSet? i) h).done
  | .freeFat i => σ.freeFat i
  | .dropSlot i => σ.dropSlot i

/-- What is left when whoever was asked fails: the waiting call ends abruptly where it stands. -/
def unwind (σ : World) : Pending → World
  | .patch p => σ.abandon p.sweep
  | .locate _ => σ

end World

end Invalidation
