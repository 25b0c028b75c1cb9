import Invalidation.Code.LinkBuffer
import Invalidation.Json.Basic
import Invalidation.World.State

/-! Scripts for the library. A *step* makes a named object, or does one thing with named objects. A
    scripted patcher or link buffer brings *reactions*: what is to be done while its call of a given
    number runs, before it answers. Reactions are steps again, so that a script can reach into the
    library from inside it. -/

namespace Invalidation

namespace Scenario

/-- Who patches for a new runtime or watchpoint. -/
inductive PatcherName where
  | scripted (name : String)
  | recorder (name : String)
  deriving DecidableEq

/-- Where a new watchpoint belongs: to a runtime, or to nothing but a patcher. -/
inductive Home where
  | runtime (name : String)
  | alone (patcher : PatcherName)
  deriving DecidableEq

/-- One step of a script. -/
inductive Step where
  /-- A scripted patcher. -/
  | patcher (name : String) (reactions : List (Nat × List Step))
  /-- A scripted link buffer. -/
  | buffer (name : String) (labels : LinkBuffer) (reactions : List (Nat × List Step))
  /-- A patcher that takes notes of what it installs. -/
  | recorder (name : String)
  | recorderInfo (recorder : String) (source : Option Address)
  | recorderDebug (recorder : String) (pretty : Bool)
  /-- A link buffer without reactions. -/
  | fixed (name : String) (labels : LinkBuffer)
  | resolveFixed (watchpoint fixed : String)
  /-- A watchpoint on a recorder, resolved against the standard buffer. -/
  | resolvedWatchpoint (name recorder : String) (source destination : Label)
  | address (label : Label)
  | modes
  | runtime (name : String) (patcher : PatcherName) (settings : Option Json)
  | runtimeStats (runtime : String)
  | runtimeConfig (runtime : String)
  | runtimeDebug (runtime : String) (pretty : Bool)
  | runtimeDrop (runtime : String)
  | watchpoint (name : String) (source destination : Label) (home : Home)
  | resolve (watchpoint buffer : String)
  | fire (watchpoint : String)
  | register (watchpoint set : String)
  | watchpointInfo (watchpoint : String)
  | watchpointDebug (watchpoint : String) (pretty : Bool)
  | watchpointDrop (watchpoint : String)
  | set (name : String) (mode : InitialMode) (runtime : Option String)
  | add (set : String) (watchpoint : Option String)
  | startWatching (set : String)
  | notifyWrite (set : String)
  | fireAll (set : String)
  | setInfo (set : String)
  | setDebug (set : String) (pretty : Bool)
  | setClone (copy set : String)
  | setSame (set other : String)
  | setDrop (set : String)
  | slot (name : String) (mode : InitialMode) (runtime : Option String)
  | slotAdd (watchpoint : Option String) (slot : String)
  | slotStartWatching (slot : String)
  | slotNotifyWrite (slot : String)
  | slotFreeFat (slot : String)
  | slotInflate (slot : String) (copy : Option String)
  | slotPromote (slot : String) (copy : Option String)
  | slotInfo (slot : String)
  | slotDebug (slot : String) (pretty : Bool)
  | slotDrop (slot : String)
  /-- Fails the patcher or link buffer in whose reaction it stands. -/
  | panic (message : String)

/-! ### How many steps a script has -/

mutual

/-- The steps in a step: itself and those of its reactions. -/
def Step.size : Step → Nat
  | .patcher _ reactions => reactionsSize reactions + 1
  | .buffer _ _ reactions => reactionsSize reactions + 1
  | _ => 1

/-- The steps in a list of reactions. -/
def reactionsSize : List (Nat × List Step) → Nat
  | [] => 0
  | r :: rs => reactionSize r + reactionsSize rs

/-- The steps in a reaction. -/
def reactionSize : Nat × List Step → Nat
  | (_, steps) => stepsSize steps

/-- The steps in a list of steps. -/
def stepsSize : List Step → Nat
  | [] => 0
  | s :: ss => s.size + stepsSize ss

end

end Scenario

end Invalidation
