import Invalidation.Code.Link
import Invalidation.World.State

/-! What one turn of the library amounts to. The library never installs a jump and never looks a
    label up by itself: it *asks* its surroundings to, and waits. While it waits, the surroundings
    may call it again, and so calls nest.

        begin ──▶ waiting ──answer──▶ waiting ──answer──▶ … ──▶ returned / failed / panicked
                     └── calls from inside the answer, each with turns of its own

    A turn is what happens from a call, or from an answer, to the next moment at which the library
    stands still: the new state, the events to report, and what it stands still for. What a waiting
    call still has to do when the answer comes is the value `Pending`, so a moment inside any nesting
    of calls is a state and a list of pending calls, and nothing else. -/

namespace Invalidation

/-- What a sweep does once the list of its set is empty. -/
inductive Ending where
  /-- Leave the set as it is. -/
  | rest
  /-- Declare the assumption broken. -/
  | invalidate
  /-- Do away with the set, which nobody owns any more. -/
  | destroy
  deriving DecidableEq

/-- A sweep: the firing of one watchpoint after the other until the list of a set is empty. -/
structure Sweep where
  set : SetId
  /-- How many watchpoints the sweep has fired so far. -/
  fired : Nat
  ending : Ending
  deriving DecidableEq

/-- A watchpoint whose jump is being installed, by itself or in a sweep. -/
structure Patching where
  watchpoint : WatchpointId
  sweep : Option Sweep
  deriving DecidableEq

/-- A watchpoint whose labels are being looked up: the source first, then the destination. -/
structure Locating where
  watchpoint : WatchpointId
  sourceLabel : Label
  destinationLabel : Label
  /-- The address of the source, once it is known. -/
  source : Option Address
  deriving DecidableEq

/-- What a call that waits for an answer still has to do. -/
inductive Pending where
  | patch (patching : Patching)
  | locate (locating : Locating)
  deriving DecidableEq

/-- What the library asks of its surroundings. -/
inductive Request where
  /-- Overwrite the instruction at `source` with a jump to `destination`. -/
  | patch (patcher : PatcherId) (source destination : Address)
  /-- Tell the address of a label. -/
  | locate (label : Label)
  deriving DecidableEq

/-- What ends a call abruptly: a broken contract, or a failure of whoever was asked. -/
inductive Fault where
  /-- A watchpoint fired that has no addresses. -/
  | unresolved (source destination : Location)
  /-- A watchpoint was registered a second time. -/
  | alreadyRegistered (source destination : Location)
  /-- A write was reported to a set that nobody watches. -/
  | notWatched
  /-- A slot was promoted that has a set. -/
  | alreadyFat
  /-- A slot was to give up a set that it does not have. -/
  | notFat
  /-- Whoever was asked failed. -/
  | foreign (message : String)
  deriving DecidableEq

/-- What the library stands still for at the end of a turn. -/
inductive Next where
  /-- The call is over. -/
  | returned
  /-- The call is over and has failed in a way that the caller can deal with. -/
  | failed (failure : LinkFailure)
  /-- The call ended abruptly. -/
  | panicked (fault : Fault)
  /-- The call needs an answer. -/
  | waiting (request : Request) (pending : Pending)
  deriving DecidableEq

/-- What happens from a call or an answer to the next moment at which the library stands still. -/
structure Turn where
  world : World
  events : List LogEvent
  next : Next

namespace Fault

/-- The fault as a sentence. -/
def message : Fault → String
  | .unresolved s d =>
    "watchpoint " ++ s.text ++ " -> " ++ d.text ++ " fired before its code locations were resolved"
  | .alreadyRegistered s d =>
    "watchpoint " ++ s.text ++ " -> " ++ d.text ++ " is already registered on a watchpoint set"
  | .notWatched => "notify_write on a watchpoint set that is not being watched"
  | .alreadyFat => "inline watchpoint set is already fat"
  | .notFat => "free_fat on a thin inline watchpoint set"
  | .foreign m => m

end Fault

namespace Turn

/-- The turn with more events in front of its own. -/
def after (events : List LogEvent) (t : Turn) : Turn := { t with events := events ++ t.events }

end Turn

namespace World

/-- A turn that ends the call, with nothing to report. -/
def done (σ : World) : Turn := ⟨σ, [], .returned⟩

/-- A turn that ends the call abruptly, with nothing to report. -/
def panic (σ : World) (fault : Fault) : Turn := ⟨σ, [], .panicked fault⟩

end World

end Invalidation
