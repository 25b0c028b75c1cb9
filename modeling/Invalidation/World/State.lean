import Invalidation.Flags
import Invalidation.Log
import Invalidation.Store
import Invalidation.WatchList.Basic

/-! Everything the library keeps between two calls.

        handle ─┐                                            ┌─▶ watchpoint ──▶ context
        handle ─┼──▶ set: flags + list of watchpoints ───────┤
        slot  ──┘     (a slot is flags alone until it        └─▶ watchpoint ──▶ context
                       needs a set of its own)

    A *watchpoint* is a jump to install when an assumption breaks; its creator holds it. A *set* is
    one assumption with the watchpoints that depend on it, and lives as long as something owns it:
    a *handle*, or a *slot* that has been promoted. The list of a set names its watchpoints and each
    of these names the set and its own key there. A *context* is what the watchpoints of one runtime
    share. Objects are known by identities that are never used twice: what has been dropped stays
    on record, no longer held, and only a set is struck off once nobody owns it. -/

namespace Invalidation

/-- Identity of a watchpoint. -/
abbrev WatchpointId := Nat

/-- Identity of a runtime. -/
abbrev RuntimeId := Nat

/-- Identity of a handle on a set. -/
abbrev HandleId := Nat

/-- Identity of a slot. -/
abbrev SlotId := Nat

/-- Identity of a set: one that was made for a handle, or the `n`th that a slot was promoted to. -/
inductive SetId where
  | ofHandle (handle : HandleId)
  | ofSlot (slot : SlotId) (n : Nat)
  deriving DecidableEq

/-- Identity of a context: that of a runtime, or one that a single watchpoint has for itself. -/
inductive ContextId where
  | ofRuntime (runtime : RuntimeId)
  | ofWatchpoint (watchpoint : WatchpointId)
  deriving DecidableEq, Inhabited

/-- Who installs the jumps: a patcher that may call back, or a recorder, which only takes notes. -/
inductive PatcherId where
  | scripted (name : String)
  | recorder (name : String)
  deriving DecidableEq

instance : Inhabited PatcherId := ⟨.recorder ""⟩

/-- What the watchpoints of one context did so far. -/
structure Counters where
  created : Nat := 0
  resolutions : Nat := 0
  redirects : Nat := 0
  deriving DecidableEq, Inhabited

/-- What the watchpoints of one runtime share. -/
structure Context where
  patcher : PatcherId := default
  settings : Settings := {}
  counters : Counters := {}
  deriving DecidableEq, Inhabited

/-- The set a watchpoint is registered on and its key in the list of that set. -/
structure Membership where
  set : SetId
  key : WatchList.Key
  deriving DecidableEq

/-- A jump to install when an assumption breaks. -/
structure Watchpoint where
  source : Location := default
  destination : Location := default
  membership : Option Membership := none
  context : ContextId := default
  /-- The creator has not let go of it. -/
  held : Bool := false
  deriving DecidableEq, Inhabited

/-- An assumption and the watchpoints that depend on it, the one registered first in front. -/
structure WatchpointSet where
  flags : Flags := {}
  watchers : WatchList WatchpointId := {}
  deriving Inhabited

/-- What a slot keeps: flags alone, or a share in a set. -/
inductive Storage where
  | thin (flags : Flags)
  | fat (set : SetId)
  deriving DecidableEq, Inhabited

/-- A place for an assumption that needs no set until somebody registers on it. -/
structure Slot where
  storage : Storage := default
  /-- How many sets the slot has had. -/
  promotions : Nat := 0
  /-- The slot has not been dropped. -/
  held : Bool := true
  deriving DecidableEq, Inhabited

/-- A share in a set, under a name of its own. -/
structure Handle where
  set : SetId
  /-- The handle has not been dropped. -/
  held : Bool := true
  deriving DecidableEq

/-- What a new set or slot starts with. -/
inductive InitialMode where
  /-- Watched from the start. -/
  | watching
  /-- Watched from the first registration on. -/
  | blind
  deriving DecidableEq

/-- Everything the library keeps between two calls. -/
structure World where
  contexts : Store ContextId Context := {}
  watchpoints : Store WatchpointId Watchpoint := {}
  sets : Store SetId WatchpointSet := {}
  handles : Store HandleId Handle := {}
  slots : Store SlotId Slot := {}
  deriving Inhabited

namespace InitialMode

/-- The flags that a mode starts with. -/
def flags : InitialMode → Flags
  | .watching => ⟨true, false⟩
  | .blind => ⟨false, false⟩

/-- The name of a mode. -/
def text : InitialMode → String
  | .watching => "Watching"
  | .blind => "Blind"

/-- Every mode. -/
def all : List InitialMode := [.watching, .blind]

end InitialMode

namespace Watchpoint

/-- Whether both locations are addresses. -/
def isResolved (w : Watchpoint) : Bool := w.source.isResolved && w.destination.isResolved

/-- Both addresses, once there are any. -/
def addresses? (w : Watchpoint) : Option (Address × Address) :=
  match w.source, w.destination with
  | .address s, .address d => some (s, d)
  | _, _ => none

/-- Both labels, as long as neither is an address. -/
def labels? (w : Watchpoint) : Option (Label × Label) :=
  match w.source, w.destination with
  | .label s, .label d => some (s, d)
  | _, _ => none

/-- Whether the watchpoint is registered. -/
def isOnList (w : Watchpoint) : Bool := w.membership.isSome

end Watchpoint

namespace Slot

/-- Whether a slot keeps flags alone. -/
def isThin (i : Slot) : Bool :=
  match i.storage with
  | .thin _ => true
  | .fat _ => false

end Slot

namespace World

/-- A watchpoint by its identity. -/
def watchpoint (σ : World) (w : WatchpointId) : Watchpoint := (σ.watchpoints.get? w).getD default

/-- A context by its identity. -/
def context (σ : World) (c : ContextId) : Context := (σ.contexts.get? c).getD default

/-- The context of a watchpoint. -/
def contextOf (σ : World) (w : WatchpointId) : Context := σ.context (σ.watchpoint w).context

/-- How many handles and slots keep a set alive. -/
def owners (σ : World) (s : SetId) : Nat :=
  σ.handles.values.countP (fun h => h.held && h.set = s) +
    σ.slots.values.countP fun i => i.held && i.storage = .fat s

/-- The set that a handle has a share in, unless the handle has been dropped. -/
def handleSet? (σ : World) (h : HandleId) : Option SetId := do
  let t ← σ.handles.get? h
  if t.held then some t.set else none

/-- A slot by its identity, whether or not it has been dropped. -/
def slot (σ : World) (i : SlotId) : Slot := (σ.slots.get? i).getD default

/-- A slot by its identity, unless it has been dropped. -/
def slot? (σ : World) (i : SlotId) : Option Slot := do
  let t ← σ.slots.get? i
  if t.held then some t else none

/-- The flags of a set; those of a set that is gone read as clear. -/
def flagsOf (σ : World) (s : SetId) : Flags := ((σ.sets.get? s).map WatchpointSet.flags).getD {}

/-- The list of a set; that of a set that is gone reads as empty. -/
def watchersOf (σ : World) (s : SetId) : WatchList WatchpointId :=
  ((σ.sets.get? s).map WatchpointSet.watchers).getD {}

/-- The flags that a slot shows, whether it keeps them itself or in a set. -/
def slotFlags (σ : World) (i : Slot) : Flags :=
  match i.storage with
  | .thin f => f
  | .fat s => σ.flagsOf s

/-! ### Changes to one object -/

/-- Changes one watchpoint. -/
def modifyWatchpoint (σ : World) (w : WatchpointId) (f : Watchpoint → Watchpoint) : World :=
  { σ with watchpoints := σ.watchpoints.modify w f }

/-- Changes one set. -/
def modifySet (σ : World) (s : SetId) (f : WatchpointSet → WatchpointSet) : World :=
  { σ with sets := σ.sets.modify s f }

/-- Changes the flags of one set. -/
def modifyFlags (σ : World) (s : SetId) (f : Flags → Flags) : World :=
  σ.modifySet s fun t => { t with flags := f t.flags }

/-- Changes the counters of the context of one watchpoint. -/
def count (σ : World) (w : WatchpointId) (f : Counters → Counters) : World :=
  { σ with contexts := σ.contexts.modify (σ.watchpoint w).context fun c =>
    { c with counters := f c.counters } }

/-- Changes what one slot keeps. -/
def store (σ : World) (i : SlotId) (storage : Storage) : World :=
  { σ with slots := σ.slots.modify i fun t => { t with storage := storage } }

end World

end Invalidation
