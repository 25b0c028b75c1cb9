import Invalidation.World.State

/-! What a caller can read of an object, as a record and as text. Reading changes nothing. -/

namespace Invalidation

/-- What can be read of a set. -/
structure SetReport where
  watched : Bool
  invalidated : Bool
  count : Nat
  deriving DecidableEq

/-- What can be read of a slot. -/
structure SlotReport where
  thin : Bool
  watched : Bool
  invalidated : Bool
  deriving DecidableEq

/-- What can be read of a watchpoint. -/
structure WatchpointReport where
  source : Location
  destination : Location
  resolved : Bool
  addresses : Option (Address × Address)
  onList : Bool
  deriving DecidableEq

namespace Counters

/-- The counters with their parts named. -/
def shown (c : Counters) : Shown :=
  .record "FireStats"
    [("watchpoints_created", .nat c.created), ("resolutions", .nat c.resolutions),
      ("redirects", .nat c.redirects)]

end Counters

namespace Watchpoint

/-- What can be read of a watchpoint. -/
def report (w : Watchpoint) : WatchpointReport :=
  ⟨w.source, w.destination, w.isResolved, w.addresses?, w.isOnList⟩

/-- A watchpoint with its parts named. -/
def shown (w : Watchpoint) : Shown :=
  .record "Watchpoint"
    [("source", w.source.shown), ("destination", w.destination.shown), ("on_list", .bool w.isOnList)]

end Watchpoint

namespace Context

/-- A runtime with its parts named. -/
def shown (c : Context) : Shown :=
  .record "WatchpointRuntime" [("config", c.settings.shown), ("stats", c.counters.shown)]

end Context

namespace World

/-- What can be read of a set. -/
def setReport (σ : World) (s : SetId) : SetReport :=
  ⟨(σ.flagsOf s).watched, (σ.flagsOf s).invalidated, (σ.watchersOf s).length⟩

/-- A set with its parts named. -/
def setShown (σ : World) (s : SetId) : Shown :=
  let r := σ.setReport s
  .record "WatchpointSet"
    [("is_watched", .bool r.watched), ("is_invalidated", .bool r.invalidated),
      ("watchers", .nat r.count)]

/-- What can be read of a slot. -/
def slotReport (σ : World) (i : SlotId) : SlotReport :=
  let t := σ.slot i
  ⟨t.isThin, (σ.slotFlags t).watched, (σ.slotFlags t).invalidated⟩

/-- A slot with its parts named. -/
def slotShown (σ : World) (i : SlotId) : Shown :=
  .record "InlineWatchpointSet"
    [("storage",
      match (σ.slot i).storage with
      | .thin f => .tuple "Thin" [f.shown]
      | .fat s => .tuple "Fat" [σ.setShown s])]

end World

end Invalidation
