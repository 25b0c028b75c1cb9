import Invalidation.World.Fire

/-! Registering and letting go: what puts a watchpoint on a list, what changes the flags of an
    assumption, and how a slot gets a set of its own and gives it up again.

                 add / inflate / promote
        thin ───────────────────────────▶ fat
        flags ◀─────────────────────────── share in a set
                        free -/

namespace Invalidation

namespace World

/-- Puts a watchpoint at the end of the list of a set, which is watched from then on. -/
def link (σ : World) (s : SetId) (w : WatchpointId) : World :=
  let (watchers, key) := (σ.watchersOf s).pushBack w
  (σ.modifySet s fun t =>
    { flags := { t.flags with watched := true }, watchers := watchers }).modifyWatchpoint
    w fun v => { v with membership := some ⟨s, key⟩ }

/-- Registers a watchpoint on a set; nothing is registered for `none`. -/
def add (σ : World) (s : SetId) (w : Option WatchpointId) : Turn :=
  match w with
  | none => σ.done
  | some w =>
    let v := σ.watchpoint w
    let warning :=
      if (σ.flagsOf s).invalidated then [.addedAfterInvalidation v.source v.destination] else []
    (if v.isOnList then σ.panic (.alreadyRegistered v.source v.destination) else
      (σ.link s w).done).after warning

/-- Reports that the assumption of a set no longer holds. -/
def notifyWrite (σ : World) (s : SetId) : Turn :=
  if (σ.flagsOf s).watched then σ.sweep s .invalidate else σ.panic .notWatched

/-- The creator of a watchpoint lets go of it; if it is registered, it leaves without firing. -/
def dropWatchpoint (σ : World) (w : WatchpointId) : Turn :=
  let v := σ.watchpoint w
  ((σ.unlink w).modifyWatchpoint w fun v => { v with held := false }).done.after
    (if v.isOnList then [.droppedWhileRegistered v.source v.destination] else [])

/-! ### Slots -/

/-- Gives slot `i` a set of its own that takes over the flags `f`. -/
def promoteFrom (σ : World) (i : SlotId) (t : Slot) (f : Flags) : World :=
  let s := SetId.ofSlot i t.promotions
  { σ with
    sets := σ.sets.put s { flags := f }
    slots := σ.slots.put i { t with storage := .fat s, promotions := t.promotions + 1 } }

/-- Gives a slot a set of its own; a slot that has one already is at fault. -/
def promote (σ : World) (i : SlotId) : Turn :=
  match σ.slot? i with
  | some t@⟨.thin f, _, _⟩ => (σ.promoteFrom i t f).done.after [.promoted f]
  | _ => σ.panic .alreadyFat

/-- Gives a slot a set of its own unless it has one. -/
def inflate (σ : World) (i : SlotId) : World × List LogEvent :=
  match σ.slot? i with
  | some t@⟨.thin f, _, _⟩ => (σ.promoteFrom i t f, [.promoted f])
  | _ => (σ, [])

/-- The set that a slot shares in, if it does. -/
def fatSet? (σ : World) (i : SlotId) : Option SetId :=
  match σ.slot? i with
  | some ⟨.fat s, _, _⟩ => some s
  | _ => none

/-- Registers a watchpoint on a slot, which gets a set of its own first. -/
def slotAdd (σ : World) (i : SlotId) (w : Option WatchpointId) : Turn :=
  let (σ, events) := σ.inflate i
  match σ.fatSet? i with
  | some s => (σ.add s w).after events
  | none => σ.done.after events

/-- Marks a slot watched. -/
def slotStartWatching (σ : World) (i : SlotId) : World :=
  match σ.slot? i with
  | some ⟨.thin f, _, _⟩ => σ.store i (.thin { f with watched := true })
  | some ⟨.fat s, _, _⟩ => σ.modifyFlags s fun f => { f with watched := true }
  | none => σ

/-- Reports that the assumption of a slot no longer holds; nothing happens if nobody watches. -/
def slotNotifyWrite (σ : World) (i : SlotId) : Turn :=
  match σ.slot? i with
  | some ⟨.thin f, _, _⟩ => (if f.watched then σ.store i (.thin .broken) else σ).done
  | some ⟨.fat s, _, _⟩ => if (σ.flagsOf s).watched then σ.notifyWrite s else σ.done
  | none => σ.done

/-- The flags that a slot keeps when it gives up its share in a set: those of the set, unless the
    set goes with it and had something to break. -/
def flagsAfterFree (σ : World) (s : SetId) (shared : Bool) : Flags :=
  if !shared && ((σ.flagsOf s).watched || (σ.watchersOf s).length > 0) then .broken else σ.flagsOf s

/-- A slot gives up its share in a set and keeps flags of its own; a slot without one is at fault. -/
def freeFat (σ : World) (i : SlotId) : Turn :=
  match σ.fatSet? i with
  | none => σ.panic .notFat
  | some s =>
    let shared : Bool := σ.owners s > 1
    let flags := σ.flagsAfterFree s shared
    ((σ.store i (.thin flags)).release s).after [.released flags shared]

/-- A handle goes, and with it its share in a set. -/
def dropHandle (σ : World) (h : HandleId) : Turn :=
  let τ : World := { σ with handles := σ.handles.modify h fun t => { t with held := false } }
  match σ.handleSet? h with
  | some s => τ.release s
  | none => τ.done

/-- A slot goes, and with it its share in a set. -/
def dropSlot (σ : World) (i : SlotId) : Turn :=
  let τ : World := { σ with slots := σ.slots.modify i fun t => { t with held := false } }
  match σ.fatSet? i with
  | some s => τ.release s
  | none => τ.done

end World

end Invalidation
