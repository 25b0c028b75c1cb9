import Invalidation.World.Turn

/-! Firing. A watchpoint that fires has its jump installed, is counted, and then leaves the list that
    it is on *at that time*; until the jump is installed it stays on its list. A sweep takes whatever
    is at the head of its set's list, fires it, and looks again, so it also fires what is registered
    while it runs.

        head? ──none──▶ ending
          │ some w
          ▼
        patch w ──▶ count ──▶ unlink w ──▶ head? … -/

namespace Invalidation

namespace World

/-- Takes a watchpoint off the list that it is on, if any; a list that is gone is not missed. -/
def unlink (σ : World) (w : WatchpointId) : World :=
  match (σ.watchpoint w).membership with
  | none => σ
  | some m =>
    (σ.modifyWatchpoint w fun v => { v with membership := none }).modifySet m.set fun t =>
      { t with watchers := (t.watchers.remove m.key).1 }

/-- What is left to do for a sweep that found the list empty. -/
def finish (σ : World) (s : SetId) : Ending → World
  | .rest => σ
  | .invalidate => σ.modifyFlags s fun _ => .broken
  | .destroy => { σ with sets := σ.sets.erase s }

/-- What a sweep leaves behind when it ends abruptly: a set that was to go is gone all the same. -/
def abandon (σ : World) (sweep : Option Sweep) : World :=
  match sweep with
  | some ⟨s, _, .destroy⟩ => { σ with sets := σ.sets.erase s }
  | _ => σ

/-- Asks for the jump of a watchpoint to be installed, by itself or as the next step of a sweep. -/
def fire (σ : World) (w : WatchpointId) (sweep : Option Sweep) : Turn :=
  let v := σ.watchpoint w
  match v.addresses? with
  | none => (σ.abandon sweep).panic (.unresolved v.source v.destination)
  | some (source, destination) =>
    let c := σ.contextOf w
    { world := σ
      events := if c.settings.firing.traceRedirects then [.redirecting source destination] else []
      next := .waiting (.patch c.patcher source destination) (.patch ⟨w, sweep⟩) }

/-- Goes on with a sweep: fires the watchpoint at the head of the list, or ends. -/
def sweepOn (σ : World) (sweep : Sweep) : Turn :=
  match (σ.watchersOf sweep.set).front? with
  | some w => σ.fire w (some sweep)
  | none =>
    (σ.finish sweep.set sweep.ending).done.after
      (if sweep.fired > 0 then [.sweepFinished sweep.fired] else [])

/-- Starts a sweep. -/
def sweep (σ : World) (s : SetId) (ending : Ending) : Turn := σ.sweepOn ⟨s, 0, ending⟩

/-- One more redirect for the context of a watchpoint. -/
def countRedirect (σ : World) (w : WatchpointId) : World :=
  σ.count w fun c => { c with redirects := c.redirects + 1 }

/-- Goes on once the jump of a watchpoint is installed. -/
def patched (σ : World) (p : Patching) : Turn :=
  let σ := (σ.countRedirect p.watchpoint).unlink p.watchpoint
  match p.sweep with
  | none => σ.done
  | some s => σ.sweepOn { s with fired := s.fired + 1 }

/-- One owner of a set has let go of it: if it was the last, what is left fires and the set goes. -/
def release (σ : World) (s : SetId) : Turn :=
  if σ.owners s = 0 then σ.sweep s .destroy else σ.done

end World

end Invalidation
