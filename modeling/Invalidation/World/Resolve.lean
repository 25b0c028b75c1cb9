import Invalidation.World.Turn

/-! Resolving. Both labels of a watchpoint are looked up, the source first; only when both addresses
    are known and the jump between them is allowed does either location change.

        labels? ──none──▶ already resolved
          │ some (s, d)
          ▼
        ask s ──▶ ask d ──▶ allowed? ──▶ both locations become addresses
          └─────────┴──────────┴──▶ the first refusal, and nothing has changed -/

namespace Invalidation

namespace World

/-- Asks for the address of the source label. -/
def resolve (σ : World) (w : WatchpointId) : Turn :=
  match (σ.watchpoint w).labels? with
  | none => ⟨σ, [], .failed (.link .alreadyResolved)⟩
  | some (source, destination) =>
    ⟨σ, [], .waiting (.locate source) (.locate ⟨w, source, destination, none⟩)⟩

/-- Gives a watchpoint its two addresses. -/
def settle (σ : World) (w : WatchpointId) (source destination : Address) : World :=
  (σ.modifyWatchpoint w fun v =>
      { v with source := .address source, destination := .address destination }).count w
    fun c => { c with resolutions := c.resolutions + 1 }

/-- Goes on once a label has been looked up. -/
def located (σ : World) (l : Locating) (answer : Except LinkFailure Address) : Turn :=
  match answer, l.source with
  | .error e, _ => ⟨σ, [], .failed e⟩
  | .ok a, none => ⟨σ, [], .waiting (.locate l.destinationLabel) (.locate { l with source := some a })⟩
  | .ok destination, some source =>
    match (σ.contextOf l.watchpoint).settings.linking.checkJump source destination with
    | .error e => ⟨σ, [], .failed (.link e)⟩
    | .ok () =>
      (σ.settle l.watchpoint source destination).done.after
        [.resolved l.sourceLabel l.destinationLabel source destination]

end World

namespace Locating

/-- The label that is being looked up. -/
def asked (l : Locating) : Label := if l.source.isNone then l.sourceLabel else l.destinationLabel

end Locating

end Invalidation
