import Invalidation.Proofs.World.Ownership

/-! What a turn of the library can do to the world. Every turn is a sequence of *edits*: small changes
    to one object, each with the condition under which the library makes it. What all edits keep, all
    turns keep, so an invariant is shown edit by edit and never turn by turn.

        begin / patched / located / unwind  ═  edit ; edit ; …

    Few edits touch what is registered where. Those that do carry a label that says how, so the labels
    of a turn, one after the other, are all that the lists see of it. -/

namespace Invalidation

/-- What a list can notice. -/
inductive Change where
  /-- The watchpoint joins the list of the set, behind all others. -/
  | join (watchpoint : WatchpointId) (set : SetId)
  /-- The watchpoint leaves the list that it is on. -/
  | leave (watchpoint : WatchpointId)
  /-- The set goes, with nobody registered on it. -/
  | retire (set : SetId)
  /-- The set goes, with all that is still registered on it. -/
  | vanish (set : SetId)
  deriving DecidableEq

namespace World

variable {σ τ : World}

/-- A change to one object, with the condition under which the library makes it. -/
inductive Edit : World → Option Change → World → Prop where
  | openContext {σ : World} {c : ContextId} (x : Context) (new : σ.contexts.get? c = none) :
      Edit σ none { σ with contexts := σ.contexts.put c x }
  | count {σ : World} (w : WatchpointId) (f : Counters → Counters) : Edit σ none (σ.count w f)
  | appear {σ : World} {w : WatchpointId} (v : Watchpoint) (new : σ.watchpoints.get? w = none)
      (off : v.membership = none) : Edit σ none { σ with watchpoints := σ.watchpoints.put w v }
  | locate {σ : World} (w : WatchpointId) (s d : Address) :
      Edit σ none (σ.modifyWatchpoint w fun v =>
        { v with source := .address s, destination := .address d })
  | unlink {σ : World} (w : WatchpointId) : Edit σ (some (.leave w)) (σ.unlink w)
  | letGo {σ : World} {w : WatchpointId} (off : (σ.watchpoint w).membership = none) :
      Edit σ none (σ.modifyWatchpoint w fun v => { v with held := false })
  | link {σ : World} {s : SetId} {w : WatchpointId} {v : Watchpoint} (owned : σ.Owned s)
      (known : σ.watchpoints.get? w = some v) (held : v.held = true) (off : v.membership = none) :
      Edit σ (some (.join w s)) (σ.link s w)
  | watch {σ : World} (s : SetId) : Edit σ none (σ.modifyFlags s fun f => { f with watched := true })
  | break {σ : World} {s : SetId} (drained : (σ.watchersOf s).front? = none) :
      Edit σ none (σ.modifyFlags s fun _ => .broken)
  | newSet {σ : World} {h : HandleId} (mode : InitialMode) (new : σ.handles.get? h = none) :
      Edit σ none (σ.newSet h mode)
  | newHandle {σ : World} {s : SetId} {h : HandleId} (new : σ.handles.get? h = none)
      (owned : σ.Owned s) : Edit σ none (σ.newHandle (some s) h)
  | newSlot {σ : World} {i : SlotId} (mode : InitialMode) (new : σ.slots.get? i = none) :
      Edit σ none { σ with slots := σ.slots.put i { storage := .thin mode.flags } }
  | promote {σ : World} {i : SlotId} {t : Slot} {f : Flags} (held : σ.slot? i = some t)
      (thin : t.storage = .thin f) : Edit σ none (σ.promoteFrom i t f)
  | store {σ : World} {i : SlotId} {t : Slot} {f : Flags} (held : σ.slot? i = some t)
      (next : (σ.slotFlags t).MayBecome f) : Edit σ none (σ.store i (.thin f))
  | dropHandle {σ : World} (h : HandleId) :
      Edit σ none { σ with handles := σ.handles.modify h fun t => { t with held := false } }
  | dropSlot {σ : World} (i : SlotId) :
      Edit σ none { σ with slots := σ.slots.modify i fun t => { t with held := false } }
  | erase {σ : World} {s : SetId} (alone : ¬ σ.Owned s) (drained : (σ.watchersOf s).front? = none) :
      Edit σ (some (.retire s)) { σ with sets := σ.sets.erase s }
  | discard {σ : World} {s : SetId} (alone : ¬ σ.Owned s) :
      Edit σ (some (.vanish s)) { σ with sets := σ.sets.erase s }

/-- Any number of edits, one after the other, with the labels of those that have one. -/
inductive Edits : World → List Change → World → Prop where
  | refl (σ : World) : Edits σ [] σ
  | tail {σ τ υ : World} {cs : List Change} {c : Option Change} (before : Edits σ cs τ)
      (last : Edit τ c υ) : Edits σ (cs ++ c.toList) υ

theorem Edit.edits {c : Option Change} (e : Edit σ c τ) : Edits σ c.toList τ := .tail (.refl σ) e

theorem Edits.trans {υ : World} {cs ds : List Change} (e : Edits σ cs τ) (e' : Edits τ ds υ) :
    Edits σ (cs ++ ds) υ := by
  induction e' with
  | refl => simpa using e
  | tail _ last ih => simpa using ih.tail last

/-! ### No record is lost, and nobody wins a share in a set that has lost its owners -/

theorem Edit.issued {c : Option Change} (e : Edit σ c τ) {s : SetId} (hs : σ.Issued s) :
    τ.Issued s := by
  cases e with
  | openContext | count | appear | locate | letGo | link | watch | «break» | erase | discard => exact hs
  | unlink w =>
    rw [World.unlink]
    split <;> exact hs
  | newSet | newHandle => exact issued_of_put_handle hs
  | newSlot mode new =>
    refine issued_of_put_slot (fun u hu => ?_) hs
    rw [new] at hu
    cases hu
  | promote held thin =>
    refine issued_of_put_slot (fun u hu => ?_) hs
    rw [(slot?_eq_some_iff.mp held).1] at hu
    rw [← Option.some.inj hu]
    exact Nat.le_succ _
  | store | dropSlot => exact issued_of_modify_slot (fun _ => rfl) hs
  | dropHandle => exact issued_of_modify_handle hs

theorem Edit.owned {c : Option Change} (e : Edit σ c τ) {s : SetId} (hs : τ.Owned s)
    (issued : σ.Issued s) : σ.Owned s := by
  cases e with
  | openContext | count | appear | locate | letGo | link | watch | «break» | erase | discard => exact hs
  | unlink w =>
    rw [World.unlink] at hs
    split at hs <;> exact hs
  | newSet mode new =>
    refine (owned_of_put_handle hs).resolve_left fun he => ?_
    obtain rfl : SetId.ofHandle _ = s := he
    exact not_issued_of_new_handle new issued
  | newHandle new owned => exact (owned_of_put_handle hs).elim (fun he => he ▸ owned) id
  | newSlot mode new => exact (owned_of_put_slot hs).resolve_left Storage.noConfusion
  | promote held thin =>
    refine (owned_of_put_slot hs).resolve_left fun he => ?_
    obtain rfl : SetId.ofSlot _ _ = s := Storage.fat.inj he
    exact not_issued_of_promotions (slot?_eq_some_iff.mp held).1 issued
  | store => exact owned_of_store hs
  | dropSlot => exact owned_of_dropSlot hs
  | dropHandle => exact owned_of_dropHandle hs

theorem Edits.issued {cs : List Change} (e : Edits σ cs τ) {s : SetId} (hs : σ.Issued s) :
    τ.Issued s := by
  induction e with
  | refl => exact hs
  | tail _ last ih => exact last.issued ih

theorem Edits.owned {cs : List Change} (e : Edits σ cs τ) {s : SetId} (hs : τ.Owned s)
    (issued : σ.Issued s) : σ.Owned s := by
  induction e with
  | refl => exact hs
  | tail es last ih => exact ih (last.owned hs (es.issued issued))

end World

end Invalidation
