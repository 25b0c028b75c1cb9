import Invalidation.Proofs.Run.Final

/-! Calls that break their contract. Each of them ends at once with its fault, at whatever moment it is
    made, also from inside a patcher or a link buffer; and it comes to nothing:

        registered ──add──▶ already registered       set not watched ──notifyWrite──▶ not watched
        fat slot ──promote──▶ already fat            thin slot ──freeFat──▶ not fat
        no addresses ──fire──▶ unresolved

    There is one trace that such a call may leave. A slot gets a set of its own before anybody looks at
    the watchpoint that is to be registered there, so a thin slot is fat afterwards. Its set is a
    new one with the flags that the slot had, and nobody is on it. -/

namespace Invalidation

/-- A call that breaks its contract, with the fault that it has to end with. -/
inductive World.Breaks (σ : World) : Call → Fault → Prop where
  | add {h : HandleId} {w : WatchpointId} (share : (σ.handleSet? h).isSome)
      (on : (σ.watchpoint w).isOnList = true) : σ.Breaks (.add h (some w))
        (.alreadyRegistered (σ.watchpoint w).source (σ.watchpoint w).destination)
  | slotAdd {i : SlotId} {w : WatchpointId} (there : (σ.slot? i).isSome)
      (on : (σ.watchpoint w).isOnList = true) : σ.Breaks (.slotAdd i (some w))
        (.alreadyRegistered (σ.watchpoint w).source (σ.watchpoint w).destination)
  | notifyWrite {h : HandleId} {s : SetId} (share : σ.handleSet? h = some s)
      (unwatched : (σ.flagsOf s).watched = false) : σ.Breaks (.notifyWrite h) .notWatched
  | promote {i : SlotId} {t : Slot} (there : σ.slot? i = some t) (fat : t.isThin = false) :
      σ.Breaks (.promote i) .alreadyFat
  | freeFat {i : SlotId} {t : Slot} (there : σ.slot? i = some t) (thin : t.isThin = true) :
      σ.Breaks (.freeFat i) .notFat
  | fire {w : WatchpointId} (unresolved : (σ.watchpoint w).isResolved = false) :
      σ.Breaks (.fire w) (.unresolved (σ.watchpoint w).source (σ.watchpoint w).destination)

/-- Whatever was there before is there still and reads as it did. -/
structure World.ReadsAsBefore (σ τ : World) : Prop where
  /-- The flags of every set, who is registered on it and in which order. -/
  set : ∀ s, σ.Exists s → τ.Exists s ∧ τ.setReport s = σ.setReport s ∧ τ.queue s = σ.queue s
  /-- The flags of every slot. -/
  slot : ∀ i, (σ.slot? i).isSome → (τ.slot? i).isSome ∧
    (τ.slotReport i).watched = (σ.slotReport i).watched ∧
    (τ.slotReport i).invalidated = (σ.slotReport i).invalidated
  /-- The locations and the membership of every watchpoint. -/
  watchpoint : ∀ w, τ.watchpoints.get? w = σ.watchpoints.get? w
  counters : ∀ c, (τ.context c).counters = (σ.context c).counters

/-- A thin slot with the flags `f` has got a set of its own, and that is all. -/
structure World.Fattened (σ : World) (i : SlotId) (f : Flags) (τ : World) : Prop where
  /-- The set is a new one; it has the flags of the slot, and nobody is on it. -/
  own : ∃ s, τ.fatSet? i = some s ∧ ¬ σ.Issued s ∧ τ.flagsOf s = f ∧ τ.queue s = [] ∧
    ∀ x, x ≠ s → τ.sets.get? x = σ.sets.get? x
  others : ∀ j, j ≠ i → τ.slots.get? j = σ.slots.get? j
  watchpoints : τ.watchpoints = σ.watchpoints
  contexts : τ.contexts = σ.contexts
  handles : τ.handles = σ.handles

/-- A call that ends with a fault and comes to nothing. -/
structure Transition.ComesToNothing (t : Transition) (fault : Fault) : Prop where
  panics : t.move.turn.next = .panicked fault
  stack : t.after.stack = t.before.stack
  unpatched : t.jump? = none
  alike : t.before.world.ReadsAsBefore t.after.world
  /-- The world is the same as before, but for a slot that had no set when somebody was to be registered
      on it. -/
  unchanged : t.after.world = t.before.world ∨ ∃ i w f, t.action = .call (.slotAdd i (some w)) ∧
    (t.before.world.slot i).storage = .thin f ∧ t.before.world.Fattened i f t.after.world

namespace World

variable {σ τ : World} {i : SlotId} {w : WatchpointId} {f : Flags} {c : Call} {fault : Fault}

/-! ### A slot gets a set of its own -/

theorem fatSet?_promoteFrom {n : Nat} :
    (σ.promoteFrom i ⟨.thin f, n, true⟩ f).fatSet? i = some (.ofSlot i n) :=
  fatSet?_eq_some_iff.mpr ⟨_, Store.get?_put_self .., rfl, rfl⟩

theorem fattened_promoteFrom {n : Nat} (there : σ.slot? i = some ⟨.thin f, n, true⟩) :
    σ.Fattened i f (σ.promoteFrom i ⟨.thin f, n, true⟩ f) where
  own := by
    refine ⟨.ofSlot i n, fatSet?_promoteFrom,
      not_issued_of_promotions (t := ⟨.thin f, n, true⟩) (slot?_eq_some_iff.mp there).1, ?_, ?_, ?_⟩
    · rw [flagsOf, promoteFrom, Store.get?_put_self]
      rfl
    · rw [queue, watchersOf, promoteFrom, Store.get?_put_self]
      rfl
    · intro x hx
      exact (Store.get?_put _ _ _ _).trans (if_neg hx.symm)
  others j hj := (Store.get?_put _ _ _ _).trans (if_neg hj.symm)
  watchpoints := rfl
  contexts := rfl
  handles := rfl

theorem ReadsAsBefore.refl (σ : World) : σ.ReadsAsBefore σ where
  set _ there := ⟨there, rfl, rfl⟩
  slot _ there := ⟨there, rfl, rfl⟩
  watchpoint _ := rfl
  counters _ := rfl

/-- A set that has been made already is none of the slot's new ones, so it reads as it did, and so does
    every slot: one that shares in a set shares in one that has been made. -/
theorem Fattened.readsAsBefore (h : σ.Coherent) (hf : σ.Fattened i f τ)
    (thin : (σ.slot i).storage = .thin f) : σ.ReadsAsBefore τ := by
  obtain ⟨s, share, new, flags, -, elsewhere⟩ := hf.own
  have same : ∀ x, σ.Exists x → τ.sets.get? x = σ.sets.get? x := by
    intro x there
    refine elsewhere x ?_
    rintro rfl
    exact new (h.issued_of_exists there)
  refine ⟨fun x there => ?_, fun j there => ?_, fun w => by rw [hf.watchpoints], fun c => ?_⟩
  · refine ⟨?_, ?_, queue_congr (by rw [list?, list?, same x there])⟩
    · obtain ⟨y, hy⟩ := there
      exact ⟨y, (same x ⟨y, hy⟩).trans hy⟩
    · rw [setReport, setReport, flagsOf, flagsOf, watchersOf, watchersOf, same x there]
  · obtain ⟨t, ht⟩ := Option.isSome_iff_exists.mp there
    by_cases hj : j = i
    · subst hj
      obtain ⟨n, held, hslot⟩ := slot?_of_fatSet? share
      refine ⟨by rw [hslot]; rfl, ?_⟩
      have hflags : τ.slotFlags (τ.slot j) = σ.slotFlags (σ.slot j) := by
        rw [slot_of_slot? hslot]
        simp only [slotFlags, thin, flags]
      exact ⟨congrArg Flags.watched hflags, congrArg Flags.invalidated hflags⟩
    · have hslot : τ.slot? j = some t := by
        rw [slot?_eq_some_iff, hf.others j hj]
        exact slot?_eq_some_iff.mp ht
      refine ⟨by rw [hslot]; rfl, ?_⟩
      have hflags : τ.slotFlags (τ.slot j) = σ.slotFlags (σ.slot j) := by
        rw [slot_of_slot? hslot, slot_of_slot? ht, slotFlags, slotFlags]
        cases hx : t.storage with
        | thin g => rfl
        | fat x =>
          obtain ⟨hget, hheld⟩ := slot?_eq_some_iff.mp ht
          have owned : σ.Owned x := Or.inr ⟨j, fatSet?_eq_some_iff.mpr ⟨t, hget, hheld, hx⟩⟩
          exact flagsOf_congr (same x (h.exists_of_owned owned))
      exact ⟨congrArg Flags.watched hflags, congrArg Flags.invalidated hflags⟩
  · rw [context, context, hf.contexts]

/-! ### The first turn of a call that breaks its contract -/

theorem addresses?_of_not_resolved {v : Watchpoint} (h : v.isResolved = false) :
    v.addresses? = none := by
  obtain ⟨source, destination, _, _, _⟩ := v
  cases source with
  | label => rfl
  | address =>
    cases destination with
    | label => rfl
    | address => cases h

/-- Nobody joins a second list: what the call has done so far stays, and no more is done. -/
theorem add_registered (s : SetId) (on : (σ.watchpoint w).isOnList = true) :
    (σ.add s (some w)).world = σ ∧ (σ.add s (some w)).next =
      .panicked (.alreadyRegistered (σ.watchpoint w).source (σ.watchpoint w).destination) := by
  obtain ⟨m, hm⟩ := Option.isSome_iff_exists.mp on
  obtain ⟨events, h⟩ := add_of_on s hm
  exact ⟨by rw [h]; rfl, by rw [h]; rfl⟩

/-- The world after a call that breaks its contract: it is as it was, or a thin slot has got a set. -/
theorem begin_of_breaks (b : σ.Breaks c fault) : (σ.begin c).next = .panicked fault ∧
    ((σ.begin c).world = σ ∨ ∃ i w f, c = .slotAdd i (some w) ∧ (σ.slot i).storage = .thin f ∧
      σ.Fattened i f (σ.begin c).world) := by
  cases b with
  | @add h w share on =>
    obtain ⟨s, hs⟩ := Option.isSome_iff_exists.mp share
    obtain ⟨hworld, hnext⟩ := add_registered s on
    have heq : σ.begin (.add h (some w)) = σ.add s (some w) := by simp only [begin, onHandle, hs]
    exact heq ▸ ⟨hnext, Or.inl hworld⟩
  | @slotAdd i w there on =>
    obtain ⟨⟨storage, n, held⟩, ht⟩ := Option.isSome_iff_exists.mp there
    obtain rfl : held = true := (slot?_eq_some_iff.mp ht).2
    cases storage with
    | thin f =>
      have hinflate : σ.inflate i = (σ.promoteFrom i ⟨.thin f, n, true⟩ f, [.promoted f]) := by
        rw [inflate, ht]
      have heq : σ.begin (.slotAdd i (some w)) =
          ((σ.promoteFrom i ⟨.thin f, n, true⟩ f).add (.ofSlot i n) (some w)).after [.promoted f] := by
        simp only [begin, slotAdd, hinflate, fatSet?_promoteFrom]
      obtain ⟨hworld, hnext⟩ :=
        add_registered (σ := σ.promoteFrom i ⟨.thin f, n, true⟩ f) (.ofSlot i n) on
      have hworld : (σ.begin (.slotAdd i (some w))).world = σ.promoteFrom i ⟨.thin f, n, true⟩ f :=
        heq ▸ hworld
      refine ⟨heq ▸ hnext, Or.inr ⟨i, w, f, rfl, by rw [slot_of_slot? ht], ?_⟩⟩
      exact hworld.symm ▸ fattened_promoteFrom ht
    | fat s =>
      have hinflate : σ.inflate i = (σ, []) := by rw [inflate, ht]
      have heq : σ.begin (.slotAdd i (some w)) = (σ.add s (some w)).after [] := by
        simp only [begin, slotAdd, hinflate, fatSet?, ht]
      obtain ⟨hworld, hnext⟩ := add_registered s on
      exact heq ▸ ⟨hnext, Or.inl hworld⟩
  | @notifyWrite h s share unwatched =>
    have heq : σ.begin (.notifyWrite h) = σ.panic .notWatched := by
      simp [begin, onHandle, share, World.notifyWrite, unwatched]
    exact heq ▸ ⟨rfl, Or.inl rfl⟩
  | @promote i t there fat =>
    obtain ⟨storage, n, held⟩ := t
    cases storage with
    | thin f => cases fat
    | fat s =>
      have heq : σ.begin (.promote i) = σ.panic .alreadyFat := by
        simp only [begin, World.promote, there]
      exact heq ▸ ⟨rfl, Or.inl rfl⟩
  | @freeFat i t there thin =>
    obtain ⟨storage, n, held⟩ := t
    cases storage with
    | thin f =>
      have heq : σ.begin (.freeFat i) = σ.panic .notFat := by
        simp only [begin, World.freeFat, fatSet?, there]
      exact heq ▸ ⟨rfl, Or.inl rfl⟩
    | fat s => cases thin
  | @fire w unresolved =>
    have heq := fire_of_unresolved (addresses?_of_not_resolved unresolved) none
    refine (show σ.begin (.fire w) = _ from heq) ▸ ⟨rfl, Or.inl rfl⟩

end World

/-- A call that breaks its contract, made at any moment of any run, ends with its fault and comes to
    nothing. -/
theorem Run.broken_contract_comes_to_nothing {ts : List Transition} {m : Moment} (reached : Run {} ts m)
    {c : Call} (permitted : m.permits c = true) {fault : Fault} (breaks : m.world.Breaks c fault) :
    (m.calling c permitted).ComesToNothing fault := by
  have sound := reached.sound Moment.sound_empty
  obtain ⟨hnext, hworld⟩ := World.begin_of_breaks breaks
  have hafter : (m.calling c permitted).after = ⟨(m.world.begin c).world, m.stack⟩ := by
    simp only [Moment.calling, Transition.after, Move.after, hnext]
  have hjump : (m.calling c permitted).jump? = none := by
    simp only [Transition.jump?, Moment.calling, hnext]
  refine ⟨hnext, by rw [hafter]; rfl, hjump, ?_, ?_⟩
  · rw [hafter]
    rcases hworld with hsame | ⟨i, w, f, -, thin, fattened⟩
    · exact hsame.symm ▸ World.ReadsAsBefore.refl m.world
    · exact fattened.readsAsBefore sound.coherent thin
  · rw [hafter]
    rcases hworld with hsame | ⟨i, w, f, rfl, thin, fattened⟩
    · exact Or.inl hsame
    · exact Or.inr ⟨i, w, f, rfl, thin, fattened⟩

/-- A watchpoint is registered on one set and fired; inside its jump there is a second set,
    invalidated, and a slot that is watched and thin. -/
def registeredAndFiring : List Action :=
  [.call (.createAlone 0 (.scripted "p") ⟨16⟩ ⟨96⟩), .call (.resolve 0), .located (.ok ⟨4112⟩),
    .located (.ok ⟨4192⟩), .call (.newSet 1 .blind), .call (.add 1 (some 0)), .call (.fireAll 1),
    .call (.newSet 2 .watching), .call (.notifyWrite 2), .call (.newSlot 3 .watching)]

/-- From inside its own jump, the watchpoint is added to the slot: it is on a list still, so the
    call ends with a fault, and the slot is fat and watched. -/
theorem broken_contract_addedFromInside :
    ∃ ts m, Run {} ts m ∧ m.stack ≠ [] ∧ m.world.queue (.ofHandle 1) = [0] ∧
      m.world.Breaks (.slotAdd 3 (some 0)) (.alreadyRegistered (.address ⟨4112⟩) (.address ⟨4192⟩)) ∧
      ∃ permitted, (m.calling (.slotAdd 3 (some 0)) permitted).ComesToNothing
        (.alreadyRegistered (.address ⟨4112⟩) (.address ⟨4192⟩)) := by
  have reached := Moment.run_play {} registeredAndFiring
  have breaks : (Moment.last {} (Moment.play {} registeredAndFiring)).world.Breaks (.slotAdd 3 (some 0))
      (.alreadyRegistered (.address ⟨4112⟩) (.address ⟨4192⟩)) := .slotAdd (by decide) (by decide)
  exact ⟨_, _, reached, by decide, by decide, breaks, by decide,
    reached.broken_contract_comes_to_nothing (by decide) breaks⟩

end Invalidation
