import Invalidation.Proofs.Run.Release
import Invalidation.Proofs.World.TwinSlot

/-! A slot, and a set in its place. Two clients do the same, but that one keeps an assumption in a
    slot and the other in a set that it makes at once. They go on side by side, whatever they do, as
    long as the first does not take the set of the slot away again:

        left     newSlot ── add ── inflate ── write ── add ── …
                    │        │        ·         │       │
        right    newSet  ── add ────────────── write ── add ── …

    Where only the left does something, it comes to nothing: the slot gets its set there, or it is told
    of a write that nobody waits for. After every step each of them reads the same, and what the library
    has asked for, answered and reported on the way is the same too, a promotion apart. So it makes no
    difference to anybody when the slot gets its set, or whether it gets one at all. -/

namespace Invalidation

/-- How a turn ends, as the surroundings see it. -/
inductive Outcome where
  | returned
  | failed (failure : LinkFailure)
  | panicked (fault : Fault)
  | asked (request : Request)
  deriving DecidableEq

/-- What remains of the end of a turn without that which only the library knows. -/
def Next.outcome : Next → Outcome
  | .returned => .returned
  | .failed failure => .failed failure
  | .panicked fault => .panicked fault
  | .waiting request _ => .asked request

/-- A call that waits on the left, with the names of the right. -/
def Waiting.twin (i : SlotId) (h : HandleId) (x : Waiting) : Waiting :=
  ⟨x.pending.twin i h, x.loan.twin i h⟩

/-- What the surroundings do on the right where they do this on the left, if they have to do
    anything. -/
def Action.twin? (i : SlotId) (h : HandleId) (σ τ : World) : Action → Option Action
  | .call c => (c.twin? i h σ τ).map .call
  | a => some a

/-- What the left may do: anything but to take the set of the slot away or to let go of the slot. -/
def Action.Within (i : SlotId) (h : HandleId) : Action → Prop
  | .call c => c.Within i h
  | _ => True

instance (i : SlotId) (h : HandleId) : DecidablePred (Action.Within i h)
  | .call c => inferInstanceAs (Decidable (c.Within i h))
  | .patched | .located _ | .failed _ => .isTrue trivial

/-- All that can be read of the objects is the same on both sides, where on the left it is read of
    slot `i` and on the right of the set of handle `h`. -/
structure World.ReadsAlike (i : SlotId) (h : HandleId) (σ τ : World) : Prop where
  watched : (τ.setReport (.ofHandle h)).watched = (σ.slotReport i).watched
  invalidated : (τ.setReport (.ofHandle h)).invalidated = (σ.slotReport i).invalidated
  /-- Nobody is registered on a slot that has no set. -/
  queue : τ.queue (.ofHandle h) = ((σ.fatSet? i).map σ.queue).getD []
  watchpoints : ∀ w, (τ.watchpoint w).report = (σ.watchpoint w).report
  handles : ∀ k, k ≠ h → (τ.handleSet? k).map τ.setReport = (σ.handleSet? k).map σ.setReport
  slots : ∀ j, j ≠ i → τ.slotReport j = σ.slotReport j
  contexts : ∀ c, τ.contexts.get? c = σ.contexts.get? c

/-- Two transitions that nobody can tell apart. -/
structure Transition.SeenAs (i : SlotId) (h : HandleId) (t u : Transition) : Prop where
  outcome : u.move.turn.next.outcome = t.move.turn.next.outcome
  jump : u.jump? = t.jump?
  events : unpromoted u.move.turn.events = unpromoted t.move.turn.events
  reads : t.after.world.ReadsAlike i h u.after.world

/-- A transition on the left that nobody notices, while the right stands still. -/
structure Transition.Unseen (i : SlotId) (h : HandleId) (t : Transition) (l : Moment) : Prop where
  outcome : t.move.turn.next.outcome = .returned
  jump : t.jump? = none
  events : unpromoted t.move.turn.events = []
  reads : t.after.world.ReadsAlike i h l.world

/-- The transitions on the right, which start at the moment `l`, go side by side with those on the
    left. -/
inductive Mirrors (i : SlotId) (h : HandleId) : Moment → List Transition → List Transition → Prop where
  | nil (l : Moment) : Mirrors i h l [] []
  | both {l : Moment} {t u : Transition} {ts us : List Transition} (before : u.before = l)
      (action : t.action.twin? i h t.before.world l.world = some u.action) (seen : t.SeenAs i h u)
      (rest : Mirrors i h u.after ts us) : Mirrors i h l (t :: ts) (u :: us)
  | alone {l : Moment} {t : Transition} {ts us : List Transition}
      (action : t.action.twin? i h t.before.world l.world = none) (unseen : t.Unseen i h l)
      (rest : Mirrors i h l ts us) : Mirrors i h l (t :: ts) us

variable {i : SlotId} {h : HandleId} {σ τ : World} {k l m : Moment} {t u : Transition}

/-- Two moves that lead to the same. -/
structure Move.Twins (i : SlotId) (h : HandleId) (v x : Move) : Prop where
  turn : v.turn.Twins i h x.turn
  loan : x.loan = v.loan.twin i h
  below : x.below = v.below.map (Waiting.twin i h)

/-! ### What can be read -/

namespace World.Alike

theorem reads (A : Alike i h σ τ) (hσ : σ.Coherent) (tidy : σ.Tidy) : σ.ReadsAlike i h τ where
  watched := congrArg Flags.watched A.flagsOf_own
  invalidated := congrArg Flags.invalidated A.flagsOf_own
  queue := by
    rcases A.own with ⟨f, thin, hset⟩ | ⟨fat, hset⟩
    · have hnone : σ.fatSet? i = none := by
        rw [World.fatSet?, slot?_eq_some_iff.mpr ⟨thin, rfl⟩]
      rw [hnone, queue, World.watchersOf, hset]
      rfl
    · rw [fatSet?_eq_some_iff.mpr ⟨_, fat, rfl, rfl⟩, queue, World.watchersOf, hset]
      rfl
  watchpoints w := by
    rw [A.watchpoint]
    simp only [Watchpoint.report, Watchpoint.twin, Watchpoint.isResolved, Watchpoint.addresses?,
      Watchpoint.isOnList, Option.isSome_map]
  handles k hk := by
    rw [A.shares k hk, Option.map_map]
    cases hs : σ.handleSet? k with
    | none => rfl
    | some s =>
      have issued := hσ.issued_of_owned (Or.inl ⟨k, hs⟩)
      rw [Option.map_some, Option.map_some, Function.comp, setReport, setReport, A.flagsOf issued,
        A.watchersOf issued]
  slots j hj := by
    have hslot : τ.slot j = σ.slot j := by rw [slot, slot, A.slots j hj]
    have hflags : τ.slotFlags (σ.slot j) = σ.slotFlags (σ.slot j) := by
      rw [slot]
      cases ht : σ.slots.get? j with
      | none => rfl
      | some t =>
        rw [Option.getD_some, slotFlags, slotFlags]
        cases hs : t.storage with
        | thin f => rfl
        | fat s =>
          obtain ⟨n, rfl⟩ := tidy.home j t s ht hs
          have hsame := A.sets (.ofSlot j n) (fun he => hj (SetId.ofSlot.inj he).1) SetId.noConfusion
          simp only [World.flagsOf, hsame]
    simp only [slotReport, hslot, hflags]
  contexts := A.contexts

end World.Alike

/-! ### Moves that lead to the same -/

namespace Move.Twins

variable {v x : Move}

theorem outcome (T : v.Twins i h x) : x.turn.next.outcome = v.turn.next.outcome := by
  rw [T.turn.next]
  cases v.turn.next <;> rfl

theorem stack_after (T : v.Twins i h x) : x.after.stack = v.after.stack.map (Waiting.twin i h) := by
  rw [Move.after, Move.after, T.turn.next, T.below, T.loan]
  cases v.turn.next <;> rfl

end Move.Twins

theorem Transition.jump?_of_twins (T : t.move.Twins i h u.move) : u.jump? = t.jump? := by
  rw [Transition.jump?, Transition.jump?, T.turn.next]
  cases t.move.turn.next with
  | returned | failed | panicked => rfl
  | waiting r pending => cases r <;> cases pending <;> rfl

/-! ### Moments side by side -/

/-- Two moments that differ in nothing but the assumption that one keeps in a slot and the other in
    a set. -/
structure Moment.Abreast (i : SlotId) (h : HandleId) (k l : Moment) : Prop where
  world : k.world.Alike i h l.world
  stack : l.stack = k.stack.map (Waiting.twin i h)
  /-- What is being swept has been made. -/
  made : ∀ x ∈ k.stack, ∀ p s, x.pending = .patch p → p.sweep = some s → k.world.Issued s.set
  sound : k.Sound
  sound' : l.Sound
  tidy : k.world.Tidy
  tidy' : l.world.Tidy

namespace Moment.Abreast

theorem lends (A : k.Abreast i h l) {x : Loan} (hx : x ≠ .slot i) (hx' : x ≠ .handle h) :
    l.lends x = k.lends x := by
  rw [Moment.lends, Moment.lends, A.stack, List.any_map]
  refine congrArg k.stack.any (funext fun y => decide_eq_decide.mpr ?_)
  show y.loan.twin i h = x ↔ y.loan = x
  by_cases hy : y.loan = .slot i
  · rw [Loan.twin, if_pos hy, hy]
    exact iff_of_false (Ne.symm hx') (Ne.symm hx)
  · rw [Loan.twin_of_ne hy]

theorem permits (A : k.Abreast i h l) {c d : Call} (within : c.Within i h)
    (permitted : k.permits c = true)
    (twin : Call.IsTwin i h k.world l.world c d) : l.permits d = true := by
  obtain ⟨allowed, free⟩ := Bool.and_eq_true_iff.mp permitted
  have hallowed := (A.world.twins_begin A.sound.coherent A.tidy A.tidy' within allowed twin).1
  refine Bool.and_eq_true_iff.mpr ⟨hallowed, ?_⟩
  cases twin with
  | add | watch | write | share => rfl
  | same elsewhere =>
    cases hx : c.takes with
    | none => rfl
    | some x =>
      have hslot : x ≠ .slot i := fun he => elsewhere (hx.trans (congrArg some he))
      have hhandle : x ≠ .handle h := by
        -- the one call that takes a handle drops it, and the left has no such handle
        rintro rfl
        cases c with
        | dropHandle j =>
          obtain rfl : j = h := Loan.handle.inj (Option.some.inj hx)
          obtain ⟨s, hs⟩ := Option.isSome_iff_exists.mp allowed
          exact A.world.ne_of_handleSet? hs rfl
        | _ => cases hx
      rw [hx] at free
      rwa [Option.all_some, A.lends hslot hhandle]

/-- Whatever the left does, the right can do its twin, and it leads to the same. -/
theorem exists_move (A : k.Abreast i h l) {a b : Action} {v : Move} (moves : k.Moves a v)
    (within : a.Within i h) (twin : a.twin? i h k.world l.world = some b) :
    ∃ x, l.Moves b x ∧ v.Twins i h x := by
  have hcons : ∀ {x : Waiting} {below : List Waiting}, k.stack = x :: below →
      l.stack = x.twin i h :: below.map (Waiting.twin i h) := fun top => by
    rw [A.stack, top, List.map_cons]
  cases moves with
  | @call c permitted =>
    obtain ⟨d, hd, rfl⟩ := Option.map_eq_some_iff.mp twin
    have hd := Call.isTwin_of_twin? hd
    obtain ⟨-, loan, T⟩ := A.world.twins_begin A.sound.coherent A.tidy A.tidy' within
      (Bool.and_eq_true_iff.mp permitted).1 hd
    exact ⟨_, .call (A.permits within permitted hd), T, loan, A.stack⟩
  | @patched p loan below top =>
    obtain rfl := Option.some.inj twin
    have hmem : (⟨.patch p, loan⟩ : Waiting) ∈ k.stack := top ▸ List.mem_cons_self
    have T := A.world.twins_patched A.sound.coherent (A.made _ hmem p · rfl)
      (A.sound.ready _ hmem p · rfl)
    exact ⟨_, .patched (hcons top), T, rfl, rfl⟩
  | located answer top =>
    obtain rfl := Option.some.inj twin
    exact ⟨_, .located answer (hcons top), A.world.twins_located _ answer, rfl, rfl⟩
  | @failed pending loan below message top =>
    obtain rfl := Option.some.inj twin
    refine ⟨_, .failed message (hcons top), World.Alike.twins_panic ?_ _, rfl, rfl⟩
    cases pending with
    | locate => exact A.world
    | patch p =>
      have hmem : (⟨.patch p, loan⟩ : Waiting) ∈ k.stack := top ▸ List.mem_cons_self
      exact A.world.abandon (A.made _ hmem p · rfl) (A.sound.ready _ hmem p · rfl)

theorem made_below (A : k.Abreast i h l) (before : t.before = k) :
    ∀ x ∈ t.move.below, ∀ p s, x.pending = .patch p → p.sweep = some s →
    t.after.world.Issued s.set := by
  subst before
  intro x hx p s hp hs
  obtain ⟨last, e, -⟩ := (Transition.does A.sound).edits
  exact e.issued (A.made x (t.below_subset x hx) p s hp hs)

/-- After moves that lead to the same, the moments are still side by side. -/
theorem after (A : k.Abreast i h l) (before : t.before = k) (before' : u.before = l)
    (T : t.move.Twins i h u.move) : t.after.Abreast i h u.after := by
  have hmade := A.made_below before
  subst before before'
  refine ⟨T.turn.world, T.stack_after, fun x hx p s hp hs => ?_, t.sound A.sound, u.sound A.sound',
    Transition.tidy A.sound A.tidy, Transition.tidy A.sound' A.tidy'⟩
  rcases Transition.mem_stack_after hx with hx | ⟨r, hn⟩
  · exact hmade x hx p s hp hs
  · exact T.turn.made r p s (hp ▸ hn) hs

theorem seen (A : t.after.Abreast i h u.after) (T : t.move.Twins i h u.move) : t.SeenAs i h u where
  outcome := T.outcome
  jump := Transition.jump?_of_twins T
  events := T.turn.events
  reads := A.world.reads A.sound.coherent A.tidy

/-- Where the right has nothing to do, the left has done nothing that anybody would notice. -/
theorem alone (A : k.Abreast i h l) (before : t.before = k) (within : t.action.Within i h)
    (twin : t.action.twin? i h k.world l.world = none) : t.Unseen i h l ∧ t.after.Abreast i h l := by
  have hmade := A.made_below before
  subst before
  have hsound := t.sound A.sound
  have htidy := Transition.tidy A.sound A.tidy
  obtain ⟨m, a, v, possible⟩ := t
  cases Moment.moves_of_move? possible with
  | @call c permitted =>
    obtain ⟨A', next, events⟩ := A.world.begin_alone within (Option.map_eq_none_iff.mp twin)
    refine ⟨⟨?_, ?_, events, A'.reads hsound.coherent htidy⟩, A', ?_, ?_, hsound, A.sound',
      htidy, A.tidy'⟩
    · show (m.world.begin c).next.outcome = _
      rw [next]
      rfl
    · simp only [Transition.jump?, next]
    · simp only [Transition.after, Move.after, next]
      exact A.stack
    · simp only [Transition.after, Move.after, next]
      exact hmade
  | patched | located | failed => cases twin

/-- Whatever the left does from here on, the right can go side by side with it. -/
theorem mirrors {us : List Transition} (run : Run k us m) (A : k.Abreast i h l)
    (within : ∀ t ∈ us, t.action.Within i h) : ∃ us' n, Run l us' n ∧ Mirrors i h l us us' := by
  induction run generalizing l with
  | nil => exact ⟨[], l, .nil l, .nil l⟩
  | @cons k m t us before rest ih =>
    obtain ⟨hhead, htail⟩ := List.forall_mem_cons.mp within
    subst before
    cases twin : t.action.twin? i h t.before.world l.world with
    | none =>
      obtain ⟨unseen, A'⟩ := A.alone rfl hhead twin
      obtain ⟨us', n, run', M⟩ := ih A' htail
      exact ⟨us', n, run', .alone twin unseen M⟩
    | some b =>
      obtain ⟨x, moves, T⟩ := A.exists_move (Moment.moves_of_move? t.possible) hhead twin
      let u : Transition := ⟨l, b, x, Moment.move?_of_moves moves⟩
      have A' : t.after.Abreast i h u.after := A.after rfl rfl T
      obtain ⟨us', n, run', M⟩ := ih A' htail
      exact ⟨u :: us', n, .cons rfl run', .both rfl twin (A'.seen T) M⟩

end Moment.Abreast

theorem Mirrors.jumps_eq {ts us : List Transition} (M : Mirrors i h l ts us) : jumps us = jumps ts := by
  induction M with
  | nil => rfl
  | both _ _ seen _ ih => rw [jumps_cons, jumps_cons, seen.jump, ih]
  | alone _ unseen _ ih =>
    rw [ih, jumps_cons, unseen.jump]
    rfl

/-! ### From the start -/

/-- Whoever keeps an assumption in a slot could have made a set for it instead: the same calls on
    the set end in the same way, ask for the same jumps and leave the same to read, step by step. -/
theorem Run.slot_refines_set {ts us : List Transition} {start : Transition} {mode : InitialMode}
    (reached : Run {} ts k) (still : k.stack = []) (new : k.world.handles.get? h = none)
    (run : Run k (start :: us) m) (action : start.action = .call (.newSlot i mode))
    (within : ∀ t ∈ us, t.action.Within i h) :
    ∃ start' us' n, Run k (start' :: us') n ∧ start'.action = .call (.newSet h mode) ∧
      start.SeenAs i h start' ∧ Mirrors i h start'.after us us' ∧ jumps us' = jumps us := by
  have sound := reached.sound Moment.sound_empty
  have tidy := reached.tidy Moment.sound_empty World.tidy_empty
  cases run with
  | cons before rest =>
    subst before
    obtain ⟨k, a, v, possible⟩ := start
    obtain rfl : a = .call (.newSlot i mode) := action
    cases Moment.moves_of_move? possible with
    | call permitted =>
      have newSlot := World.get?_eq_none_of_not_contains (Bool.and_eq_true_iff.mp permitted).1
      have permitted' : k.permits (.newSet h mode) = true := by
        simp [Moment.permits, World.allows, Store.contains, Call.takes, new]
      let t := k.calling (.newSlot i mode) permitted
      let u := k.calling (.newSet h mode) permitted'
      have world := World.Alike.of_new sound.coherent newSlot new mode
      have T : t.move.Twins i h u.move := by
        refine ⟨world.twins_done, (Loan.twin_of_ne Loan.noConfusion).symm, ?_⟩
        show k.stack = k.stack.map (Waiting.twin i h)
        rw [still, List.map_nil]
      have A : t.after.Abreast i h u.after := by
        refine ⟨world, T.stack_after, fun x hx => ?_, t.sound sound, u.sound sound,
          Transition.tidy (t := t) sound tidy, Transition.tidy (t := u) sound tidy⟩
        have hstack : t.after.stack = [] := still
        rw [hstack] at hx
        cases hx
      obtain ⟨us', n, run', M⟩ := Moment.Abreast.mirrors rest A within
      exact ⟨u, us', n, .cons rfl run', rfl, A.seen T, M, M.jumps_eq⟩

/-- Two watchpoints have addresses. -/
def resolvedPair : List Action :=
  [.call (.createAlone 0 (.scripted "p") ⟨16⟩ ⟨96⟩), .call (.resolve 0), .located (.ok ⟨4112⟩),
    .located (.ok ⟨4192⟩), .call (.createAlone 1 (.scripted "p") ⟨32⟩ ⟨112⟩), .call (.resolve 1),
    .located (.ok ⟨4128⟩), .located (.ok ⟨4208⟩)]

/-- A slot is written to twice, is watched again while it reads as invalidated, gets its set, and
    has one watchpoint registered on it twice. A handle registers another; a write fires both, a
    late one fires next, and then nobody watches any more. -/
def slotAtWork : List Action :=
  [.call (.newSlot 2 .watching), .call (.slotNotifyWrite 2), .call (.slotNotifyWrite 2),
    .call (.slotStartWatching 2), .call (.slotAdd 2 none), .call (.slotAdd 2 (some 0)),
    .call (.slotAdd 2 (some 0)), .call (.inflate 2), .call (.handleOfSlot 2 3), .call (.add 3 (some 1)),
    .call (.slotNotifyWrite 2), .patched, .patched, .call (.slotAdd 2 (some 0)), .call (.notifyWrite 3),
    .patched, .call (.slotNotifyWrite 2), .call (.notifyWrite 3)]

theorem slot_refines_set_slotAtWork :
    ∃ ts k start us m, Run {} ts k ∧ k.stack = [] ∧ k.world.handles.get? 4 = none ∧
      Run k (start :: us) m ∧ start.action = .call (.newSlot 2 .watching) ∧
      (∀ t ∈ us, t.action.Within 2 4) ∧ (jumps us).map Jump.watchpoint = [0, 1, 0] ∧
      (us.filter Transition.panics).length = 2 ∧
      ∃ start' us' n, Run k (start' :: us') n ∧ start'.action = .call (.newSet 4 .watching) ∧
        start.SeenAs 2 4 start' ∧ Mirrors 2 4 start'.after us us' ∧ jumps us' = jumps us := by
  have reached := Moment.run_play {} resolvedPair
  have run := Moment.run_play_at (Moment.last {} (Moment.play {} resolvedPair)) slotAtWork (n := 0)
    (by decide)
  have within : ∀ t ∈ ((Moment.last {} (Moment.play {} resolvedPair)).play slotAtWork).drop 1,
      t.action.Within 2 4 := by decide
  exact ⟨_, _, _, _, _, reached, rfl, rfl, run, rfl, within, by decide, by decide,
    reached.slot_refines_set rfl rfl run rfl within⟩

end Invalidation
