import Invalidation.Proofs.World.Turns

/-! Runs of the library. A *moment* is a world and the calls that wait, innermost first. From a moment
    the surroundings go on as they please: they make a call, also from inside a waiting one, or they
    answer the innermost call that waits, or they fail it. What follows is one turn, and the next
    moment.

        moment ──call──▶ turn ──▶ moment ──call──▶ …
                 (a waiting call goes on the stack)
        moment ──patched / located / failed──▶ turn ──▶ moment
                 (the innermost call comes off the stack, and back on if it waits again)

    The surroundings keep to two rules only: they use what they hold, and give new identities to what
    they make; and what a waiting call has on loan is not dropped, nor is a slot on loan used. -/

namespace Invalidation

/-- A call that waits, and what it has on loan. -/
structure Waiting where
  pending : Pending
  loan : Loan
  deriving DecidableEq

/-- A moment at which the library stands still. -/
structure Moment where
  world : World := {}
  /-- The calls that wait, innermost first. -/
  stack : List Waiting := []

/-- What the surroundings do next. -/
inductive Action where
  /-- They make a call. -/
  | call (call : Call)
  /-- The jump of the innermost call is installed. -/
  | patched
  /-- The label of the innermost call is looked up. -/
  | located (answer : Except LinkFailure Address)
  /-- Whoever the innermost call asked fails. -/
  | failed (message : String)

/-- A turn, for whom it is taken, and the calls that go on waiting meanwhile. -/
structure Move where
  turn : Turn
  loan : Loan
  below : List Waiting

/-- A jump that is installed for a watchpoint. -/
structure Jump where
  watchpoint : WatchpointId
  patcher : PatcherId
  source : Address
  destination : Address
  deriving DecidableEq

namespace Call

/-- What must not be on loan for the call to be possible. -/
def takes : Call → Option Loan
  | .dropWatchpoint w => some (.watchpoint w)
  | .dropHandle h => some (.handle h)
  | .slotAdd i _ | .slotStartWatching i | .slotNotifyWrite i | .inflate i | .promote i
  | .handleOfSlot i _ | .freeFat i | .dropSlot i => some (.slot i)
  | _ => none

end Call

namespace Pending

/-- The watchpoint whose jump is being installed. -/
def patching? : Pending → Option WatchpointId
  | .patch p => some p.watchpoint
  | .locate _ => none

end Pending

namespace Moment

/-- Whether a call that waits has that on loan. -/
def lends (m : Moment) (l : Loan) : Bool := m.stack.any fun x => x.loan = l

/-- Whether the surroundings may make the call. -/
def permits (m : Moment) (c : Call) : Bool := m.world.allows c && c.takes.all fun l => !m.lends l

/-- What an action leads to, if it is possible. -/
def move? (m : Moment) : Action → Option Move
  | .call c => if m.permits c then some ⟨m.world.begin c, c.loan, m.stack⟩ else none
  | .patched =>
    match m.stack with
    | ⟨.patch p, loan⟩ :: below => some ⟨m.world.patched p, loan, below⟩
    | _ => none
  | .located answer =>
    match m.stack with
    | ⟨.locate l, loan⟩ :: below => some ⟨m.world.located l answer, loan, below⟩
    | _ => none
  | .failed message =>
    match m.stack with
    | ⟨pending, loan⟩ :: below => some ⟨(m.world.unwind pending).panic (.foreign message), loan, below⟩
    | [] => none

/-- The possible moves, one rule for each kind of action. -/
inductive Moves (m : Moment) : Action → Move → Prop where
  | call {c : Call} (permitted : m.permits c = true) :
      m.Moves (.call c) ⟨m.world.begin c, c.loan, m.stack⟩
  | patched {p : Patching} {loan : Loan} {below : List Waiting}
      (top : m.stack = ⟨.patch p, loan⟩ :: below) : m.Moves .patched ⟨m.world.patched p, loan, below⟩
  | located {l : Locating} {loan : Loan} {below : List Waiting} (answer : Except LinkFailure Address)
      (top : m.stack = ⟨.locate l, loan⟩ :: below) :
      m.Moves (.located answer) ⟨m.world.located l answer, loan, below⟩
  | failed {pending : Pending} {loan : Loan} {below : List Waiting} (message : String)
      (top : m.stack = ⟨pending, loan⟩ :: below) :
      m.Moves (.failed message) ⟨(m.world.unwind pending).panic (.foreign message), loan, below⟩

theorem moves_of_move? {m : Moment} {a : Action} {v : Move} (h : m.move? a = some v) :
    m.Moves a v := by
  cases a with
  | call c =>
    rw [move?] at h
    split at h
    · next hp => exact Option.some.inj h ▸ .call hp
    · cases h
  | patched =>
    simp only [move?] at h
    split at h
    · next top => exact Option.some.inj h ▸ .patched top
    · cases h
  | located answer =>
    simp only [move?] at h
    split at h
    · next top => exact Option.some.inj h ▸ .located answer top
    · cases h
  | failed message =>
    simp only [move?] at h
    split at h
    · next top => exact Option.some.inj h ▸ .failed message top
    · cases h

theorem move?_of_moves {m : Moment} {a : Action} {v : Move} (h : m.Moves a v) : m.move? a = some v := by
  cases h with
  | call permitted => exact if_pos permitted
  | patched top | located _ top | failed _ top => simp only [move?, top]

end Moment

namespace Move

/-- The moment at the end of the turn. -/
def after (v : Move) : Moment where
  world := v.turn.world
  stack :=
    match v.turn.next with
    | .waiting _ pending => ⟨pending, v.loan⟩ :: v.below
    | _ => v.below

end Move

/-- An action that is possible, with what it leads to. -/
structure Transition where
  before : Moment
  action : Action
  move : Move
  possible : before.move? action = some move

namespace Transition

/-- The moment at the end of a transition. -/
def after (t : Transition) : Moment := t.move.after

/-- The jump that is installed from the end of the transition on. -/
def jump? (t : Transition) : Option Jump :=
  match t.move.turn.next with
  | .waiting (.patch patcher source destination) (.patch p) =>
    some ⟨p.watchpoint, patcher, source, destination⟩
  | _ => none

/-- Whether the call that the transition belongs to ends abruptly. -/
def panics (t : Transition) : Bool :=
  match t.move.turn.next with
  | .panicked _ => true
  | _ => false

/-- The change that a transition does. -/
def change? (t : Transition) : Option Change :=
  match t.action, t.before.stack with
  | .call c, _ => t.before.world.change? c
  | .patched, x :: _ => x.pending.patching?.map .leave
  | _, _ => none

/-- The innermost waiting call is that of a watchpoint whose jump fails to be installed. -/
def failing? (t : Transition) : Option WatchpointId :=
  match t.action, t.before.stack with
  | .failed _, x :: _ => x.pending.patching?
  | _, _ => none

/-- The transition is cut short where a watchpoint fires: it has no addresses, or the jump fails to be
    installed. -/
def isCut (t : Transition) : Bool :=
  match t.action with
  | .failed _ => t.failing?.isSome
  | _ => t.move.turn.isCut

end Transition

namespace Transition

variable {c : Call}

/-- A call is one that is permitted, and begins with its first turn. -/
theorem of_call (t : Transition) (action : t.action = .call c) :
    t.before.permits c = true ∧ t.move = ⟨t.before.world.begin c, c.loan, t.before.stack⟩ := by
  obtain ⟨m, a, v, possible⟩ := t
  obtain rfl : a = .call c := action
  cases Moment.moves_of_move? possible with
  | call permitted => exact ⟨permitted, rfl⟩

end Transition

/-- A run from one moment to another: transitions, each from the moment at which the last one ended. -/
inductive Run : Moment → List Transition → Moment → Prop where
  | nil (m : Moment) : Run m [] m
  | cons {m m' : Moment} {t : Transition} {ts : List Transition} (start : t.before = m)
      (rest : Run t.after ts m') : Run m (t :: ts) m'

namespace Run

variable {m m' : Moment} {ts us : List Transition}

theorem append {k : Moment} (r : Run m ts k) (r' : Run k us m') : Run m (ts ++ us) m' := by
  induction r with
  | nil => exact r'
  | cons start _ ih => exact .cons start (ih r')

theorem split (r : Run m (ts ++ us) m') : ∃ k, Run m ts k ∧ Run k us m' := by
  induction ts generalizing m with
  | nil => exact ⟨m, .nil m, r⟩
  | cons t ts ih =>
    cases r with
    | cons start rest =>
      obtain ⟨k, r, r'⟩ := ih rest
      exact ⟨k, .cons start r, r'⟩

theorem of_concat {t : Transition} (r : Run m (ts ++ [t]) m') : Run m ts t.before ∧ t.after = m' := by
  obtain ⟨k, r₁, r₂⟩ := r.split
  cases r₂ with
  | cons start r₂ =>
    cases r₂ with
    | nil => exact ⟨start ▸ r₁, rfl⟩

/-- Once a call is over, nothing more is done while it is in progress. -/
theorem eq_nil_of_over {below : List Waiting} (r : Run m ts m') (ended : m.stack = below)
    (lasting : ∀ t ∈ ts, t.before.stack ≠ below) : ts = [] ∧ m' = m := by
  cases r with
  | nil => exact ⟨rfl, rfl⟩
  | cons start _ => exact absurd (start ▸ ended) (lasting _ List.mem_cons_self)

/-- What every transition keeps, every run keeps. -/
theorem keeps {P : Moment → Prop} (step : ∀ t : Transition, P t.before → P t.after)
    (r : Run m ts m') (h : P m) : P m' := by
  induction r with
  | nil => exact h
  | cons start _ ih => exact ih (step _ (start ▸ h))

/-- What every transition of a kind keeps, every run of such transitions keeps. -/
theorem keeps_along {P : Moment → Prop} {Q : Transition → Prop}
    (step : ∀ t, Q t → P t.before → P t.after) (r : Run m ts m') (all : ∀ t ∈ ts, Q t) (h : P m) :
    P m' := by
  induction r with
  | nil => exact h
  | cons start _ ih =>
    obtain ⟨ht, hts⟩ := List.forall_mem_cons.mp all
    exact ih hts (step _ ht (start ▸ h))

end Run

namespace Moment

/-- A call that the surroundings may make, as a transition. -/
def calling (m : Moment) (c : Call) (permitted : m.permits c = true) : Transition :=
  ⟨m, .call c, ⟨m.world.begin c, c.loan, m.stack⟩, if_pos permitted⟩

/-- The jump of the innermost call is installed, as a transition. -/
def installing (m : Moment) {p : Patching} {loan : Loan} {below : List Waiting}
    (top : m.stack = ⟨.patch p, loan⟩ :: below) : Transition :=
  ⟨m, .patched, ⟨m.world.patched p, loan, below⟩, by simp only [move?, top]⟩

theorem run_of_returned {m : Moment} {c : Call} (permitted : m.permits c = true)
    (returned : (m.world.begin c).next = .returned) :
    Run m [m.calling c permitted] ⟨(m.world.begin c).world, m.stack⟩ := by
  have hafter : (m.calling c permitted).after = ⟨(m.world.begin c).world, m.stack⟩ := by
    simp only [calling, Transition.after, Move.after, returned]
  exact .cons rfl (hafter ▸ .nil _)

theorem not_lends {m : Moment} {l : Loan} (h : ∀ x ∈ m.stack, x.loan ≠ l) : m.lends l = false := by
  simpa [lends] using h

/-- The transitions that a list of actions makes, as far as they are possible. -/
def play (m : Moment) : List Action → List Transition
  | [] => []
  | a :: as =>
    match h : m.move? a with
    | some v => ⟨m, a, v, h⟩ :: v.after.play as
    | none => []

/-- The moment that transitions lead to. -/
def last (m : Moment) : List Transition → Moment
  | [] => m
  | t :: ts => t.after.last ts

theorem run_play (m : Moment) (as : List Action) : Run m (m.play as) (m.last (m.play as)) := by
  induction as generalizing m with
  | nil => exact .nil m
  | cons a as ih =>
    rw [play]
    split
    · exact .cons rfl (ih _)
    · exact .nil m

theorem run_play_at (m : Moment) (as : List Action) {n : Nat} (hn : n < (m.play as).length) :
    Run m ((m.play as).take n ++ (m.play as)[n] :: (m.play as).drop (n + 1)) (m.last (m.play as)) := by
  rw [← List.drop_eq_getElem_cons, List.take_append_drop]
  exact m.run_play as

end Moment

end Invalidation
