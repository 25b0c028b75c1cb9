import Invalidation.Proofs.Run.Moment
import Invalidation.Proofs.World.Untraced

/-! Tracing changes nothing. Two clients do the same, but that some runtimes of the one trace
    redirects and those of the other do not. What they do next may depend on all that they have
    seen, on every answer and on the whole state of the library, as long as they do not look at the
    traces:

        plan   ──▶ openRuntime (traced) ── fire ────────▶ patch ── …
                                              └─ redirecting
        plan'  ──▶ openRuntime ─────────── fire ────────▶ patch ── …

    Then they go through the same turns, one by one: each ends in the same way, and leaves the same
    flags, lists, locations and counters behind. Only the traces tell the one from the other. -/

namespace Invalidation

/-- The action without the trace of redirects. -/
def Action.untraced : Action → Action
  | .call c => .call c.untraced
  | a => a

/-- The move without the trace of redirects. -/
def Move.untraced (v : Move) : Move := { v with turn := v.turn.untraced }

/-- The moment without the trace of redirects. -/
def Moment.untraced (m : Moment) : Moment := { m with world := m.world.untraced }

/-- What the surroundings do next, after the turns that they have seen, if they do anything. -/
abbrev Plan : Type := List Turn → Option Action

namespace Plan

/-- The plan to do one thing after the other, whatever happens. -/
def ofActions (as : List Action) : Plan := fun seen => as[seen.length]?

/-- Two plans that differ in nothing but in which runtimes they have trace redirects. -/
def Alike (plan other : Plan) : Prop :=
  ∀ seen, (plan seen).map Action.untraced = (other seen).map Action.untraced

theorem alike_ofActions {as bs : List Action} (h : as.map Action.untraced = bs.map Action.untraced) :
    (ofActions as).Alike (ofActions bs) := fun seen => by
  rw [ofActions, ofActions, ← List.getElem?_map, h, List.getElem?_map]

end Plan

/-- The first so many transitions from a moment, if the surroundings keep to a plan. Of every turn
    they see all but the traces. -/
def Moment.drive (plan : Plan) : Nat → Moment → List Turn → List Transition
  | 0, _, _ => []
  | n + 1, m, seen =>
    match plan seen with
    | none => []
    | some a =>
      match h : m.move? a with
      | none => []
      | some v => ⟨m, a, v, h⟩ :: drive plan n v.after (seen ++ [v.turn.untraced])

/-- Two worlds with the same flags, lists, locations and counters; the settings of their contexts
    differ at most in whether redirects are traced. -/
structure World.AlikeButTracing (σ τ : World) : Prop where
  watchpoints : τ.watchpoints = σ.watchpoints
  sets : τ.sets = σ.sets
  handles : τ.handles = σ.handles
  slots : τ.slots = σ.slots
  counters : ∀ c, (τ.context c).counters = (σ.context c).counters
  contexts : ∀ c, (τ.contexts.get? c).map Context.untraced = (σ.contexts.get? c).map Context.untraced

/-- Two transitions that nobody can tell apart but by the traces. -/
structure Transition.AlikeButTracing (t u : Transition) : Prop where
  action : u.action.untraced = t.action.untraced
  /-- The same result, failure, panic or request. -/
  next : u.move.turn.next = t.move.turn.next
  jump : u.jump? = t.jump?
  events : u.move.turn.events.filterMap LogEvent.untraced? =
    t.move.turn.events.filterMap LogEvent.untraced?
  world : t.after.world.AlikeButTracing u.after.world
  stack : u.after.stack = t.after.stack

/-- The trace that is due for a transition: that of the jump it asks for, if the context of the
    watchpoint traces redirects. -/
def Transition.trace (t : Transition) : List LogEvent :=
  match t.jump? with
  | some j =>
    if (t.after.world.contextOf j.watchpoint).settings.firing.traceRedirects then
      [.redirecting j.source j.destination]
    else []
  | none => []

/-- The transition reports the trace that is due, immediately before its jump is asked for, and no
    other. -/
def Transition.TracesJump (t : Transition) : Prop :=
  ∃ others : List LogEvent, t.move.turn.events = others ++ t.trace ∧ ∀ e ∈ others, e.isRedirect = false

/-! ### Runs that keep to a plan -/

namespace Moment

variable {plan other : Plan} {n : Nat} {m k : Moment} {seen : List Turn} {a : Action} {v : Move}

theorem drive_of_idle (idle : plan seen = none) : m.drive plan n seen = [] := by
  cases n with
  | zero => rfl
  | succ n => simp only [drive, idle]

theorem drive_of_impossible (next : plan seen = some a) (impossible : m.move? a = none) :
    m.drive plan n seen = [] := by
  cases n with
  | zero => rfl
  | succ n =>
    simp only [drive, next]
    split
    · rfl
    · next h => cases impossible.symm.trans h

theorem drive_of_possible (next : plan seen = some a) (possible : m.move? a = some v) :
    m.drive plan (n + 1) seen =
      ⟨m, a, v, possible⟩ :: v.after.drive plan n (seen ++ [v.turn.untraced]) := by
  simp only [drive, next]
  split
  · next h => cases possible.symm.trans h
  · next u h =>
    obtain rfl := Option.some.inj (possible.symm.trans h)
    rfl

/-- What a plan leads to is a run. -/
theorem run_drive (plan : Plan) (n : Nat) (m : Moment) (seen : List Turn) :
    ∃ m', Run m (m.drive plan n seen) m' := by
  induction n generalizing m seen with
  | zero => exact ⟨m, .nil m⟩
  | succ n ih =>
    cases next : plan seen with
    | none => exact ⟨m, drive_of_idle next ▸ .nil m⟩
    | some a =>
      cases possible : m.move? a with
      | none => exact ⟨m, drive_of_impossible next possible ▸ .nil m⟩
      | some v =>
        obtain ⟨m', r⟩ := ih v.after (seen ++ [v.turn.untraced])
        exact ⟨m', drive_of_possible next possible ▸ .cons rfl r⟩

/-- Every run is one that keeps to a plan. -/
theorem drive_ofActions {ts : List Transition} {m' : Moment} (r : Run m ts m') (seen : List Turn)
    {as : List Action} (ahead : as.drop seen.length = ts.map (·.action)) :
    m.drive (.ofActions as) ts.length seen = ts := by
  induction r generalizing seen with
  | nil => rfl
  | @cons m m' t ts start rest ih =>
    subst start
    rw [List.map_cons] at ahead
    have hnext : Plan.ofActions as seen = some t.action := by
      rw [Plan.ofActions, ← List.head?_drop, ahead, List.head?_cons]
    rw [List.length_cons, drive_of_possible hnext t.possible]
    refine congrArg (t :: ·) (ih _ ?_)
    rw [List.length_append, List.length_singleton, ← List.tail_drop, ahead, List.tail_cons]

/-! ### Two clients, side by side -/

theorem permits_untraced (m : Moment) (c : Call) : m.untraced.permits c.untraced = m.permits c := by
  have htakes : c.untraced.takes = c.takes := by cases c <;> rfl
  rw [permits, permits, htakes]
  exact congrArg (· && _) (World.allows_untraced c)

theorem move?_untraced (m : Moment) (a : Action) :
    m.untraced.move? a.untraced = (m.move? a).map Move.untraced := by
  cases a with
  | call c =>
    have hloan : c.untraced.loan = c.loan := by cases c <;> rfl
    simp only [Action.untraced, move?, permits_untraced, hloan]
    split
    · exact congrArg (fun t => some (Move.mk t _ _)) (World.untraced_begin c).symm
    · rfl
  | patched =>
    simp only [Action.untraced, move?, untraced]
    split
    · exact congrArg (fun t => some (Move.mk t _ _)) (World.untraced_patched _).symm
    · rfl
  | located answer =>
    simp only [Action.untraced, move?, untraced]
    split
    · exact congrArg (fun t => some (Move.mk t _ _)) (World.untraced_located _ answer).symm
    · rfl
  | failed message =>
    simp only [Action.untraced, move?, untraced]
    split
    · rw [← World.untraced_unwind]
      rfl
    · rfl

end Moment

namespace World

variable {σ τ : World}

theorem alike_of_untraced (h : τ.untraced = σ.untraced) : σ.AlikeButTracing τ where
  watchpoints := (congrArg World.watchpoints h :)
  sets := (congrArg World.sets h :)
  handles := (congrArg World.handles h :)
  slots := (congrArg World.slots h :)
  counters c := by
    have hcontext := congrArg (·.context c) h
    simp only [context_untraced] at hcontext
    exact (congrArg Context.counters hcontext :)
  contexts c := by
    rw [← Store.get?_map, ← Store.get?_map]
    exact congrArg (·.contexts.get? c) h

end World

namespace Transition

/-- Two transitions between moments that are the same but for the traces. -/
theorem alike_of_untraced {t u : Transition} (action : u.action.untraced = t.action.untraced)
    (move : u.move.untraced = t.move.untraced) : t.AlikeButTracing u where
  action := action
  next := (congrArg (·.turn.next) move :)
  jump := by
    have hnext : u.move.turn.next = t.move.turn.next := (congrArg (·.turn.next) move :)
    rw [jump?, jump?, hnext]
  events := (congrArg (·.turn.events) move :)
  world := World.alike_of_untraced (congrArg (·.turn.world) move :)
  stack := (congrArg (·.after.stack) move :)

/-- The trace that is due for a transition is that of the jump its turn asks for. -/
theorem trace_eq_announcement (t : Transition) : t.trace = t.move.turn.announcement := by
  have hworld : t.after.world = t.move.turn.world := rfl
  rw [trace, jump?, Turn.announcement, hworld]
  generalize t.move.turn.next = next
  rcases next with _ | _ | _ | ⟨_ | _, _ | _⟩ <;> rfl

/-- Of every transition exactly the trace that is due is reported. -/
theorem traces_jump (t : Transition) : t.TracesJump := by
  have hturn : t.move.turn.Announced := by
    obtain ⟨m, a, v, possible⟩ := t
    cases Moment.moves_of_move? possible with
    | @call c permitted => exact World.announced_begin c
    | patched top => exact World.announced_patched _
    | located answer top => exact World.announced_located _ answer
    | failed message top => exact World.announced_panic _
  rwa [TracesJump, trace_eq_announcement]

end Transition

namespace Moment

variable {plan other : Plan} {m k : Moment}

/-- As long as their plans are alike, two clients go through transitions that are alike. -/
theorem drive_alike (alike : plan.Alike other) (n : Nat) (seen : List Turn)
    (same : m.untraced = k.untraced) :
    List.Forall₂ Transition.AlikeButTracing (m.drive plan n seen) (k.drive other n seen) := by
  induction n generalizing m k seen with
  | zero => exact .nil
  | succ n ih =>
    have hnext := alike seen
    cases next : plan seen with
    | none =>
      rw [next, Option.map_none, eq_comm, Option.map_eq_none_iff] at hnext
      rw [drive_of_idle next, drive_of_idle hnext]
      exact .nil
    | some a =>
      rw [next, Option.map_some, eq_comm, Option.map_eq_some_iff] at hnext
      obtain ⟨b, next', hab⟩ := hnext
      have hmove := congrArg (·.move? a.untraced) same
      rw [move?_untraced, ← hab, move?_untraced] at hmove
      cases possible : m.move? a with
      | none =>
        rw [possible, Option.map_none, eq_comm, Option.map_eq_none_iff] at hmove
        rw [drive_of_impossible next possible, drive_of_impossible next' hmove]
        exact .nil
      | some v =>
        rw [possible, Option.map_some, eq_comm, Option.map_eq_some_iff] at hmove
        obtain ⟨u, possible', huv⟩ := hmove
        have hseen : u.turn.untraced = v.turn.untraced := congrArg Move.turn huv
        have hafter : v.after.untraced = u.after.untraced := (congrArg Move.after huv.symm :)
        rw [drive_of_possible next possible, drive_of_possible next' possible', hseen]
        exact .cons (Transition.alike_of_untraced hab huv) (ih _ hafter)

end Moment

/-- Whether a runtime traces redirects makes no difference but for the traces. Two clients that do
    the same, apart from the runtimes that they have trace redirects, go through transitions that
    are alike, one by one and for as long as they go on; and each of them finds in its log just the
    traces that are due. -/
theorem Plan.tracing_changes_nothing {plan other : Plan} (alike : plan.Alike other) (n : Nat) :
    List.Forall₂ Transition.AlikeButTracing (Moment.drive plan n {} []) (Moment.drive other n {} []) ∧
      (∀ t ∈ Moment.drive plan n {} [], t.TracesJump) ∧ ∀ u ∈ Moment.drive other n {} [],
      u.TracesJump :=
  ⟨Moment.drive_alike alike n [] rfl, fun t _ => t.traces_jump, fun u _ => u.traces_jump⟩

/-- Two runtimes, of which the first or the second traces redirects. A watchpoint of each is
    registered on a set; inside the jump of the first, the second is fired by itself, and the
    patcher fails there. -/
def tracedBy (first second : Bool) : List Action :=
  [.call (.openRuntime 0 (.scripted "p") { firing := ⟨first⟩ }),
    .call (.openRuntime 1 (.scripted "p") { firing := ⟨second⟩ }), .call (.create 2 0 ⟨16⟩ ⟨96⟩),
    .call (.resolve 2), .located (.ok ⟨4112⟩), .located (.ok ⟨4192⟩), .call (.create 3 1 ⟨32⟩ ⟨112⟩),
    .call (.resolve 3), .located (.ok ⟨4128⟩), .located (.ok ⟨4208⟩), .call (.newSet 4 .blind),
    .call (.add 4 (some 2)), .call (.add 4 (some 3)), .call (.notifyWrite 4), .call (.fire 3),
    .failed "no memory", .patched, .patched]

theorem tracing_changes_nothing_tracedBy :
    ∃ plan other : Plan, plan.Alike other ∧
      (Moment.drive plan 18 {} []).flatMap (fun t => t.move.turn.events.filter (·.isRedirect)) =
        [.redirecting ⟨4112⟩ ⟨4192⟩] ∧
      (Moment.drive other 18 {} []).flatMap (fun t => t.move.turn.events.filter (·.isRedirect)) =
        [.redirecting ⟨4128⟩ ⟨4208⟩, .redirecting ⟨4128⟩ ⟨4208⟩] ∧
      (Moment.drive other 18 {} []).length = 18 ∧
      List.Forall₂ Transition.AlikeButTracing (Moment.drive plan 18 {} [])
        (Moment.drive other 18 {} []) ∧
      (∀ t ∈ Moment.drive plan 18 {} [], t.TracesJump) ∧
      ∀ u ∈ Moment.drive other 18 {} [], u.TracesJump := by
  have alike : (Plan.ofActions (tracedBy true false)).Alike (.ofActions (tracedBy false true)) :=
    Plan.alike_ofActions rfl
  exact ⟨_, _, alike, by decide, by decide, by decide, Plan.tracing_changes_nothing alike 18⟩

end Invalidation
