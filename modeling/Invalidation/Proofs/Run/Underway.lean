import Invalidation.Proofs.Run.Registration
import Invalidation.Proofs.World.Sweeps

/-! A sweep that is under way. While a jump is installed the patcher may call back, and what it does
    there changes the list in the arena in every way a list can change. Beside it stands a queue of who
    waits, which the sweep never reads:

        on the list     a b c ──drop a──▶ b c ──drop b──▶ c ──register d──▶ c d
        served, wait    a|b c             a|b c           a|c               a|c d

    Who is being served is on the list until the jump is installed, unless the patcher drops it; all
    others on the list are those who wait, in their order. That is so before and after each transition
    inside a sweep, and each makes the answers that are due fewer, unless it is a call. -/

namespace Invalidation

/-- Who waits for a sweep, and whom it has served, in this order. -/
structure Fifo where
  waiting : List WatchpointId
  served : List WatchpointId := []
  deriving DecidableEq

namespace Fifo

/-- Serves the first of those who wait. -/
def serve (q : Fifo) : Fifo :=
  match q.waiting with
  | [] => q
  | w :: ws => ⟨ws, q.served ++ [w]⟩

/-- What a transition does to those who wait on a set that is swept: going on after a jump serves the
    next, who is registered stands behind all others, and who is dropped leaves. -/
def after (s : SetId) (q : Fifo) (t : Transition) : Fifo :=
  match t.action with
  | .patched => q.serve
  | _ => { q with waiting := t.change?.toList.foldl (fun ws c => c.on s ws) q.waiting }

theorem after_of_ne {s : SetId} {q : Fifo} {t : Transition} (h : t.action ≠ .patched) :
    q.after s t = { q with waiting := t.change?.toList.foldl (fun ws c => c.on s ws) q.waiting } := by
  rw [after]
  split
  · next h' => exact absurd h' h
  · rfl

theorem count_serve (q : Fifo) (w : WatchpointId) :
    q.serve.served.count w + q.serve.waiting.count w = q.served.count w + q.waiting.count w := by
  rw [serve]
  split
  · rfl
  · next v ws h =>
    rw [h, List.count_append, ← List.singleton_append (l := ws), List.count_append, Nat.add_assoc]

/-- Nobody is served who has not come to wait, and nobody waits any more who is served. -/
theorem count_after_le (s : SetId) (q : Fifo) (t : Transition) (w : WatchpointId) :
    (q.after s t).served.count w + (q.after s t).waiting.count w ≤
      q.served.count w + q.waiting.count w + if t.change? = some (.join w s) then 1 else 0 := by
  by_cases ha : t.action = .patched
  · rw [after]
    simp only [ha]
    rw [count_serve]
    exact Nat.le_add_right _ _
  · rw [after_of_ne ha, Nat.add_assoc]
    refine Nat.add_le_add_left ?_ _
    rcases t.change? with _ | c
    · exact Nat.le_add_right _ _
    · simpa using c.count_on_le s q.waiting w

end Fifo

namespace Pending

/-- How many answers the call waits for at most, a sweep not counted beyond its present jump. -/
def answers : Pending → Nat
  | .patch _ => 1
  | .locate l => if l.source.isNone then 2 else 1

end Pending

/-- How many answers calls that wait are due at most. -/
def answersDue : List Waiting → Nat
  | [] => 0
  | x :: below => x.pending.answers + answersDue below

theorem answersDue_le_append (inner below : List Waiting) :
    answersDue below ≤ answersDue (inner ++ below) := by
  induction inner with
  | nil => exact Nat.le_refl _
  | cons x inner ih => exact ih.trans (Nat.le_add_left _ _)

/-- How many answers are due at most if nobody makes a call, for a sweep and all calls that wait. -/
def effort (m : Moment) (q : Fifo) : Nat := q.waiting.length + answersDue m.stack

/-- What a sweep leaves behind when it comes to its end: the set, the set with its assumption broken, or
    no set. -/
def Ending.Reached (σ : World) (s : SetId) : Ending → Prop
  | .rest => σ.Exists s
  | .invalidate => σ.Exists s ∧ σ.flagsOf s = .broken
  | .destroy => ¬ σ.Exists s

/-- A sweep of the set is under way, above the calls `below`: the jump of a watchpoint is being
    installed, or somebody is looking labels up from inside. -/
structure Underway (below : List Waiting) (s : SetId) (ending : Ending) (m : Moment) (q : Fifo)
    (inner : List Waiting) (w : WatchpointId) (n : Nat) (loan : Loan) : Prop where
  stack : m.stack = inner ++ ⟨.patch ⟨w, some ⟨s, n, ending⟩⟩, loan⟩ :: below
  locating : ∀ x ∈ inner, x.pending.patching? = none
  /-- Who waits is on the list, behind the one that is being served. -/
  waiting : (m.world.queue s).erase w = q.waiting
  /-- The one that is being served is on the list, unless it has been dropped. -/
  current : w ∈ m.world.queue s ∨ m.world.Dropped w
  served : q.served.length = n + 1
  there : m.world.Exists s

/-- With this transition a sweep of the set comes to its end. -/
structure Finished (below : List Waiting) (s : SetId) (ending : Ending) (t : Transition) (q : Fifo) :
    Prop where
  returned : t.move.turn.next = .returned
  stack : t.after.stack = below
  waiting : q.waiting = []
  drained : t.after.world.queue s = []
  /-- The sweep reports how many it has served, unless there was nobody. -/
  report : ∀ n, LogEvent.sweepFinished n ∈ t.move.turn.events ↔ n = q.served.length ∧ 0 < n
  ended : ending.Reached t.after.world s

variable {below : List Waiting} {s : SetId} {ending : Ending} {w : WatchpointId} {q : Fifo}
  {t : Transition}

/-! ### Serving the next -/

namespace World

variable {σ τ : World}

theorem reached_finish (there : σ.Exists s) : ending.Reached (σ.finish s ending) s := by
  obtain ⟨x, hx⟩ := there
  cases ending with
  | rest => exact ⟨x, hx⟩
  | invalidate =>
    refine ⟨exists_modifySet ⟨x, hx⟩, ?_⟩
    simp [finish, modifyFlags, modifySet, flagsOf, Store.get?_modify, hx]
  | destroy => simp [Ending.Reached, finish, Exists]

theorem queue_finish (drained : σ.queue s = []) : (σ.finish s ending).queue s = [] := by
  cases ending with
  | rest => exact drained
  | invalidate => rw [← drained]; exact queue_congr (list?_modifyFlags σ s s _)
  | destroy => rw [finish, queue_erase, if_pos rfl]

end World

/-- A sweep that goes on serves the first of those who wait, or comes to its end. -/
theorem serve_next {σ : World} (n : Nat) (events : List LogEvent) (hσ : σ.Coherent)
    (there : σ.Exists s) (turn : t.move.turn = (σ.sweepOn ⟨s, n, ending⟩).after events)
    (silent : ∀ k, LogEvent.sweepFinished k ∉ events) (hbelow : t.move.below = below)
    (hq : σ.queue s = q.waiting) (hn : q.served.length = n)
    (resolved : ∀ w ∈ q.waiting.head?, σ.Resolved w) :
    q.serve.served = q.served ++ (t.jump?.map Jump.watchpoint).toList ∧
      effort t.after q.serve = q.waiting.length + answersDue below ∧
      ((∃ w, Underway below s ending t.after q.serve [] w n t.move.loan) ∨
        Finished below s ending t q.serve) := by
  have hfront := hσ.front?_eq s
  rw [hq] at hfront
  cases hw : q.waiting with
  | nil =>
    rw [hw] at hfront hq
    rw [World.sweepOn_of_drained hfront] at turn
    have hserve : q.serve = q := by rw [Fifo.serve, hw]
    have hnext : t.move.turn.next = .returned := by rw [turn]; rfl
    have hworld : t.after.world = σ.finish s ending := by
      rw [Transition.after, Move.after, turn]; rfl
    have hstack : t.after.stack = below := by
      rw [Transition.after, Move.after, hnext, hbelow]
    have hjump : t.jump? = none := by rw [Transition.jump?, hnext]
    rw [hserve, hjump]
    refine ⟨by simp, by rw [effort, hstack, hw], Or.inr ⟨hnext, hstack, hw, ?_, fun k => ?_, ?_⟩⟩
    · rw [hworld]
      exact World.queue_finish hq
    · rw [turn, hn]
      show LogEvent.sweepFinished k ∈ events ++ ((if n > 0 then [.sweepFinished n] else []) ++ []) ↔ _
      rw [List.append_nil, List.mem_append, or_iff_right (silent k)]
      split
      · simp; omega
      · simp; omega
    · rw [hworld]
      exact World.reached_finish there
  | cons w ws =>
    rw [hw] at hfront hq
    have hfire : σ.sweepOn ⟨s, n, ending⟩ = σ.fire w (some ⟨s, n, ending⟩) :=
      World.sweepOn_of_front hfront
    obtain ⟨source, destination, ha⟩ := (resolved w (by rw [hw]; rfl)).addresses
    rw [hfire, World.fire_of_resolved ha] at turn
    have hserve : q.serve = ⟨ws, q.served ++ [w]⟩ := by rw [Fifo.serve, hw]
    have hnext : t.move.turn.next = .waiting (.patch (σ.contextOf w).patcher source destination)
        (.patch ⟨w, some ⟨s, n, ending⟩⟩) := by rw [turn]; rfl
    have hworld : t.after.world = σ := by rw [Transition.after, Move.after, turn]; rfl
    have hstack : t.after.stack = ⟨.patch ⟨w, some ⟨s, n, ending⟩⟩, t.move.loan⟩ :: below := by
      rw [Transition.after, Move.after, hnext, hbelow]
    have hjump : t.jump? = some ⟨w, (σ.contextOf w).patcher, source, destination⟩ := by
      rw [Transition.jump?, hnext]
    rw [hserve, hjump]
    refine ⟨rfl, ?_, Or.inl ⟨w, hstack, fun _ hx => absurd hx List.not_mem_nil, ?_, Or.inl ?_, ?_, ?_⟩⟩
    · rw [effort, hstack, answersDue, List.length_cons, Pending.answers, Nat.add_assoc]
    · rw [hworld, hq, List.erase_cons_head]
    · rw [hworld, hq]
      exact List.mem_cons_self
    · rw [List.length_append, hn]
      rfl
    · rw [hworld]
      exact there

/-! ### What happens inside -/

namespace World

variable {σ τ : World} {c : Option Change}

/-- Nobody who has been dropped joins a list. -/
theorem Coherent.not_dropped_of_mem (h : σ.Coherent) (hw : w ∈ σ.queue s) : ¬ σ.Dropped w := by
  rintro ⟨m, hm⟩
  obtain ⟨k, hk⟩ := h.tie?_of_mem hw
  rw [hm] at hk
  cases hk

/-- Those who wait see the same changes as the list that they are on, though somebody is on it before
    them who is being served. -/
theorem Coherent.erase_queue (h : σ.Coherent) (e : Edits σ c.toList τ)
    (kind : ∀ x, c = some x → (∃ v t, x = .join v t) ∨ ∃ v, x = .leave v)
    (current : w ∈ σ.queue s ∨ σ.Dropped w) :
    (τ.queue s).erase w = c.toList.foldl (fun ws c => c.on s ws) ((σ.queue s).erase w) := by
  have hq := h.queue_edits e s
  cases c with
  | none => rw [hq]; rfl
  | some x =>
    rcases kind x rfl with ⟨v, t, rfl⟩ | ⟨v, rfl⟩
    · simp only [Option.toList_some, List.foldl_cons, List.foldl_nil, Change.on] at hq ⊢
      rw [hq]
      split
      · next ht =>
        rcases current with hin | hdrop
        · rw [List.erase_append_left _ hin]
        · have hv : v ≠ w := by
            rintro rfl
            refine (h.edits e).not_dropped_of_mem (s := s) ?_ (e.dropped hdrop)
            rw [hq, if_pos ht]
            simp
          have hw : w ∉ σ.queue s := fun hin => h.not_dropped_of_mem hin hdrop
          rw [List.erase_append_right _ hw, List.erase_of_not_mem hw, List.erase_of_not_mem]
          simpa using hv.symm
      · rfl
    · simp only [Option.toList_some, List.foldl_cons, List.foldl_nil, Change.on] at hq ⊢
      rw [hq, List.erase_comm]

theorem dropped_of_dropWatchpoint (held : (σ.watchpoint w).held = true) :
    (σ.dropWatchpoint w).world.Dropped w := by
  refine ⟨none, ?_⟩
  show World.tie? (World.modifyWatchpoint _ w _) w = _
  rw [tie?_letGo (membership_unlink σ w), if_pos rfl, tie?_unlink, if_pos rfl, tie?,
    known_of_held held]
  rfl

end World

namespace Next

/-- How many answers are due because of the end of a turn. -/
def due : Next → Nat
  | .waiting _ p => p.answers
  | _ => 0

end Next

theorem effort_after (t : Transition) (q : Fifo) :
    effort t.after q = q.waiting.length + t.move.turn.next.due +
      answersDue t.move.below := by
  rw [effort, Transition.after, Move.after]
  cases hn : t.move.turn.next with
  | waiting r p => simp [Next.due, answersDue, Nat.add_assoc]
  | returned | failed | panicked => simp [Next.due]

theorem one_le_answers (p : Pending) : 1 ≤ p.answers := by
  cases p with
  | patch p => exact Nat.le_refl 1
  | locate l =>
    rw [Pending.answers]
    split <;> omega

/-- Each answer brings the call that it is for closer to its end. -/
theorem due_located (σ : World) (l : Locating) (answer : Except LinkFailure Address) :
    (σ.located l answer).next.due + 1 ≤ (Pending.locate l).answers := by
  unfold World.located
  split
  · exact one_le_answers _
  · next h => simp [Next.due, Pending.answers, h]
  · split <;> exact one_le_answers _

namespace Transition

/-- The call that the surroundings make. -/
def call? (t : Transition) : Option Call :=
  match t.action with
  | .call c => some c
  | _ => none

/-- Whose turn it is in a sweep of the set that goes on with this transition: the first on the list,
    once the watchpoint that has been served is off it. -/
def next? (s : SetId) (t : Transition) : Option WatchpointId :=
  match t.action with
  | .patched => (t.change?.toList.foldl (fun ws c => c.on s ws) (t.before.world.queue s)).head?
  | _ => none

/-- A turn that settles leaves behind at most a call that looks a label up. -/
theorem stack_of_still (still : ∀ r p, t.move.turn.next ≠ .waiting r (.patch p)) :
    t.jump? = none ∧ t.move.turn.next.due ≤ 2 ∧
      ∃ more, t.after.stack = more ++ t.move.below ∧ ∀ x ∈ more, x.pending.patching? = none := by
  rw [jump?, after, Move.after]
  cases hn : t.move.turn.next with
  | returned | failed | panicked =>
    exact ⟨rfl, Nat.zero_le 2, [], rfl, fun _ hx => absurd hx List.not_mem_nil⟩
  | waiting r pending =>
    cases pending with
    | patch p => exact absurd hn (still r p)
    | locate l =>
      refine ⟨by simp, ?_, [⟨.locate l, t.move.loan⟩], rfl, ?_⟩
      · simp only [Next.due, Pending.answers]
        split <;> omega
      · simp [Pending.patching?]

end Transition

namespace Underway

variable {inner : List Waiting} {n : Nat} {loan : Loan}

/-- Whatever happens inside a jump, the sweep stays under way as long as it is nobody's turn. -/
theorem inside {inner' : List Waiting} (u : Underway below s ending t.before q inner w n loan)
    (h : t.before.Sound) (e : World.Edits t.before.world t.change?.toList t.after.world)
    (hstack : t.after.stack = inner' ++ ⟨.patch ⟨w, some ⟨s, n, ending⟩⟩, loan⟩ :: below)
    (locating : ∀ x ∈ inner', x.pending.patching? = none)
    (drops : t.change? = some (.leave w) → t.after.world.Dropped w) :
    Underway below s ending t.after
      { q with waiting := t.change?.toList.foldl (fun ws c => c.on s ws) q.waiting }
      inner' w n loan where
  stack := hstack
  locating := locating
  waiting := by
    rw [h.coherent.erase_queue e (fun x hx => Transition.join_or_leave hx) u.current, u.waiting]
  current := by
    rcases u.current with hin | hdrop
    · by_cases hl : t.change? = some (.leave w)
      · exact Or.inr (drops hl)
      · refine Or.inl ?_
        rw [h.coherent.queue_edits e s]
        rcases hc : t.change? with _ | c
        · exact hin
        · rcases Transition.join_or_leave hc with ⟨v, x, rfl⟩ | ⟨v, rfl⟩
          · simp only [Option.toList_some, List.foldl_cons, List.foldl_nil, Change.on]
            split
            · exact List.mem_append_left _ hin
            · exact hin
          · have hv : w ≠ v := fun he => hl (he ▸ hc)
            exact (List.mem_erase_of_ne hv).mpr hin
    · exact Or.inr (e.dropped hdrop)
  served := u.served
  there := by
    refine e.exists u.there fun c hc => ?_
    rcases Transition.join_or_leave (Option.mem_toList.mp hc) with ⟨v, x, rfl⟩ | ⟨v, rfl⟩ <;> exact id

/-- A turn that settles inside a jump leaves the sweep under way. -/
theorem step_of_still {inner' : List Waiting}
    (u : Underway below s ending t.before q inner w n loan) (h : t.before.Sound)
    (notServing : t.action ≠ .patched) (still : ∀ r p, t.move.turn.next ≠ .waiting r (.patch p))
    (e : World.Edits t.before.world t.change?.toList t.after.world)
    (hbelow : t.move.below = inner' ++ ⟨.patch ⟨w, some ⟨s, n, ending⟩⟩, loan⟩ :: below)
    (locating : ∀ x ∈ inner', x.pending.patching? = none)
    (drops : t.change? = some (.leave w) → t.after.world.Dropped w) :
    (q.after s t).served = q.served ++ (t.jump?.map Jump.watchpoint).toList ∧
      ∃ inner w n loan, Underway below s ending t.after (q.after s t) inner w n loan := by
  obtain ⟨hjump, -, more, hstack, hmore⟩ := Transition.stack_of_still still
  rw [Fifo.after_of_ne notServing, hjump]
  rw [hbelow, ← List.append_assoc] at hstack
  refine ⟨by simp, more ++ inner', w, n, loan, u.inside h e hstack (fun x hx => ?_) drops⟩
  exact (List.mem_append.mp hx).elim (hmore x) (locating x)

/-- While a jump is being installed, the innermost call either is the sweep itself or looks a label
    up. -/
theorem top_cases (u : Underway below s ending t.before q inner w n loan) {x : Waiting}
    {rest : List Waiting} (top : t.before.stack = x :: rest) :
    (inner = [] ∧ x = ⟨.patch ⟨w, some ⟨s, n, ending⟩⟩, loan⟩ ∧ rest = below) ∨
      ∃ inner', inner = x :: inner' ∧
        rest = inner' ++ ⟨.patch ⟨w, some ⟨s, n, ending⟩⟩, loan⟩ :: below ∧
        x.pending.patching? = none ∧ ∀ y ∈ inner', y.pending.patching? = none := by
  have hstack := u.stack
  rw [top] at hstack
  cases inner with
  | nil =>
    rw [List.nil_append, List.cons.injEq] at hstack
    exact Or.inl ⟨rfl, hstack.1, hstack.2⟩
  | cons y inner' =>
    rw [List.cons_append, List.cons.injEq] at hstack
    obtain ⟨rfl, rfl⟩ := hstack
    obtain ⟨hy, hin⟩ := List.forall_mem_cons.mp u.locating
    exact Or.inr ⟨inner', rfl, rfl, hy, hin⟩

theorem step_call {c : Call} (u : Underway below s ending t.before q inner w n loan)
    (h : t.before.Sound) (action : t.action = .call c) (quiet : c.isQuiet = true) :
    (q.after s t).served = q.served ++ (t.jump?.map Jump.watchpoint).toList ∧
      effort t.after (q.after s t) ≤ effort t.before q + 3 ∧
      ∃ inner w n loan, Underway below s ending t.after (q.after s t) inner w n loan := by
  obtain ⟨m, a, v, possible⟩ := t
  obtain rfl : a = .call c := action
  cases Moment.moves_of_move? possible with
  | call permitted =>
    have hallowed := (Bool.and_eq_true_iff.mp permitted).1
    have hs := World.settles_begin quiet hallowed
    have hstep := u.step_of_still h (by simp) hs.still hs.edits u.stack u.locating fun hc => ?_
    · refine ⟨hstep.1, ?_, hstep.2⟩
      have hlen : ((m.world.change? c).toList.foldl (fun ws c => c.on s ws) q.waiting).length ≤
          q.waiting.length + 1 := by
        cases m.world.change? c with
        | none => exact Nat.le_succ _
        | some x => exact x.length_on_le s q.waiting
      have hdue := (Transition.stack_of_still (t := ⟨m, .call c, _, possible⟩) hs.still).2.1
      rw [effort_after, Fifo.after_of_ne (by simp), effort]
      simp only [Transition.change?] at hdue ⊢
      omega
    · rcases World.cases_of_change? hc with ⟨-, _, _, hj⟩ | ⟨x, rfl, hx⟩
      · cases hj
      · obtain rfl : w = x := Change.leave.inj hx
        exact World.dropped_of_dropWatchpoint hallowed

theorem step_located {answer : Except LinkFailure Address}
    (u : Underway below s ending t.before q inner w n loan) (h : t.before.Sound)
    (action : t.action = .located answer) :
    (q.after s t).served = q.served ++ (t.jump?.map Jump.watchpoint).toList ∧
      effort t.after (q.after s t) + 1 ≤ effort t.before q ∧
      ∃ inner w n loan, Underway below s ending t.after (q.after s t) inner w n loan := by
  obtain ⟨m, a, v, possible⟩ := t
  obtain rfl : a = .located answer := action
  cases Moment.moves_of_move? possible with
  | @located l loan' below' _ top =>
    rcases u.top_cases top with ⟨-, hx, -⟩ | ⟨inner', -, hrest, -, hin⟩
    · cases hx
    · have hs := World.settles_located (σ := m.world) l answer
      have hstep :=
        u.step_of_still h (by simp) hs.still hs.edits hrest hin (by simp [Transition.change?])
      refine ⟨hstep.1, ?_, hstep.2⟩
      have hdue := due_located m.world l answer
      rw [effort_after, Fifo.after_of_ne (by simp), effort]
      simp only [Transition.change?, top, answersDue, Option.toList_none, List.foldl_nil]
      omega

theorem step_failed {message : String} (u : Underway below s ending t.before q inner w n loan)
    (h : t.before.Sound) (action : t.action = .failed message) (installed : t.failing? = none) :
    (q.after s t).served = q.served ++ (t.jump?.map Jump.watchpoint).toList ∧
      effort t.after (q.after s t) + 1 ≤ effort t.before q ∧
      ∃ inner w n loan, Underway below s ending t.after (q.after s t) inner w n loan := by
  obtain ⟨m, a, v, possible⟩ := t
  obtain rfl : a = .failed message := action
  cases Moment.moves_of_move? possible with
  | @failed pending loan' below' _ top =>
    have hp : pending.patching? = none := by simpa [Transition.failing?, top] using installed
    rcases u.top_cases top with ⟨-, hx, -⟩ | ⟨inner', -, hrest, -, hin⟩
    · obtain rfl : pending = _ := congrArg Waiting.pending hx
      cases hp
    · cases pending with
      | patch p => cases hp
      | locate l =>
        have hstep := u.step_of_still h (by simp) (fun _ _ => Next.noConfusion) (.refl _) hrest hin
          (by simp [Transition.change?])
        refine ⟨hstep.1, ?_, hstep.2⟩
        have hdue := one_le_answers (.locate l)
        rw [effort_after, Fifo.after_of_ne (by simp), effort]
        simp only [Transition.change?, top, answersDue, Option.toList_none, List.foldl_nil,
          World.panic, Next.due]
        omega

theorem step_patched (u : Underway below s ending t.before q inner w n loan) (h : t.before.Sound)
    (action : t.action = .patched)
    (resolved : ∀ v ∈ t.next? s, t.before.world.Resolved v) :
    (q.after s t).served = q.served ++ (t.jump?.map Jump.watchpoint).toList ∧
      effort t.after (q.after s t) + 1 ≤ effort t.before q ∧
      ((∃ inner w n loan, Underway below s ending t.after (q.after s t) inner w n loan) ∨
        Finished below s ending t (q.after s t)) := by
  obtain ⟨m, a, v, possible⟩ := t
  obtain rfl : a = .patched := action
  cases Moment.moves_of_move? possible with
  | @patched p loan' below' top =>
    rcases u.top_cases top with ⟨-, hx, rfl⟩ | ⟨-, -, -, hp, -⟩
    · obtain rfl : p = _ := Pending.patch.inj (congrArg Waiting.pending hx)
      have e := World.edits_fired m.world w
      have hq := h.coherent.queue_edits e s
      have hnext := serve_next (t := ⟨m, .patched, _, possible⟩) (n + 1) [] (h.coherent.edits e)
        (e.exists u.there (by simp [Change.IsEnd])) rfl (by simp) rfl (hq.trans u.waiting) u.served
        fun v hv => e.resolved (resolved v ?_)
      · refine ⟨hnext.1, ?_, hnext.2.2.imp (fun ⟨w, hu⟩ => ⟨[], w, n + 1, _, hu⟩) id⟩
        rw [show q.after s _ = q.serve from rfl, hnext.2.1, effort]
        simp only [top, answersDue, Pending.answers]
        omega
      · rw [← u.waiting] at hv
        simpa [Transition.next?, Transition.change?, top, Pending.patching?, Change.on] using hv
    · cases hp

/-- One step of a sweep under way: it goes on, or this is its end; the jumps asked for are those of the
    watchpoints served, and only calls add to the answers that are due. -/
theorem step (u : Underway below s ending t.before q inner w n loan) (h : t.before.Sound)
    (quiet : ∀ c ∈ t.call?, c.isQuiet = true) (installed : t.failing? = none)
    (resolved : ∀ v ∈ t.next? s, t.before.world.Resolved v) :
    (q.after s t).served = q.served ++ (t.jump?.map Jump.watchpoint).toList ∧
      effort t.after (q.after s t) + 1 ≤ effort t.before q + (if t.call?.isSome then 4 else 0) ∧
      ((∃ inner w n loan, Underway below s ending t.after (q.after s t) inner w n loan) ∨
        Finished below s ending t (q.after s t)) := by
  cases ha : t.action with
  | call c =>
    have hcall : t.call? = some c := by rw [Transition.call?, ha]
    obtain ⟨hs, he, hu⟩ := u.step_call h ha (quiet c hcall)
    refine ⟨hs, ?_, Or.inl hu⟩
    rw [hcall, Option.isSome_some, if_pos rfl]
    omega
  | located answer =>
    obtain ⟨hs, he, hu⟩ := u.step_located h ha
    exact ⟨hs, by omega, Or.inl hu⟩
  | failed message =>
    obtain ⟨hs, he, hu⟩ := u.step_failed h ha installed
    exact ⟨hs, by omega, Or.inl hu⟩
  | patched =>
    obtain ⟨hs, he, hu⟩ := u.step_patched h ha resolved
    exact ⟨hs, by omega, hu⟩

end Underway

end Invalidation
