import Invalidation.Proofs.Run.Sound
import Mathlib.Data.List.TakeWhile

/-! What becomes of a registration. From the moment it is made to the moment its watchpoint is off the
    list again, the jump of the watchpoint is installed as often as there are more calls in progress
    that install it: such a call only ends by taking the watchpoint off the list. Everything else
    follows by counting.

        joined ──── tenure: on the list ────▶ departure
                    installed = in progress     by going on after its jump, or by being dropped

    Without a fire inside a fire of the same watchpoint, that is at most one; and a registration that
    nobody withdraws ends with exactly one. With such a nesting it is one more for each level. -/

namespace Invalidation

/-- How many of the waiting calls install the jump of a watchpoint. -/
def firing (stack : List Waiting) (w : WatchpointId) : Nat :=
  stack.countP fun x => x.pending.patching? = some w

namespace Transition

/-- The jump of the watchpoint is installed from the end of the transition on. -/
def installs (w : WatchpointId) (t : Transition) : Bool := t.jump?.any fun j => j.watchpoint = w

/-- The transition goes on after the jump of the watchpoint has been installed. -/
def Completes (w : WatchpointId) (t : Transition) : Prop :=
  t.action = .patched ∧ t.before.stack.head?.bind (·.pending.patching?) = some w

/-- The creator lets go of the watchpoint. -/
def Drops (w : WatchpointId) (t : Transition) : Prop := t.action = .call (.dropWatchpoint w)

end Transition

/-- The transitions during which the watchpoint stays on the list of the set. -/
def tenure (w : WatchpointId) (s : SetId) (ts : List Transition) : List Transition :=
  ts.takeWhile fun t => w ∈ t.after.world.queue s

/-- The transition that takes the watchpoint off the list of the set. -/
def departure? (w : WatchpointId) (s : SetId) (ts : List Transition) : Option Transition :=
  ts.find? fun t => w ∉ t.after.world.queue s

variable {w : WatchpointId} {s : SetId} {ts : List Transition} {t : Transition} {k m : Moment}

/-! ### Tenure and departure -/

theorem mem_queue_of_mem_tenure (h : t ∈ tenure w s ts) : w ∈ t.after.world.queue s := by
  simpa using List.mem_takeWhile_imp h

theorem mem_of_mem_tenure (h : t ∈ tenure w s ts) : t ∈ ts := (List.takeWhile_sublist _).subset h

theorem tenure_eq_self (h : departure? w s ts = none) : tenure w s ts = ts := by
  rw [tenure, List.takeWhile_eq_self_iff]
  simpa [departure?] using h

theorem split_at_departure (h : departure? w s ts = some t) :
    w ∉ t.after.world.queue s ∧ ∃ rest, ts = tenure w s ts ++ t :: rest := by
  obtain ⟨hout, before, rest, rfl, hin⟩ := List.find?_eq_some_iff_append.mp h
  refine ⟨by simpa using hout, rest, ?_⟩
  have hb : tenure w s (before ++ t :: rest) = before := by
    rw [tenure, List.takeWhile_append_of_pos (by simpa using hin),
      List.takeWhile_cons_of_neg (by simpa using hout), List.append_nil]
  rw [hb]

theorem exists_run_tenure (r : Run k ts m) (w : WatchpointId) (s : SetId) :
    ∃ k', Run k (tenure w s ts) k' := by
  have hs :=
    List.takeWhile_append_dropWhile (p := fun t => decide (w ∈ t.after.world.queue s)) (l := ts)
  rw [← hs] at r
  obtain ⟨k', r, -⟩ := r.split
  exact ⟨k', r⟩

/-! ### Joining and leaving -/

namespace Transition

theorem whole_of_not_panics (h : t.panics = false) : t.isCut = false ∧ t.failing? ≠ some w := by
  obtain ⟨m, a, v, possible⟩ := t
  cases Moment.moves_of_move? possible with
  | failed message top => cases h
  | call | patched | located =>
    refine ⟨?_, by simp [failing?]⟩
    simp only [panics, isCut, Turn.isCut] at h ⊢
    split at h
    · cases h
    · next hn => split <;> simp_all

/-- A registration is a call that has returned. -/
theorem returned_of_join (h : t.change? = some (.join w s)) :
    t.move.turn.next = .returned ∧ t.after.stack = t.before.stack ∧ t.isCut = false := by
  obtain ⟨m, a, v, possible⟩ := t
  cases Moment.moves_of_move? possible with
  | call permitted =>
    rcases World.cases_of_change? h with ⟨hn, -⟩ | ⟨w, -, hc⟩
    · exact ⟨hn, by simp [after, Move.after, hn], by simp [isCut, Turn.isCut, hn]⟩
    · cases hc
  | @patched p loan below top => simp [change?, top, Pending.patching?] at h
  | located | failed => cases h

/-- Who is registered stands in the queue from then on. -/
theorem mem_queue_of_join (h : t.before.Sound) (hc : t.change? = some (.join w s)) :
    w ∈ t.after.world.queue s := by
  rw [queue_of_whole h (returned_of_join hc).2.2, hc]
  simp [Change.on]

theorem join_or_leave {c : Change} (h : t.change? = some c) :
    (∃ w s, c = .join w s) ∨ ∃ w, c = .leave w := by
  obtain ⟨m, a, v, possible⟩ := t
  cases Moment.moves_of_move? possible with
  | call permitted =>
    rcases World.cases_of_change? h with ⟨-, hc⟩ | ⟨w, -, hc⟩
    · exact Or.inl hc
    · exact Or.inr ⟨w, hc⟩
  | @patched p loan below top =>
    refine Or.inr ⟨p.watchpoint, ?_⟩
    simpa [change?, top, Pending.patching?, eq_comm] using h
  | located | failed => cases h

theorem completes_or_drops_of_leave (h : t.change? = some (.leave w)) : t.Completes w ∨ t.Drops w := by
  obtain ⟨m, a, v, possible⟩ := t
  cases Moment.moves_of_move? possible with
  | @call c permitted =>
    rcases World.cases_of_change? h with ⟨-, x, s, hc⟩ | ⟨x, rfl, hc⟩
    · cases hc
    · obtain rfl : w = x := Change.leave.inj hc
      exact Or.inr rfl
  | @patched p loan below top =>
    refine Or.inl ⟨rfl, ?_⟩
    simpa [change?, top, Pending.patching?] using h
  | located | failed => cases h

/-- Who leaves a queue goes on after its jump, or is dropped. -/
theorem completes_or_drops (h : t.before.Sound) (whole : t.isCut = false)
    (hin : w ∈ t.before.world.queue s) (hout : w ∉ t.after.world.queue s) :
    t.Completes w ∨ t.Drops w := by
  rw [queue_of_whole h whole] at hout
  rcases hc : t.change? with _ | c
  · exact absurd hin (by simpa [hc] using hout)
  · rw [hc] at hout
    rcases join_or_leave hc with ⟨x, y, rfl⟩ | ⟨x, rfl⟩
    · refine absurd hin fun hin => hout ?_
      simp only [Option.toList_some, List.foldl_cons, List.foldl_nil, Change.on]
      split
      · exact List.mem_append_left _ hin
      · exact hin
    · by_cases hx : w = x
      · exact completes_or_drops_of_leave (hx ▸ hc)
      · exact absurd ((List.mem_erase_of_ne hx).mpr hin) hout

end Transition

/-! ### Calls in progress -/

namespace Transition

theorem installs_iff : t.installs w = true ↔ ∃ j, t.jump? = some j ∧ j.watchpoint = w := by
  rw [installs]
  cases t.jump? with
  | none => simp
  | some j => simp

theorem change?_of_completes (h : t.Completes w) : t.change? = some (.leave w) := by
  obtain ⟨ha, hw⟩ := h
  rw [change?, ha]
  cases hs : t.before.stack with
  | nil => simp [hs] at hw
  | cons x below =>
    rw [hs] at hw
    simp only [List.head?_cons, Option.bind_some] at hw
    simp [hw]

/-- A call in progress that installs the jump begins with a transition that does. -/
theorem firing_after (h : t.before.Sound) (w : WatchpointId) :
    firing t.after.stack w = firing t.move.below w + if t.installs w then 1 else 0 := by
  rw [installs, jump?, after, Move.after, firing, firing]
  cases hn : t.move.turn.next with
  | returned | failed | panicked => simp
  | waiting r pending =>
    cases pending with
    | locate l => simp [Pending.patching?]
    | patch p =>
      obtain ⟨source, destination, -, rfl⟩ := (does h).own r p hn
      simp [Pending.patching?, List.countP_cons]

/-- A call in progress that installs the jump ends with a transition that goes on after it, or fails
    it. -/
theorem firing_before (going : ¬ t.Completes w) (whole : t.failing? ≠ some w) :
    firing t.before.stack w = firing t.move.below w := by
  obtain ⟨m, a, v, possible⟩ := t
  cases Moment.moves_of_move? possible with
  | call => rfl
  | located answer top => simp [firing, top, Pending.patching?]
  | @patched p loan below top =>
    have hp : p.watchpoint ≠ w := fun e => going ⟨rfl, by simp [top, Pending.patching?, e]⟩
    simp [firing, top, Pending.patching?, hp]
  | @failed pending loan below message top =>
    have hp : pending.patching? ≠ some w := fun e => whole (by simp [failing?, top, e])
    simp [firing, top, hp]

theorem firing_of_completes (h : t.Completes w) : 0 < firing t.before.stack w := by
  obtain ⟨-, hw⟩ := h
  cases hs : t.before.stack with
  | nil => simp [hs] at hw
  | cons x below =>
    rw [hs] at hw
    simp only [List.head?_cons, Option.bind_some] at hw
    simp [firing, hw]

/-- As long as the watchpoint stays on a list, every jump installed is one more call in progress. -/
theorem firing_step (h : t.before.Sound) (listed : w ∈ t.after.world.queue s)
    (whole : t.failing? ≠ some w) :
    firing t.before.stack w = firing t.move.below w ∧
      firing t.after.stack w = firing t.before.stack w + if t.installs w then 1 else 0 := by
  have hb := firing_before (w := w) (fun hc => not_left_of_mem h listed (change?_of_completes hc)) whole
  exact ⟨hb, by rw [firing_after h w, hb]⟩

end Transition

namespace Run

/-- While the watchpoint is on the list, its jump is installed as often as there are more calls in
    progress that install it. -/
theorem firing_eq (r : Run k ts m) (h : k.Sound) (listed : ∀ t ∈ ts, w ∈ t.after.world.queue s)
    (whole : ∀ t ∈ ts, t.failing? ≠ some w) :
    firing m.stack w = firing k.stack w + (ts.filter (·.installs w)).length := by
  induction r with
  | nil => simp
  | @cons k m t ts start rest ih =>
    subst start
    obtain ⟨ht, hts⟩ := List.forall_mem_cons.mp listed
    obtain ⟨hw, hws⟩ := List.forall_mem_cons.mp whole
    rw [ih (Transition.sound h) hts hws, (Transition.firing_step h ht hw).2, List.filter_cons]
    split
    · rw [List.length_cons]
      omega
    · rfl

/-- If no fire of the watchpoint starts inside another one, there is never more than one of them. -/
theorem firing_le {n : Nat} (r : Run k ts m) (h : k.Sound)
    (listed : ∀ t ∈ ts, w ∈ t.after.world.queue s) (whole : ∀ t ∈ ts, t.failing? ≠ some w)
    (single : ∀ t ∈ ts, t.installs w = true → firing t.move.below w = n)
    (start : firing k.stack w ≤ n + 1) : firing m.stack w ≤ n + 1 := by
  induction r with
  | nil => exact start
  | @cons k m t ts start' rest ih =>
    subst start'
    obtain ⟨ht, hts⟩ := List.forall_mem_cons.mp listed
    obtain ⟨hw, hws⟩ := List.forall_mem_cons.mp whole
    obtain ⟨hs, hss⟩ := List.forall_mem_cons.mp single
    refine ih (Transition.sound h) hts hws hss ?_
    obtain ⟨hb, ha⟩ := Transition.firing_step h ht hw
    rw [ha, hb]
    split
    · next hi => rw [hs hi]
    · omega

/-- A registration has at most one jump exactly if no fire of its watchpoint starts inside another one
    that has started since. -/
theorem length_installs_le_one_iff (r : Run k ts m) (h : k.Sound)
    (listed : ∀ t ∈ ts, w ∈ t.after.world.queue s) (whole : ∀ t ∈ ts, t.failing? ≠ some w) :
    (ts.filter (·.installs w)).length ≤ 1 ↔
      ∀ t ∈ ts, t.installs w = true → firing t.move.below w = firing k.stack w := by
  constructor
  · intro hle t ht hi
    obtain ⟨before, rest, rfl⟩ := List.append_of_mem ht
    obtain ⟨k', r₁, r₂⟩ := r.split
    cases r₂ with
    | cons start _ =>
      subst start
      -- whatever was installed before `t` would make `t` the second
      have hnone : (before.filter (·.installs w)).length = 0 := by
        rw [List.filter_append, List.length_append, List.filter_cons_of_pos (by simpa using hi),
          List.length_cons] at hle
        omega
      have hlaw := r₁.firing_eq h (fun u hu => listed u (List.mem_append_left _ hu))
        fun u hu => whole u (List.mem_append_left _ hu)
      rw [hnone] at hlaw
      rw [← (Transition.firing_step (r₁.sound h) (listed t ht) (whole t ht)).1, hlaw, Nat.add_zero]
  · intro single
    have hle := r.firing_le h listed whole single (Nat.le_succ _)
    rw [r.firing_eq h listed whole] at hle
    omega

end Run

end Invalidation
