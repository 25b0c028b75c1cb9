import Invalidation.Proofs.Run.Underway

/-! A whole sweep, from the call that starts it to its end. It serves its watchpoints as a queue would,
    whatever calls come from inside, as long as none of them fires or sweeps:

        start ──▶ [a, b, c]     serve a        register d ──▶ d behind all others
                  [b, c, d]     serve b        drop c     ──▶ c is not served
                  [d]           serve d
                  []            the end

    It comes to its end unless calls from inside go on for ever. -/

namespace Invalidation

variable {below : List Waiting} {s : SetId} {ending : Ending} {w : WatchpointId} {q : Fifo}
  {t : Transition}

/-- The queue that a sweep serves, started by one transition and with others inside it since. -/
def Fifo.during (s : SetId) (start : Transition) (inside : List Transition) : Fifo :=
  inside.foldl (Fifo.after s) (Fifo.serve ⟨start.before.world.queue s, []⟩)

/-- The jumps that transitions ask for, in their order. -/
def jumps (ts : List Transition) : List Jump := ts.filterMap Transition.jump?

theorem jumps_cons (t : Transition) (ts : List Transition) :
    jumps (t :: ts) = t.jump?.toList ++ jumps ts := by
  rw [jumps, List.filterMap_cons]
  cases t.jump? <;> rfl

theorem map_jumps_cons {α : Type} (f : Jump → α) (t : Transition) (ts : List Transition) :
    (jumps (t :: ts)).map f = (t.jump?.map f).toList ++ (jumps ts).map f := by
  rw [jumps_cons, List.map_append, Option.toList_map]

/-- Whoever is served was on the list at the start, or has been registered since. -/
theorem Fifo.count_foldl_le (s : SetId) (q : Fifo) (inside : List Transition) (w : WatchpointId) :
    (inside.foldl (after s) q).served.count w ≤
      q.served.count w + q.waiting.count w + inside.countP (·.change? = some (.join w s)) := by
  induction inside generalizing q with
  | nil => exact Nat.le_add_right _ _
  | cons t ts ih =>
    have ht := count_after_le s q t w
    have hts := ih (q.after s t)
    rw [List.foldl_cons, List.countP_cons]
    simp only [decide_eq_true_eq]
    omega

theorem Fifo.count_during_le (s : SetId) (start : Transition) (inside : List Transition)
    (w : WatchpointId) : (during s start inside).served.count w ≤
      (start.before.world.queue s).count w + inside.countP (·.change? = some (.join w s)) := by
  refine (count_foldl_le s _ inside w).trans_eq ?_
  rw [count_serve, List.count_nil, Nat.zero_add]

/-- A call that sweeps serves the first on the list, or comes to its end at once. -/
theorem serve_first {c : Call} (h : t.before.Sound) (action : t.action = .call c)
    (sweeps : t.before.world.Sweeps c s ending)
    (first : ∀ w ∈ (t.before.world.queue s).head?, t.before.world.Resolved w) :
    (Fifo.during s t []).served = (t.jump?.map Jump.watchpoint).toList ∧
      effort t.after (Fifo.during s t []) =
        (t.before.world.queue s).length + answersDue t.before.stack ∧
      ((∃ inner w n loan,
          Underway t.before.stack s ending t.after (Fifo.during s t []) inner w n loan) ∨
        Finished t.before.stack s ending t (Fifo.during s t [])) := by
  obtain ⟨m, a, v, possible⟩ := t
  obtain rfl : a = .call c := action
  cases Moment.moves_of_move? possible with
  | call =>
    obtain ⟨τ, events, e, -, silent, hbegin⟩ := sweeps.begin
    have there := World.exists_iff_list?.mpr (h.coherent.alive s sweeps.owned)
    obtain ⟨hserved, heffort, hu⟩ := serve_next (t := ⟨m, .call c, _, possible⟩)
      (q := ⟨m.world.queue s, []⟩) 0 events (h.coherent.edits e)
      (e.exists there fun _ hc => absurd hc List.not_mem_nil) hbegin silent rfl
      (h.coherent.queue_edits e s) rfl fun w hw => e.resolved (first w hw)
    exact ⟨hserved, heffort, hu.imp (fun ⟨w, hw⟩ => ⟨[], w, 0, _, hw⟩) id⟩

/-- A sweep stays under way, whatever happens inside it, until a transition ends it. -/
theorem Underway.run {k m : Moment} {inside : List Transition} {inner : List Waiting} {n : Nat}
    {loan : Loan} (r : Run k inside m) (hk : k.Sound)
    (u : Underway below s ending k q inner w n loan)
    (lasting : ∀ t ∈ inside, t.before.stack ≠ below)
    (quiet : ∀ t ∈ inside, ∀ c ∈ t.call?, c.isQuiet = true)
    (installed : ∀ t ∈ inside, t.failing? = none)
    (resolved : ∀ t ∈ inside, ∀ v ∈ t.next? s, t.before.world.Resolved v) :
    (inside.foldl (Fifo.after s) q).served = q.served ++ (jumps inside).map Jump.watchpoint ∧
      effort m (inside.foldl (Fifo.after s) q) + inside.length ≤
        effort k q + 4 * inside.countP (·.call?.isSome) ∧
      ((∃ inner w n loan,
          Underway below s ending m (inside.foldl (Fifo.after s) q) inner w n loan) ∨
        ∃ t, inside.getLast? = some t ∧
          Finished below s ending t (inside.foldl (Fifo.after s) q)) := by
  induction r generalizing q inner w n loan with
  | nil => exact ⟨by simp [jumps], by simp, Or.inl ⟨inner, w, n, loan, u⟩⟩
  | @cons k m t ts start rest ih =>
    subst start
    rw [List.forall_mem_cons] at lasting quiet installed resolved
    obtain ⟨hserved, heffort, hgo⟩ := u.step hk quiet.1 installed.1 resolved.1
    have hcalls : 4 * (t :: ts).countP (·.call?.isSome) =
        (if t.call?.isSome then 4 else 0) + 4 * ts.countP (·.call?.isSome) := by
      rw [List.countP_cons]
      split <;> omega
    rw [map_jumps_cons, ← List.append_assoc, ← hserved, hcalls]
    rcases hgo with ⟨inner, w, n, loan, hu⟩ | hf
    · obtain ⟨hs, he, hend⟩ := ih (Transition.sound hk) hu lasting.2 quiet.2 installed.2 resolved.2
      refine ⟨hs, ?_, hend.imp id fun ⟨x, hx, hf⟩ => ⟨x, by rw [List.getLast?_cons, hx]; rfl, hf⟩⟩
      rw [List.foldl_cons, List.length_cons]
      omega
    · obtain ⟨rfl, rfl⟩ := rest.eq_nil_of_over hf.stack lasting.2
      exact ⟨(List.append_nil _).symm, by simpa using heffort, Or.inr ⟨t, rfl, hf⟩⟩

/-- Whoever waits innermost can be given an answer. -/
theorem Moment.answerable {m : Moment} (h : m.stack ≠ []) :
    ∃ a v, (∀ c, a ≠ .call c) ∧ m.move? a = some v := by
  obtain ⟨⟨pending, loan⟩, rest, top⟩ := List.exists_cons_of_ne_nil h
  cases pending with
  | patch p =>
    refine ⟨.patched, ⟨m.world.patched p, loan, rest⟩, fun _ => Action.noConfusion, ?_⟩
    simp only [move?, top]
  | locate l =>
    refine ⟨.located (.ok default), ⟨m.world.located l (.ok default), loan, rest⟩,
      fun _ => Action.noConfusion, ?_⟩
    simp only [move?, top]

theorem Run.eq_after {k m : Moment} {ts : List Transition} (r : Run k ts m)
    (h : ts.getLast? = some t) : m = t.after := by
  induction r with
  | nil => cases h
  | @cons k m u ts start rest ih =>
    cases rest with
    | nil => exact Option.some.inj h ▸ rfl
    | cons => exact ih h

/-- What is true of a sweep that one transition has started, with others inside it since: it serves
    those who wait in their order. -/
structure ServesInOrder (s : SetId) (ending : Ending) (start : Transition) (inside : List Transition)
    (m : Moment) : Prop where
  /-- The jumps asked for are those of the watchpoints served, and no others. -/
  jumps : (jumps (start :: inside)).map Jump.watchpoint = (Fifo.during s start inside).served
  /-- Who was on the list at the start is served once at most, and once more for each registration. -/
  once : ∀ w, (Fifo.during s start inside).served.count w ≤
    (if w ∈ start.before.world.queue s then 1 else 0) +
      inside.countP (·.change? = some (.join w s))
  /-- Each jump is between the addresses of its watchpoint, and for its own patcher. -/
  own : ∀ t ∈ start :: inside, ∀ j, t.jump? = some j →
    (t.after.world.watchpoint j.watchpoint).addresses? = some (j.source, j.destination) ∧
      (t.after.world.contextOf j.watchpoint).patcher = j.patcher
  /-- It cannot go on for ever, unless somebody makes calls for ever. -/
  bounded : inside.length ≤
    (start.before.world.queue s).length + 4 * inside.countP (·.call?.isSome)
  /-- It cannot be stuck: until it returns, some answer is possible. -/
  goesOn : m.stack ≠ start.before.stack → ∃ a v, (∀ c, a ≠ .call c) ∧ m.move? a = some v
  ends : m.stack = start.before.stack → ∃ t, (start :: inside).getLast? = some t ∧
    Finished start.before.stack s ending t (Fifo.during s start inside)

namespace Run

variable {pre inside : List Transition} {start : Transition} {k m : Moment} {c : Call}

/-- A sweep from the call that starts it: it is under way, or the last transition was its end. -/
theorem underway_or_finished (r : Run k (start :: inside) m) (hk : k.Sound)
    (action : start.action = .call c) (sweeps : start.before.world.Sweeps c s ending)
    (lasting : ∀ t ∈ inside, t.before.stack ≠ start.before.stack)
    (quiet : ∀ t ∈ inside, ∀ c ∈ t.call?, c.isQuiet = true)
    (installed : ∀ t ∈ inside, t.failing? = none)
    (first : ∀ w ∈ (start.before.world.queue s).head?, start.before.world.Resolved w)
    (resolved : ∀ t ∈ inside, ∀ v ∈ t.next? s, t.before.world.Resolved v) :
    (Fifo.during s start inside).served = (jumps (start :: inside)).map Jump.watchpoint ∧
      effort m (Fifo.during s start inside) + inside.length ≤
        (start.before.world.queue s).length +
          answersDue start.before.stack + 4 * inside.countP (·.call?.isSome) ∧
      ((∃ inner w n loan,
          Underway start.before.stack s ending m (Fifo.during s start inside) inner w n loan) ∨
        ∃ t, (start :: inside).getLast? = some t ∧
          Finished start.before.stack s ending t (Fifo.during s start inside)) := by
  cases r with
  | cons hstart r =>
    subst hstart
    obtain ⟨hserved, heffort, hgo⟩ := serve_first hk action sweeps first
    rw [map_jumps_cons, ← hserved, ← heffort]
    rcases hgo with ⟨inner, w, n, loan, hu⟩ | hf
    · obtain ⟨hs, he, hend⟩ := hu.run r (Transition.sound hk) lasting quiet installed resolved
      exact ⟨hs, he, hend.imp id fun ⟨x, hx, hf⟩ => ⟨x, by rw [List.getLast?_cons, hx]; rfl, hf⟩⟩
    · obtain ⟨rfl, rfl⟩ := r.eq_nil_of_over hf.stack lasting
      exact ⟨(List.append_nil _).symm, by simp, Or.inr ⟨start, rfl, hf⟩⟩

/-- A sweep serves a queue: first those on the list in the order of their registration, then those who
    register meanwhile, without those who are dropped before their turn. -/
theorem serves_in_order (run : Run {} (pre ++ start :: inside) m) (action : start.action = .call c)
    (sweeps : start.before.world.Sweeps c s ending)
    (lasting : ∀ t ∈ inside, t.before.stack ≠ start.before.stack)
    (quiet : ∀ t ∈ inside, ∀ c ∈ t.call?, c.isQuiet = true)
    (installed : ∀ t ∈ inside, t.failing? = none)
    (first : ∀ w ∈ (start.before.world.queue s).head?, start.before.world.Resolved w)
    (resolved : ∀ t ∈ inside, ∀ v ∈ t.next? s, t.before.world.Resolved v) :
    ServesInOrder s ending start inside m := by
  obtain ⟨k, r₁, r₂⟩ := run.split
  have hk := r₁.sound Moment.sound_empty
  have hstart := r₂.sound_of_mem hk List.mem_cons_self
  obtain ⟨hserved, heffort, hgo⟩ := r₂.underway_or_finished hk action sweeps lasting quiet installed
    first resolved
  have hown : ∀ t ∈ start :: inside, ∀ j, t.jump? = some j →
      (t.after.world.watchpoint j.watchpoint).addresses? = some (j.source, j.destination) ∧
        (t.after.world.contextOf j.watchpoint).patcher = j.patcher :=
    fun t ht j => Transition.own_jump (r₂.sound_of_mem hk ht)
  have honce : ∀ w, (Fifo.during s start inside).served.count w ≤
      (if w ∈ start.before.world.queue s then 1 else 0) +
        inside.countP (·.change? = some (.join w s)) := fun w => by
    rw [← (hstart.coherent.nodup_queue s).count]
    exact Fifo.count_during_le s start inside w
  rcases hgo with ⟨inner, w, n, loan, hu⟩ | ⟨t, ht, hf⟩
  · have hne : m.stack ≠ start.before.stack := fun he => by
      have hlen := congrArg List.length (he.symm.trans hu.stack)
      simp at hlen
      omega
    refine ⟨hserved.symm, honce, hown, ?_, fun _ => Moment.answerable ?_, fun he => absurd he hne⟩
    · have hbase := answersDue_le_append
        (inner ++ [⟨.patch ⟨w, some ⟨s, n, ending⟩⟩, loan⟩]) start.before.stack
      rw [List.append_assoc, List.singleton_append, ← hu.stack] at hbase
      rw [effort] at heffort
      omega
    · simp [hu.stack]
  · have hstack : m.stack = start.before.stack := r₂.eq_after ht ▸ hf.stack
    refine ⟨hserved.symm, honce, hown, ?_, fun hne => absurd hstack hne, fun _ => ⟨t, ht, hf⟩⟩
    rw [effort, hstack] at heffort
    omega

end Run

/-- Three watchpoints wait on a set when a write is reported. Inside the jump of the first, it is
    dropped and so is the third, which has no addresses yet; inside the jump of the second, a fourth
    is made. -/
def dropAndRegisterInsideSweep : List Action :=
  [.call (.createAlone 0 (.scripted "p") ⟨16⟩ ⟨96⟩), .call (.resolve 0), .located (.ok ⟨4112⟩),
    .located (.ok ⟨4192⟩), .call (.createAlone 1 (.scripted "p") ⟨32⟩ ⟨112⟩), .call (.resolve 1),
    .located (.ok ⟨4128⟩), .located (.ok ⟨4208⟩), .call (.createAlone 2 (.scripted "p") ⟨48⟩ ⟨128⟩),
    .call (.newSet 5 .blind), .call (.add 5 (some 0)), .call (.add 5 (some 1)), .call (.add 5 (some 2)),
    .call (.notifyWrite 5), .call (.dropWatchpoint 0), .call (.dropWatchpoint 2), .patched,
    .call (.createAlone 3 (.scripted "p") ⟨64⟩ ⟨144⟩), .call (.resolve 3), .located (.ok ⟨4160⟩),
    .located (.ok ⟨4240⟩), .call (.add 5 (some 3)), .patched, .patched]

theorem serves_in_order_dropAndRegisterInsideSweep :
    ∃ pre start inside m, Run {} (pre ++ start :: inside) m ∧ start.action = .call (.notifyWrite 5) ∧
      start.before.world.Sweeps (.notifyWrite 5) (.ofHandle 5) .invalidate ∧
      (∀ t ∈ inside, t.before.stack ≠ start.before.stack) ∧
      (∀ t ∈ inside, ∀ c ∈ t.call?, c.isQuiet = true) ∧ (∀ t ∈ inside, t.failing? = none) ∧
      (∀ w ∈ (start.before.world.queue (.ofHandle 5)).head?, start.before.world.Resolved w) ∧
      (∀ t ∈ inside, ∀ v ∈ t.next? (.ofHandle 5), t.before.world.Resolved v) ∧
      m.stack = start.before.stack ∧ (Fifo.during (.ofHandle 5) start inside).served = [0, 1, 3] ∧
      ServesInOrder (.ofHandle 5) .invalidate start inside m := by
  have run := Moment.run_play_at {} dropAndRegisterInsideSweep (n := 13) (by decide)
  have sweeps : (Moment.play {} dropAndRegisterInsideSweep)[13].before.world.Sweeps (.notifyWrite 5)
      (.ofHandle 5) .invalidate := .notifyWrite (by decide) (by decide)
  exact ⟨_, _, _, _, run, rfl, sweeps, by decide, by decide, by decide, by decide, by decide,
    by decide, by decide,
    run.serves_in_order rfl sweeps (by decide) (by decide) (by decide) (by decide) (by decide)⟩

end Invalidation
