import Invalidation.Proofs.Run.Registration

/-! Firing from inside a fire. A watchpoint leaves its list only after its jump is installed, so while
    that goes on it is still there to be found: a patcher that calls back and sweeps the same set fires
    the same watchpoint again, and its jump is installed once for each level.

        sweep ─▶ patch w ─┬─▶ sweep ─▶ patch w ─▶ unlink w
                          └─▶ (back) ─▶ unlink w, which is on no list any more

    The rule that a registration is good for one jump holds exactly where nobody does that. -/

namespace Invalidation

variable {w : WatchpointId} {s : SetId} {pre since : List Transition} {reg : Transition} {m : Moment}

/-- A registration has at most one jump exactly if, while it lasts, its watchpoint never fires inside a
    fire of itself that has started since. -/
theorem Run.at_most_one_jump_iff (run : Run {} (pre ++ reg :: since) m)
    (registered : reg.change? = some (.join w s)) (whole : ∀ t ∈ since, t.failing? ≠ some w) :
    ((tenure w s since).filter (·.installs w)).length ≤ 1 ↔
      ∀ t ∈ tenure w s since, t.installs w = true →
        firing t.move.below w = firing reg.before.stack w := by
  obtain ⟨k, r₁, r₂⟩ := run.split
  cases r₂ with
  | cons start r =>
    subst start
    have hk := Transition.sound (r₁.sound Moment.sound_empty)
    have hstack := (Transition.returned_of_join registered).2.1
    obtain ⟨k', r'⟩ := exists_run_tenure r w s
    rw [← hstack]
    exact r'.length_installs_le_one_iff hk (fun _ => mem_queue_of_mem_tenure)
      fun t ht => whole t (mem_of_mem_tenure ht)

/-- A watchpoint is resolved and registered, a write is reported, and the patcher sweeps the set again
    before it installs the jump. -/
def sweepInsideSweep : List Action :=
  [.call (.createAlone 0 (.scripted "p") ⟨16⟩ ⟨96⟩), .call (.resolve 0), .located (.ok ⟨4112⟩),
    .located (.ok ⟨4192⟩), .call (.newSet 1 .blind), .call (.add 1 (some 0)), .call (.notifyWrite 1),
    .call (.fireAll 1), .patched, .patched]

theorem at_most_one_jump_iff_sweepInsideSweep :
    ∃ pre reg since m, Run {} (pre ++ reg :: since) m ∧
      reg.change? = some (.join 0 (.ofHandle 1)) ∧ (∀ t ∈ since, t.failing? ≠ some 0) ∧
      (((tenure 0 (.ofHandle 1) since).filter (·.installs 0)).length ≤ 1 ↔
        ∀ t ∈ tenure 0 (.ofHandle 1) since, t.installs 0 = true →
          firing t.move.below 0 = firing reg.before.stack 0) := by
  have run := Moment.run_play_at {} sweepInsideSweep (n := 5) (by decide)
  exact ⟨_, _, _, _, run, by decide, by decide, run.at_most_one_jump_iff (by decide) (by decide)⟩

/-- A registration may have two jumps, though nothing panics: the sweep that a patcher starts fires the
    watchpoint that is being patched. -/
theorem two_jumps_for_one_registration :
    ∃ pre reg since m, Run {} (pre ++ reg :: since) m ∧
      reg.change? = some (.join 0 (.ofHandle 1)) ∧ (∀ t ∈ since, t.panics = false) ∧
      ((tenure 0 (.ofHandle 1) since).filter (·.installs 0)).length = 2 :=
  ⟨_, _, _, _, Moment.run_play_at {} sweepInsideSweep (n := 5) (by decide), by decide, by decide,
    by decide⟩

end Invalidation
