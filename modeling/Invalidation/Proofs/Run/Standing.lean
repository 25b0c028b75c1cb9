import Invalidation.Proofs.Run.Destruction
import Invalidation.Proofs.Run.Final
import Invalidation.Proofs.Run.Resolving

/-! Who takes a registration away. A call that installs the jump of a watchpoint leaves, when it goes
    on, whatever list the watchpoint is on *then*, and not the one that it was on when the call began.
    So a registration that is made while such a call is in progress goes as the call goes on, although
    its own set has fired nobody.

        fire w ─▶ patch w ─┬─▶ add w to s          (w is on no list)
                           └─▶ (back) ─▶ w leaves s

    As long as the set is there and the watchpoint is not dropped, nothing else takes it away: neither
    what happens to other watchpoints, nor a call for this one that fails. -/

namespace Invalidation

variable {w : WatchpointId} {s : SetId} {ts pre since : List Transition} {reg t : Transition}
  {k m : Moment}

deriving instance DecidableEq for Action

namespace Transition

instance : DecidablePred (Drops w) := fun t => inferInstanceAs (Decidable (t.action = _))

instance : DecidablePred (Completes w) := fun t => inferInstanceAs (Decidable (t.action = _ ∧ _))

/-- No call for the watchpoint comes to wait but by a transition that installs its jump. -/
theorem firing_after_le (h : t.before.Sound) (w : WatchpointId) :
    firing t.after.stack w ≤ firing t.before.stack w + if t.installs w then 1 else 0 := by
  rw [firing_after h w]
  exact Nat.add_le_add_right t.below_suffix.sublist.countP_le _

/-- Who stands in the queue of a set that is there afterwards stands there still, unless it has left. -/
theorem still_queued (h : t.before.Sound) (hin : w ∈ t.before.world.queue s)
    (stays : t.change? ≠ some (.leave w)) (there : t.after.world.Exists s) :
    w ∈ t.after.world.queue s := by
  obtain ⟨j, hj⟩ := h.coherent.tie?_of_mem hin
  have hon : (t.before.world.watchpoint w).membership = some ⟨s, j⟩ := by
    rw [World.membership_eq, hj]
    rfl
  obtain ⟨b, hb⟩ := World.tie?_eq_some_of_membership (still_on h hon stays)
  obtain ⟨l, hl⟩ := World.exists_iff_list?.mp there
  exact (sound h).coherent.mem_queue_of_tie? hl hb

end Transition

namespace Run

/-- Where no call for the watchpoint is in progress and none begins, none goes on. -/
theorem not_completes_of_idle (r : Run k ts m) (hk : k.Sound) (idle : firing k.stack w = 0)
    (none : ∀ t ∈ ts, t.installs w = false) : ∀ t ∈ ts, ¬ t.Completes w := by
  induction r with
  | nil => exact fun _ ht => absurd ht List.not_mem_nil
  | @cons k m t ts start _ ih =>
    subst start
    obtain ⟨ht, hts⟩ := List.forall_mem_cons.mp none
    have hle := Transition.firing_after_le hk w
    rw [idle, ht] at hle
    refine List.forall_mem_cons.mpr ⟨fun hc => ?_, ih (Transition.sound hk) (Nat.le_zero.mp hle) hts⟩
    exact absurd (Transition.firing_of_completes hc) (by omega)

/-- A set that has been made and is there later was there all the time. -/
theorem exists_before (r : Run k ts m) (hk : k.Sound) (issued : k.world.Issued s)
    (there : m.world.Exists s) : k.world.Exists s := by
  by_contra hgone
  exact ((r.onward hk).gone s issued).2 hgone there

/-- Who stands in the queue of a set that is there at the end stands there all the time, unless it
    leaves. -/
theorem still_queued (r : Run k ts m) (hk : k.Sound) (hin : w ∈ k.world.queue s)
    (stays : ∀ t ∈ ts, t.change? ≠ some (.leave w)) (there : m.world.Exists s) :
    ∀ t ∈ ts, w ∈ t.after.world.queue s := by
  induction r with
  | nil => exact fun _ ht => absurd ht List.not_mem_nil
  | @cons k m t ts start rest ih =>
    subst start
    obtain ⟨ht, hts⟩ := List.forall_mem_cons.mp stays
    have issued : t.before.world.Issued s := by
      obtain ⟨l, _, hl, -⟩ := hk.coherent.mem_queue_iff.mp hin
      exact hk.coherent.made s l hl
    have still :=
      rest.exists_before (Transition.sound hk) ((Transition.onward hk).gone s issued).1 there
    have hnext := Transition.still_queued hk hin ht still
    exact List.forall_mem_cons.mpr ⟨hnext, ih (Transition.sound hk) hnext hts there⟩

/-- A registration stands, while its set is there and its watchpoint is not dropped, exactly until a
    call that installs the jump of the watchpoint goes on. If no such call was in progress when it
    was made, and none has begun since, it stands. -/
theorem registration_stands_iff (run : Run {} (pre ++ reg :: since) m)
    (registered : reg.change? = some (.join w s)) (alive : m.world.Exists s)
    (kept : ∀ t ∈ since, ¬ t.Drops w) :
    ((∀ t ∈ reg :: since, w ∈ t.after.world.queue s) ↔ ∀ t ∈ since, ¬ t.Completes w) ∧
      (firing reg.before.stack w = 0 → (∀ t ∈ since, t.installs w = false) →
        ∀ t ∈ reg :: since, w ∈ t.after.world.queue s) := by
  obtain ⟨k, r₁, r₂⟩ := run.split
  cases r₂ with
  | cons start r =>
    subst start
    have hreg := r₁.sound Moment.sound_empty
    have hk := Transition.sound hreg
    have hin := Transition.mem_queue_of_join hreg registered
    have stands : (∀ t ∈ since, ¬ t.Completes w) → ∀ t ∈ reg :: since, w ∈ t.after.world.queue s := by
      intro hnone
      refine List.forall_mem_cons.mpr ⟨hin, r.still_queued hk hin (fun t ht hc => ?_) alive⟩
      exact (Transition.completes_or_drops_of_leave hc).elim (hnone t ht) (kept t ht)
    refine ⟨⟨fun hall t ht hc => ?_, stands⟩, fun idle none => ?_⟩
    · have hafter := hall t (List.mem_cons_of_mem _ ht)
      exact Transition.not_left_of_mem (r.sound_of_mem hk ht) hafter
        (Transition.change?_of_completes hc)
    · rw [← (Transition.returned_of_join registered).2.1] at idle
      exact stands (r.not_completes_of_idle hk idle none)

end Run

/-- While the jump of a watchpoint that is on no list is installed, the watchpoint is registered on
    a set, and another one behind it. -/
def registeredInsideJump : List Action :=
  [.call (.createAlone 0 (.scripted "p") ⟨16⟩ ⟨96⟩), .call (.resolve 0), .located (.ok ⟨4112⟩),
    .located (.ok ⟨4192⟩), .call (.createAlone 1 (.scripted "p") ⟨32⟩ ⟨112⟩), .call (.newSet 2 .blind),
    .call (.fire 0), .call (.add 2 (some 0)), .call (.add 2 (some 1)), .patched]

theorem registration_stands_iff_registeredInsideJump :
    ∃ pre reg since m, Run {} (pre ++ reg :: since) m ∧
      reg.change? = some (.join 1 (.ofHandle 2)) ∧ m.world.Exists (.ofHandle 2) ∧
      (∀ t ∈ since, ¬ t.Drops 1) ∧ firing reg.before.stack 0 = 1 ∧
      ((∀ t ∈ reg :: since, 1 ∈ t.after.world.queue (.ofHandle 2)) ↔ ∀ t ∈ since, ¬ t.Completes 1) ∧
      (firing reg.before.stack 1 = 0 → (∀ t ∈ since, t.installs 1 = false) →
        ∀ t ∈ reg :: since, 1 ∈ t.after.world.queue (.ofHandle 2)) := by
  have run := Moment.run_play_at {} registeredInsideJump (n := 8) (by decide)
  have alive : (Moment.last {} (Moment.play {} registeredInsideJump)).world.Exists (.ofHandle 2) :=
    ⟨_, rfl⟩
  exact ⟨_, _, _, _, run, by decide, alive, by decide, by decide,
    run.registration_stands_iff (by decide) alive (by decide)⟩

/-- A registration may be lost, though nothing panics, nobody drops the watchpoint and no jump of it is
    asked for since: the call that was in progress when it was made takes it away. -/
theorem registration_lost_to_call_in_progress :
    ∃ pre reg since m, Run {} (pre ++ reg :: since) m ∧ (∀ t ∈ pre ++ reg :: since, t.panics = false) ∧
      reg.change? = some (.join 0 (.ofHandle 2)) ∧ reg.move.turn.next = .returned ∧
      m.world.Exists (.ofHandle 2) ∧ (∀ t ∈ since, ¬ t.Drops 0) ∧ (∀ t ∈ since, t.installs 0 = false) ∧
      0 ∉ m.world.queue (.ofHandle 2) :=
  ⟨_, _, _, _, Moment.run_play_at {} registeredInsideJump (n := 7) (by decide), by decide,
    by decide, rfl, ⟨_, rfl⟩, by decide, by decide, by decide⟩

end Invalidation
