import Invalidation.Proofs.Run.Registration
import Invalidation.Proofs.Run.Tended

/-! Exactly once. Whatever the surroundings do, a registration has one of three fates:

        registered ─┬─▶ standing    on the list still, and not installed
                    ├─▶ delivered   fired and off the list, and installed once, between its addresses
                    └─▶ withdrawn   dropped before it fired, and not installed

    They may call back while a jump is installed, as long as no watchpoint fires inside its own fire and
    none is registered there, and as long as nothing panics. -/

namespace Invalidation

/-- What can become of a registration. -/
inductive Fate where
  /-- The watchpoint is still on the list of a set that is there and has an owner, and its jump has
      not been installed. -/
  | standing
  /-- The watchpoint fired and left the list, and its jump was installed once. -/
  | delivered
  /-- The watchpoint was dropped before it fired, and its jump was not installed. -/
  | withdrawn
  deriving DecidableEq

/-- That is what became of the registration of `w` on `s`, judged by all transitions since. A watchpoint
    that is dropped while its jump is being installed has fired. -/
def Fate.Befell (w : WatchpointId) (s : SetId) (since : List Transition) (m : Moment) : Fate → Prop
  | .standing =>
    (∃ l, m.world.list? s = some l) ∧ m.world.Owned s ∧ w ∈ m.world.queue s ∧
      departure? w s since = none ∧ since.filter (·.installs w) = []
  | .delivered => ∃ t u j, departure? w s since = some t ∧
      (t.Completes w ∨ t.Drops w ∧ firing t.before.stack w = 1) ∧
      (tenure w s since).filter (·.installs w) = [u] ∧ u.jump? = some j ∧
      (u.after.world.watchpoint w).addresses? = some (j.source, j.destination) ∧
      (u.after.world.contextOf w).patcher = j.patcher
  | .withdrawn => ∃ t, departure? w s since = some t ∧ t.Drops w ∧ firing t.before.stack w = 0 ∧
      (tenure w s since).filter (·.installs w) = []

variable {w : WatchpointId} {s : SetId}

/-- The fate of a registration, as its departure and the jumps installed while it lasts tell it. -/
def Fate.told (w : WatchpointId) (s : SetId) (since : List Transition) : Fate :=
  match departure? w s since, (tenure w s since).filter (·.installs w) with
  | none, _ => .standing
  | some _, [] => .withdrawn
  | some _, _ :: _ => .delivered

theorem Fate.Befell.eq_told {since : List Transition} {m : Moment} {f : Fate}
    (h : f.Befell w s since m) : f = told w s since := by
  cases f with
  | standing =>
    obtain ⟨-, -, -, hd, -⟩ := h
    rw [told, hd]
  | delivered =>
    obtain ⟨t, u, j, hd, -, hu, -⟩ := h
    rw [told, hd, hu]
  | withdrawn =>
    obtain ⟨t, hd, -, -, hn⟩ := h
    rw [told, hd, hn]

/-- No two fates befall the same registration. -/
theorem Fate.Befell.unique {since : List Transition} {m : Moment} {f g : Fate}
    (hf : f.Befell w s since m) (hg : g.Befell w s since m) : f = g := hf.eq_told.trans hg.eq_told.symm

theorem firing_of_idle {stack : List Waiting} (h : ∀ x ∈ stack, x.pending.patching? = none) :
    firing stack w = 0 := by
  rw [firing, List.countP_eq_zero]
  intro x hx
  simp [h x hx]

namespace Run

variable {ts pre since : List Transition} {reg : Transition} {k m : Moment}

theorem mem_queue (r : Run k ts m) (h : w ∈ k.world.queue s)
    (listed : ∀ t ∈ ts, w ∈ t.after.world.queue s) : w ∈ m.world.queue s :=
  r.keeps_along (P := fun m => w ∈ m.world.queue s) (fun _ ht _ => ht) listed h

/-- A registration that has come to its end was delivered or withdrawn. -/
theorem fate_of_departure {t : Transition} (r : Run k since m) (hk : k.Sound)
    (hin : w ∈ k.world.queue s) (outside : firing k.stack w = 0)
    (calm : ∀ t ∈ since, t.panics = false)
    (single : ∀ t ∈ since, t.installs w = true → firing t.move.below w = 0)
    (hd : departure? w s since = some t) :
    Fate.Befell w s since m .delivered ∨ Fate.Befell w s since m .withdrawn := by
  have hlisted : ∀ u ∈ tenure w s since, w ∈ u.after.world.queue s := fun _ => mem_queue_of_mem_tenure
  have hwhole : ∀ u ∈ tenure w s since, u.failing? ≠ some w := fun u hu =>
    (Transition.whole_of_not_panics (calm u (mem_of_mem_tenure hu))).2
  have hsingle : ∀ u ∈ tenure w s since, u.installs w = true → firing u.move.below w = 0 :=
    fun u hu => single u (mem_of_mem_tenure hu)
  obtain ⟨hout, rest, hsplit⟩ := split_at_departure hd
  rw [hsplit] at r
  obtain ⟨k', r₁, r₂⟩ := r.split
  cases r₂ with
  | cons start _ =>
    subst start
    have ht : t ∈ since := by
      rw [hsplit]
      exact List.mem_append_right _ List.mem_cons_self
    have hlaw := r₁.firing_eq hk hlisted hwhole
    have hle := r₁.firing_le hk hlisted hwhole hsingle (by omega)
    rw [outside, Nat.zero_add] at hlaw
    have hleave := Transition.completes_or_drops (r₁.sound hk)
      (Transition.whole_of_not_panics (w := w) (calm t ht)).1 (r₁.mem_queue hin hlisted) hout
    rcases Nat.le_one_iff_eq_zero_or_eq_one.mp hle with hzero | hone
    · refine Or.inr ⟨t, hd, hleave.resolve_left fun hc => ?_, hzero, ?_⟩
      · have := Transition.firing_of_completes hc
        omega
      · exact List.length_eq_zero_iff.mp (hlaw ▸ hzero)
    · obtain ⟨u, hu⟩ := List.length_eq_one_iff.mp (hlaw ▸ hone)
      obtain ⟨hmem, hi⟩ := List.mem_filter.mp (hu ▸ List.mem_singleton_self u)
      obtain ⟨j, hj, rfl⟩ := Transition.installs_iff.mp hi
      obtain ⟨ha, hp⟩ := Transition.own_jump (r₁.sound_of_mem hk hmem) hj
      exact Or.inl ⟨t, u, j, hd, hleave.imp_right fun h => ⟨h, hone⟩, hu, hj, ha, hp⟩

/-- At a moment when no jump is being installed, a registration has exactly one of the three fates. -/
theorem exactly_one_fate (run : Run {} (pre ++ reg :: since) m)
    (registered : reg.change? = some (.join w s))
    (outside : firing reg.before.stack w = 0) (calm : ∀ t ∈ since, t.panics = false)
    (single : ∀ t ∈ since, t.installs w = true → firing t.move.below w = 0)
    (idle : ∀ x ∈ m.stack, x.pending.patching? = none) : ∃! f : Fate, f.Befell w s since m := by
  obtain ⟨k, r₁, r₂⟩ := run.split
  cases r₂ with
  | cons start r =>
    subst start
    have hreg := r₁.sound Moment.sound_empty
    have hk := Transition.sound hreg
    have hin := Transition.mem_queue_of_join hreg registered
    have hzero : firing reg.after.stack w = 0 := by
      rw [(Transition.returned_of_join registered).2.1, outside]
    cases hd : departure? w s since with
    | none =>
      have hlisted : ∀ u ∈ since, w ∈ u.after.world.queue s := fun u hu =>
        mem_queue_of_mem_tenure (by rwa [tenure_eq_self hd])
      have hlaw := r.firing_eq hk hlisted fun u hu => (Transition.whole_of_not_panics (calm u hu)).2
      rw [firing_of_idle idle, hzero, Nat.zero_add] at hlaw
      have hmem := r.mem_queue hin hlisted
      obtain ⟨l, -, hl, -⟩ := (r.sound hk).coherent.mem_queue_iff.mp hmem
      have hfate : Fate.Befell w s since m .standing :=
        ⟨⟨l, hl⟩, run.owned_of_exists idle (World.exists_iff_list?.mpr ⟨l, hl⟩), hmem, hd,
          List.length_eq_zero_iff.mp hlaw.symm⟩
      exact ⟨.standing, hfate, fun _ hg => hg.unique hfate⟩
    | some t =>
      rcases r.fate_of_departure hk hin hzero calm single hd with hfate | hfate
      · exact ⟨.delivered, hfate, fun _ hg => hg.unique hfate⟩
      · exact ⟨.withdrawn, hfate, fun _ hg => hg.unique hfate⟩

end Run

/-- A set goes with two watchpoints on it, and the patcher of the first drops the second. -/
def dropInsideDestruction : List Action :=
  [.call (.createAlone 0 (.scripted "p") ⟨16⟩ ⟨96⟩), .call (.resolve 0), .located (.ok ⟨4112⟩),
    .located (.ok ⟨4192⟩), .call (.createAlone 1 (.scripted "p") ⟨32⟩ ⟨112⟩), .call (.newSet 2 .blind),
    .call (.add 2 (some 0)), .call (.add 2 (some 1)), .call (.dropHandle 2), .call (.dropWatchpoint 1),
    .patched]

theorem exactly_one_fate_dropInsideDestruction :
    ∃ pre reg since m, Run {} (pre ++ reg :: since) m ∧
      reg.change? = some (.join 0 (.ofHandle 2)) ∧ firing reg.before.stack 0 = 0 ∧
      (∀ t ∈ since, t.panics = false) ∧
      (∀ t ∈ since, t.installs 0 = true → firing t.move.below 0 = 0) ∧
      (∀ x ∈ m.stack, x.pending.patching? = none) ∧ ∃! f : Fate, f.Befell 0 (.ofHandle 2) since m := by
  have run := Moment.run_play_at {} dropInsideDestruction (n := 6) (by decide)
  exact ⟨_, _, _, _, run, by decide, by decide, by decide, by decide, by decide,
    run.exactly_one_fate (by decide) (by decide) (by decide) (by decide) (by decide)⟩

end Invalidation
