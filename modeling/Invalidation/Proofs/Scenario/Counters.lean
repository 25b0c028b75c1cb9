import Invalidation.Proofs.Scenario.Recorders

/-! The counters of a runtime and the recorder that installs its jumps tell the same, namely what has
    happened. The recorder is told of a jump when it is asked for, and the counter when it is
    installed; a recorder never fails, so outside of its jumps there is no difference.

        history ──tally──▶ counters
           └────asked────▶ what the recorder has to tell -/

namespace Invalidation

/-- The recorder installs the jumps of the runtime, and of nothing else. -/
structure World.OwnRecorder (σ : World) (r : RuntimeId) (name : String) : Prop where
  installs : ∃ x, σ.contexts.get? (.ofRuntime r) = some x ∧ x.patcher = .recorder name
  alone : ∀ c x, σ.contexts.get? c = some x → x.patcher = .recorder name → c = .ofRuntime r

/-- The jumps that transitions ask for, of the watchpoints of a runtime, in their order. -/
def asked (σ : World) (r : RuntimeId) (ts : List Transition) : List (Address × Address) :=
  ((jumps ts).filter fun j => σ.belongs (.ofRuntime r) j.watchpoint).map fun j =>
    (j.source, j.destination)

variable {ts : List Transition} {t : Transition} {m : Moment} {r : RuntimeId} {w : WatchpointId}
  {name : String}

/-- A recorder of its own installs the jumps of just the watchpoints of the runtime. -/
theorem World.OwnRecorder.installer?_iff {σ : World} (own : σ.OwnRecorder r name) {x : Site}
    (hx : σ.linkage.sites w = some x) :
    σ.installer? w = some (.recorder name) ↔ σ.belongs (.ofRuntime r) w = true := by
  obtain ⟨v, hv, -⟩ := Option.map_eq_some_iff.mp hx
  rw [installer?, belongs, decide_eq_true_iff, watchpoint, hv, Option.bind_some, Option.getD_some,
    Option.map_eq_some_iff]
  constructor
  · rintro ⟨y, hy, hp⟩
    exact own.alone _ y hy hp
  · intro hc
    exact hc ▸ own.installs

namespace Run

variable {k : Moment}

/-- Who installs the jump of a watchpoint at some time shows whether it belongs to the runtime. -/
theorem installer?_iff (run : Run k ts m) (h : k.Linked) (own : m.world.OwnRecorder r name) {x : Site}
    (hx : k.world.linkage.sites w = some x) :
    k.world.installer? w = some (.recorder name) ↔ m.world.belongs (.ofRuntime r) w = true := by
  obtain ⟨y, hy⟩ := run.known_after h hx
  rw [← run.installer?_eq h hx]
  exact own.installer?_iff hy

/-- What the recorder is asked for is just what is asked for the watchpoints of the runtime. -/
theorem noted_eq_asked (run : Run {} ts m) (own : m.world.OwnRecorder r name) :
    noted name ts = asked m.world r ts := by
  rw [noted, asked]
  congr 1
  refine List.filter_congr fun j hj => ?_
  obtain ⟨t, ht, hj⟩ := List.mem_filterMap.mp hj
  obtain ⟨pre, post, -, r₁, r₂⟩ := run.split_of_mem ht
  have hlinked := r₁.linked Moment.linked_empty
  obtain ⟨x, hx⟩ := World.known_of_addresses (Transition.own_jump hlinked.sound hj).1
  have hiff := r₂.installer?_iff (Transition.linked hlinked) own hx
  rw [Transition.installer?_of_jump hlinked hj, Option.some.injEq] at hiff
  rw [Bool.eq_iff_iff, decide_eq_true_iff]
  exact hiff

/-- No jump of the runtime fails, as far as its recorder does not. -/
theorem installs_all (run : Run {} ts m) (own : m.world.OwnRecorder r name)
    (sure : ∀ t ∈ ts, ∀ w, t.failing? = some w → t.before.world.installer? w ≠ some (.recorder name)) :
    ∀ t ∈ ts, t.failing?.any (m.world.belongs (.ofRuntime r)) = false := by
  intro t ht
  cases hf : t.failing? with
  | none => rfl
  | some w =>
    obtain ⟨pre, post, -, r₁, r₂⟩ := run.split_of_mem ht
    have hlinked := r₁.linked Moment.linked_empty
    obtain ⟨x, hx⟩ := Transition.known_of_failing hlinked hf
    have hiff := (Run.cons rfl r₂).installer?_iff hlinked own hx
    exact Bool.eq_false_iff.mpr fun hb => sure t ht w hf (hiff.mpr hb)

/-- Outside of the jumps of the runtime, as many have been counted as have been asked for. -/
theorem length_asked (run : Run {} ts m)
    (sure : ∀ t ∈ ts, t.failing?.any (m.world.belongs (.ofRuntime r)) = false)
    (idle : installing (m.world.belongs (.ofRuntime r)) m.stack = 0) :
    (asked m.world r ts).length = (tally m.world r ts).redirects := by
  have hbalance := run.jumps_balance Moment.sound_empty (m.world.belongs (.ofRuntime r))
  have hfailing : ts.countP (fun t => t.failing?.any (m.world.belongs (.ofRuntime r))) = 0 :=
    List.countP_eq_zero.mpr fun t ht => Bool.eq_false_iff.mp (sure t ht)
  rw [idle, hfailing, Nat.zero_add, Nat.add_zero] at hbalance
  rw [asked, List.length_map, ← List.countP_eq_length_filter]
  exact (Nat.zero_add _).symm.trans hbalance

end Run

namespace Scenario

namespace Session

variable {s : Session}

theorem run_succ (n : Nat) (s : Session) :
    s.run (n + 1) = if (s.run n).isOver then s.run n else (s.run n).advance := by
  induction n generalizing s with
  | zero => rfl
  | succ n ih =>
    by_cases hover : s.isOver = true
    · simp only [run, hover, if_true]
    · rw [run, if_neg hover, ih s.advance, run, if_neg hover]

theorem leadsTo_run_succ (n : Nat) (s : Session) : (s.run n).LeadsTo (s.run (n + 1)) := by
  rw [run_succ]
  split
  · exact .refl _
  · exact leadsTo_advance _

end Session

/-- What has happened in a script grows as the script goes on. -/
theorem Script.exists_history (p : Script) :
    ∃ history : Nat → List Transition, (∀ n, history n <+: history (n + 1)) ∧
      ∀ n, (p.session.run n).Chronicle (history n) := by
  choose! more hmore using fun n => Session.leadsTo_run_succ n p.session
  refine ⟨fun n => n.rec [] fun n ts => ts ++ more n ts, fun n => List.prefix_append _ _, fun n => ?_⟩
  induction n with
  | zero => exact Session.chronicle_empty p
  | succ n ih => exact hmore n _ ih

end Scenario

/-- The counters of a runtime are what has happened, at every moment of every run, and there are no more
    than transitions. Along a script, outside of the jumps of a runtime whose recorder installs nothing
    else, the recorder has noted the jumps of its watchpoints, each of which has been installed, in the
    order in which they were asked for; and there are as many as the runtime has counted. -/
theorem counters_tell_history :
    (∀ ts m, Run {} ts m → ∀ r : RuntimeId,
      (m.world.context (.ofRuntime r)).counters = tally m.world r ts ∧
        (tally m.world r ts).created ≤ ts.length ∧ (tally m.world r ts).resolutions ≤ ts.length ∧
        (tally m.world r ts).redirects ≤ ts.length) ∧
    ∀ p : Scenario.Script, ∃ history : Nat → List Transition, (∀ n, history n <+: history (n + 1)) ∧
      ∀ n, Run {} (history n) (p.session.run n).moment ∧
        ∀ r name, (p.session.run n).world.OwnRecorder r name →
          installing ((p.session.run n).world.belongs (.ofRuntime r))
          (p.session.run n).moment.stack = 0 →
          ∃ notes, (p.session.run n).recorders.get? name = some notes ∧
            notes = asked (p.session.run n).world r (history n) ∧
            (∀ t ∈ history n, t.failing?.any ((p.session.run n).world.belongs (.ofRuntime r)) = false) ∧
            notes.length = ((p.session.run n).world.context (.ofRuntime r)).counters.redirects := by
  refine ⟨fun ts m run r => ⟨run.counters_eq_tally r, List.countP_le_length, List.countP_le_length,
    List.countP_le_length⟩, fun p => ?_⟩
  obtain ⟨history, hgrows, hchronicle⟩ := p.exists_history
  refine ⟨history, hgrows, fun n => ⟨(hchronicle n).run, fun r name own idle => ?_⟩⟩
  have h := hchronicle n
  have hsure := h.run.installs_all own fun t ht w hw => h.sure t ht w name hw
  obtain ⟨x, hx, hp⟩ := own.installs
  obtain ⟨notes, hnotes⟩ := Option.isSome_iff_exists.mp (h.known _ x name hx hp)
  have hasked : notes = asked (p.session.run n).world r (history n) := by
    have htold := h.notes name
    rw [hnotes, Option.getD_some] at htold
    exact htold.trans (h.run.noted_eq_asked own)
  refine ⟨notes, hnotes, hasked, hsure, ?_⟩
  have hcounters := h.run.counters_eq_tally r
  rw [hasked]
  exact (h.run.length_asked hsure idle).trans (congrArg Counters.redirects hcounters).symm

/-- While a patcher is asked for a jump, a write is reported that lets a watchpoint of a runtime
    with its own recorder fire; then the patcher fails. -/
def sweepInsideFailingJump : Scenario.Script where
  steps := [.recorder "log", .runtime "r" (.recorder "log") none,
    .watchpoint "w" ⟨16⟩ ⟨96⟩ (.runtime "r"),
    .fixed "code" .standard, .resolveFixed "w" "code", .set "s" .blind none, .add "s" (some "w"),
    .patcher "p" [(0, [.notifyWrite "s", .panic "no room"])],
    .watchpoint "v" ⟨32⟩ ⟨112⟩ (.alone (.scripted "p")), .resolveFixed "v" "code", .fire "v"]

theorem counters_tell_history_sweepInsideFailingJump :
    ∃ s : Scenario.Session, s = sweepInsideFailingJump.session.run 18 ∧ s.world.OwnRecorder 0 "log" ∧
      installing (s.world.belongs (.ofRuntime 0)) s.moment.stack = 0 ∧
      ∃ ts, Run {} ts s.moment ∧ tally s.world 0 ts = ⟨1, 1, 1⟩ ∧
        asked s.world 0 ts = [(⟨4112⟩, ⟨4192⟩)] ∧
        ∀ t ∈ ts, t.failing?.any (s.world.belongs (.ofRuntime 0)) = false := by
  have own : (sweepInsideFailingJump.session.run 18).world.OwnRecorder 0 "log" := by
    refine ⟨⟨_, rfl, by decide +kernel⟩, fun c x hx hp => ?_⟩
    have hall : ∀ q ∈ (sweepInsideFailingJump.session.run 18).world.contexts.pairs,
        q.2.patcher = .recorder "log" → q.1 = .ofRuntime 0 := by decide +kernel
    exact hall (c, x) (Store.mem_pairs_of_get? hx) hp
  have idle : installing ((sweepInsideFailingJump.session.run 18).world.belongs (.ofRuntime 0))
      (sweepInsideFailingJump.session.run 18).moment.stack = 0 := by decide +kernel
  obtain ⟨history, -, hall⟩ := counters_tell_history.2 sweepInsideFailingJump
  obtain ⟨run, hrecorders⟩ := hall 18
  obtain ⟨notes, hnotes, hasked, hsure, -⟩ := hrecorders 0 "log" own idle
  have hcounters := (counters_tell_history.1 _ _ run 0).1
  have hstats : ((sweepInsideFailingJump.session.run 18).world.context (.ofRuntime 0)).counters =
    ⟨1, 1, 1⟩ := by
    decide +kernel
  have hlog :
    (sweepInsideFailingJump.session.run 18).recorders.get? "log" = some [(⟨4112⟩, ⟨4192⟩)] := by
    decide +kernel
  obtain rfl := Option.some.inj (hlog.symm.trans hnotes)
  exact ⟨_, rfl, own, idle, _, run, hcounters.symm.trans hstats, hasked.symm, hsure⟩

end Invalidation
