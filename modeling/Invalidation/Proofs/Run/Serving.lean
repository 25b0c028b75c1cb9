import Invalidation.Proofs.Run.Linked
import Invalidation.Proofs.Run.Sweep

/-! A sweep whose patcher makes no calls. It serves one watchpoint after the other, for as long as
    the next has addresses; nothing else happens to the world than that each is counted and leaves
    the list.

        a b | c d        a and b have addresses
        served | rest    two jumps later the sweep goes on with c, as if a and b had never been there

    Such a run is determined by what the surroundings do, so what is true of one is true of all. -/

namespace Invalidation

namespace World

/-- The jump of a watchpoint, once it has addresses. -/
def jumpOf? (σ : World) (w : WatchpointId) : Option Jump :=
  (σ.watchpoint w).addresses?.map fun a => ⟨w, (σ.contextOf w).patcher, a.1, a.2⟩

/-- What becomes of a world when the jumps of watchpoints are installed, one after the other. -/
def serveAll (σ : World) (ws : List WatchpointId) : World :=
  ws.foldl (fun σ w => (σ.countRedirect w).unlink w) σ

end World

/-! ### Installing the jump of one watchpoint, as the others see it -/

namespace World

variable {σ : World} {v w : WatchpointId}

theorem get?_watchpoints_unlink (σ : World) (v w : WatchpointId) :
    (σ.unlink v).watchpoints.get? w =
      (σ.watchpoints.get? w).map fun x => if w = v then { x with membership := none } else x := by
  rw [unlink]
  split
  · next hm =>
    -- who is on no list is not changed by leaving it
    cases hw : σ.watchpoints.get? w with
    | none => rfl
    | some x =>
      rw [Option.map_some]
      split
      · next hv =>
        subst hv
        rw [watchpoint, hw, Option.getD_some] at hm
        rw [← hm]
      · rfl
  · refine (Store.get?_modify _ _ _ _).trans ?_
    by_cases hv : v = w
    · simp [hv]
    · rw [if_neg hv]
      simp only [Ne.symm hv, if_false, Option.map_id']

theorem context_countRedirect (σ : World) (v : WatchpointId) (c : ContextId) :
    ((σ.countRedirect v).context c).patcher = (σ.context c).patcher := by
  rw [context, context, countRedirect, count, Store.get?_modify]
  split
  · cases σ.contexts.get? c <;> rfl
  · rfl

/-- The jump of a watchpoint stays the same while others are installed. -/
theorem jumpOf?_fired (σ : World) (v w : WatchpointId) :
    ((σ.countRedirect v).unlink v).jumpOf? w = σ.jumpOf? w := by
  have hget := get?_watchpoints_unlink (σ.countRedirect v) v w
  have hsame : (((σ.countRedirect v).unlink v).watchpoint w).addresses? = (σ.watchpoint w).addresses? ∧
      (((σ.countRedirect v).unlink v).watchpoint w).context = (σ.watchpoint w).context := by
    rw [watchpoint, hget, watchpoint, show (σ.countRedirect v).watchpoints = σ.watchpoints from rfl]
    cases σ.watchpoints.get? w with
    | none => exact ⟨rfl, rfl⟩
    | some x =>
      rw [Option.map_some, Option.getD_some, Option.getD_some]
      split <;> exact ⟨rfl, rfl⟩
  have hcontexts : ((σ.countRedirect v).unlink v).contexts = (σ.countRedirect v).contexts := by
    rw [unlink]
    split <;> rfl
  have hpatcher : (((σ.countRedirect v).unlink v).contextOf w).patcher = (σ.contextOf w).patcher := by
    rw [contextOf, hsame.2, context, hcontexts, ← context]
    exact context_countRedirect σ v _
  rw [jumpOf?, jumpOf?, hsame.1, hpatcher]

/-- Whoever is served is off its list, and no watchpoint is otherwise changed. -/
theorem get?_watchpoints_serveAll (σ : World) (ws : List WatchpointId) (w : WatchpointId) :
    (σ.serveAll ws).watchpoints.get? w =
      (σ.watchpoints.get? w).map fun x => if w ∈ ws then { x with membership := none } else x := by
  induction ws generalizing σ with
  | nil => simp [serveAll]
  | cons v ws ih =>
    rw [serveAll, List.foldl_cons, ← serveAll, ih, get?_watchpoints_unlink,
      show (σ.countRedirect v).watchpoints = σ.watchpoints from rfl, Option.map_map]
    refine congrArg (Option.map · _) (funext fun x => ?_)
    by_cases hv : w = v
    · by_cases hw : v ∈ ws <;> simp [hv, hw]
    · simp [hv]

/-- Serving takes everybody off the list that is served, and does nothing else to any list. -/
theorem edits_serveAll (σ : World) (ws : List WatchpointId) :
    Edits σ (ws.map .leave) (σ.serveAll ws) := by
  induction ws generalizing σ with
  | nil => exact .refl σ
  | cons w ws ih => exact (edits_fired σ w).trans (ih _)

theorem queue_serveAll {ws rest : List WatchpointId} {s : SetId} (h : σ.Coherent)
    (hq : σ.queue s = ws ++ rest) : (σ.serveAll ws).queue s = rest := by
  induction ws generalizing σ with
  | nil => exact hq
  | cons w ws ih =>
    have e := edits_fired σ w
    refine ih (h.edits e) ?_
    rw [h.queue_edits e s, hq]
    exact List.erase_cons_head w _

end World

/-! ### One after the other -/

theorem jumps_append (ts us : List Transition) : jumps (ts ++ us) = jumps ts ++ jumps us :=
  List.filterMap_append

theorem jumps_singleton (t : Transition) : jumps [t] = t.jump?.toList := by
  rw [jumps_cons, jumps, List.filterMap_nil, List.append_nil]

/-- A sweep serves those in front, one after the other, and then goes on with those behind them. -/
theorem exists_run_serving {s : SetId} {ending : Ending} {ws rest : List WatchpointId}
    {σ : World} {n : Nat}
    {t : Transition} {events : List LogEvent} (h : σ.Coherent) (hq : σ.queue s = ws ++ rest)
    (resolved : ∀ w ∈ ws, σ.Resolved w)
    (turn : t.move.turn = (σ.sweepOn ⟨s, n, ending⟩).after events) :
    ∃ us before last, Run t.after us last.after ∧
    us.map Transition.action = List.replicate ws.length .patched ∧
      (∀ u ∈ us, u.before.stack ≠ t.move.below) ∧ deeds us = ws.map .redirects ∧
      t :: us = before ++ [last] ∧ (∀ u ∈ before, u.panics = false) ∧
      (jumps before).map some = ws.map σ.jumpOf? ∧ last.move.below = t.move.below ∧
      ∃ events',
      last.move.turn = ((σ.serveAll ws).sweepOn ⟨s, n + ws.length, ending⟩).after events' := by
  induction ws generalizing σ n t events with
  | nil =>
    exact ⟨[], [], t, .nil _, rfl, fun _ hu => absurd hu List.not_mem_nil, rfl, rfl,
      fun _ hu => absurd hu List.not_mem_nil, rfl, rfl, events, turn⟩
  | cons w ws ih =>
    have hfront := h.front?_eq s
    rw [hq] at hfront
    obtain ⟨hw, hws⟩ := List.forall_mem_cons.mp resolved
    obtain ⟨source, destination, ha⟩ := hw.addresses
    rw [World.sweepOn_of_front hfront, World.fire_of_resolved ha] at turn
    have hnext : t.move.turn.next = .waiting (.patch (σ.contextOf w).patcher source destination)
        (.patch ⟨w, some ⟨s, n, ending⟩⟩) := by rw [turn]; rfl
    have hworld : t.after.world = σ := by rw [Transition.after, Move.after, turn]; rfl
    have hstack : t.after.stack = ⟨.patch ⟨w, some ⟨s, n, ending⟩⟩, t.move.loan⟩ :: t.move.below := by
      rw [Transition.after, Move.after, hnext]
    -- the jump is installed, and the sweep goes on with those behind it
    have e := World.edits_fired σ w
    have hturn : (t.after.installing hstack).move.turn =
        (((σ.countRedirect w).unlink w).sweepOn ⟨s, n + 1, ending⟩).after [] := by
      show t.after.world.patched ⟨w, some ⟨s, n, ending⟩⟩ = _
      rw [hworld]
      rfl
    have hqueue : ((σ.countRedirect w).unlink w).queue s = ws ++ rest := by
      rw [h.queue_fired, hq]
      exact List.erase_cons_head w _
    obtain ⟨us, before, last, r, hactions, hlasting, hdeeds, hsplit, hcalm, hjumps, hbelow,
      events', hlast⟩ :=
      ih (h.edits e) hqueue (fun v hv => e.resolved (hws v hv)) hturn
    refine ⟨t.after.installing hstack :: us, t :: before, last, .cons rfl r, ?_, ?_, ?_, ?_, ?_,
      ?_, hbelow, events', ?_⟩
    · rw [List.map_cons, hactions]
      rfl
    · refine List.forall_mem_cons.mpr ⟨?_, hlasting⟩
      exact fun he => List.cons_ne_self _ _ (hstack.symm.trans he)
    · have hdeed : (t.after.installing hstack).deed? = some (.redirects w) := by
        simp only [Transition.deed?, Moment.installing, hstack]
      rw [deeds, List.filterMap_cons_some hdeed, ← deeds, hdeeds]
      rfl
    · rw [hsplit]
      rfl
    · refine List.forall_mem_cons.mpr ⟨?_, hcalm⟩
      rw [Transition.panics, hnext]
    · rw [map_jumps_cons, hjumps, Transition.jump?, hnext, List.map_cons,
        List.map_congr_left fun v _ => World.jumpOf?_fired σ w v, World.jumpOf?, ha]
      rfl
    · rw [hlast, List.length_cons, Nat.add_right_comm, Nat.add_assoc]
      rfl

/-- A sweep serves all on the list, one after the other, and then comes to its end. -/
theorem exists_run_sweep {s : SetId} {ending : Ending} {ws : List WatchpointId} {σ : World} {n : Nat}
    {t : Transition} {events : List LogEvent} (h : σ.Coherent) (hq : σ.queue s = ws)
    (resolved : ∀ w ∈ ws, σ.Resolved w)
    (turn : t.move.turn = (σ.sweepOn ⟨s, n, ending⟩).after events) :
    ∃ us m, Run t.after us m ∧ us.map Transition.action = List.replicate ws.length .patched ∧
      (∀ u ∈ us, u.before.stack ≠ t.move.below) ∧
      (∀ u ∈ t :: us, u.panics = false) ∧ (jumps (t :: us)).map some = ws.map σ.jumpOf? ∧
      m.stack = t.move.below ∧ m.world = (σ.serveAll ws).finish s ending := by
  have hall : σ.queue s = ws ++ [] := by rw [hq, List.append_nil]
  obtain ⟨us, before, last, r, hactions, hlasting, -, hsplit, hcalm, hjumps, hbelow, events', hlast⟩ :=
    exists_run_serving h hall resolved turn
  -- nobody is left, so the last transition is the end
  have hfront := (h.edits (World.edits_serveAll σ ws)).front?_eq s
  rw [World.queue_serveAll h hall] at hfront
  rw [World.sweepOn_of_drained hfront] at hlast
  have hnext : last.move.turn.next = .returned := by rw [hlast]; rfl
  have hjump : last.jump? = none := by rw [Transition.jump?, hnext]
  refine ⟨us, last.after, r, hactions, hlasting, ?_, ?_, ?_, ?_⟩
  · rw [hsplit, List.forall_mem_append]
    refine ⟨hcalm, fun u hu => ?_⟩
    rw [List.mem_singleton.mp hu, Transition.panics, hnext]
  · rw [hsplit, jumps_append, jumps_singleton, hjump, Option.toList_none, List.append_nil, hjumps]
  · rw [Transition.after, Move.after, hnext, hbelow]
  · rw [Transition.after, Move.after, hlast]
    rfl

/-- Jumps that are those of certain watchpoints are for these watchpoints, and each is its own. -/
theorem jumps_of_map_some {σ : World} {js : List Jump} {ws : List WatchpointId}
    (h : js.map some = ws.map σ.jumpOf?) :
    js.map Jump.watchpoint = ws ∧ ∀ j ∈ js, σ.jumpOf? j.watchpoint = some j := by
  induction js generalizing ws with
  | nil =>
    cases ws with
    | nil => exact ⟨rfl, fun _ hj => absurd hj List.not_mem_nil⟩
    | cons => cases h
  | cons j js ih =>
    cases ws with
    | nil => cases h
    | cons w ws =>
      rw [List.map_cons, List.map_cons, List.cons.injEq] at h
      obtain ⟨hws, hjs⟩ := ih h.2
      obtain ⟨a, -, rfl⟩ := Option.map_eq_some_iff.mp h.1.symm
      refine ⟨by rw [List.map_cons, hws], fun i hi => ?_⟩
      rcases List.mem_cons.mp hi with rfl | hi
      · exact h.1.symm
      · exact hjs i hi

/-! ### A run is determined by its actions -/

theorem Transition.eq_of_action {t u : Transition} (before : t.before = u.before)
    (action : t.action = u.action) : t = u := by
  obtain ⟨m, a, v, ht⟩ := t
  obtain ⟨m', a', v', hu⟩ := u
  obtain rfl : m = m' := before
  obtain rfl : a = a' := action
  obtain rfl : v = v' := Option.some.inj (ht.symm.trans hu)
  rfl

theorem Run.eq_of_actions {k m m' : Moment} {us us' : List Transition} (r : Run k us m)
    (r' : Run k us' m') (same : us.map Transition.action = us'.map Transition.action) :
    us = us' ∧ m = m' := by
  induction r generalizing us' with
  | nil =>
    cases r' with
    | nil => exact ⟨rfl, rfl⟩
    | cons => cases same
  | cons start _ ih =>
    cases r' with
    | nil => cases same
    | cons start' rest' =>
      rw [List.map_cons, List.map_cons, List.cons.injEq] at same
      obtain rfl := Transition.eq_of_action (start.trans start'.symm) same.1
      obtain ⟨rfl, rfl⟩ := ih rest' same.2
      exact ⟨rfl, rfl⟩

end Invalidation
