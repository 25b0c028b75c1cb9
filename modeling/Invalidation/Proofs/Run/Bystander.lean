import Invalidation.Proofs.Run.Registration
import Invalidation.Proofs.Run.Write
import Invalidation.Proofs.World.Bystander

/-! Bystanders of a call, from its beginning to its end. A call on one set changes neither the flags
    nor the list of another, whatever is done from inside it; what is done from inside is not its
    own doing.

        call on s ──▶ jump of w ─────────────────────▶ w leaves the list that it is on: s
                  ──▶ jump of w ──[ w : s ──▶ v ]────▶ w leaves the list that it is on: v

    There is one way in which it does: while the jump of a watchpoint is installed for it, the
    watchpoint changes over to the other list. The call goes on as it has begun, and the watchpoint
    is off that list. -/

namespace Invalidation

/-- A call begins with `start`, and once `pre` has been done, the call's own transitions and those
    from inside, `t` is the next transition of its own. -/
structure Transition.TurnOf (t : Transition) (c : Call) (start : Transition)
    (pre : List Transition) : Prop where
  action : start.action = .call c
  run : ∃ inside, start :: inside = pre ++ [t] ∧ Run start.before (start :: inside) t.after ∧
    ∀ u ∈ inside, u.before.stack ≠ start.before.stack
  own : t.move.below = start.before.stack

/-- The call above `below` waits for a jump of the watchpoint, for which the last of its transitions
    in `ts` has asked; `between` has been done since. -/
def Meanwhile (below : List Waiting) (w : WatchpointId) (ts between : List Transition) : Prop :=
  ∃ before asks, ts = before ++ asks :: between ∧ asks.move.below = below ∧ asks.installs w = true ∧
    ∀ t ∈ between, t.move.below ≠ below

/-- A transition of the call above `below`, which has done `ts` before, leaves set `v` as it is. Who
    is taken off its list has come there while the call was waiting for its jump. -/
structure Transition.Bypasses (v : SetId) (below : List Waiting) (ts : List Transition)
    (t : Transition) : Prop where
  there : t.after.world.Exists v ↔ t.before.world.Exists v
  flags : t.after.world.flagsOf v = t.before.world.flagsOf v
  list : t.after.world.queue v = t.before.world.queue v ∨
    ∃ w between, Meanwhile below w ts between ∧ (∃ j ∈ between, j.change? = some (.join w v)) ∧
      t.Completes w ∧ t.after.world.queue v = (t.before.world.queue v).erase w

/-- The call above `below` waits in a sweep of another set than `v`. Who is about to fire is not on
    the list of `v`, unless it has come there since. -/
def Elsewhere (below : List Waiting) (v : SetId) (ts : List Transition) (m : Moment) : Prop :=
  ∃ w y loan between, ⟨.patch ⟨w, some y⟩, loan⟩ :: below <:+ m.stack ∧ y.set ≠ v ∧
    Meanwhile below w ts between ∧
    (w ∈ m.world.queue v → ∃ j ∈ between, j.change? = some (.join w v))

variable {below : List Waiting} {v : SetId} {w : WatchpointId} {ts between : List Transition}
  {t : Transition} {k m : Moment} {σ : World}

/-! ### One transition -/

theorem Meanwhile.append (h : Meanwhile below w ts between) (other : t.move.below ≠ below) :
    Meanwhile below w (ts ++ [t]) (between ++ [t]) := by
  obtain ⟨before, asks, rfl, hasks, hw, hbetween⟩ := h
  refine ⟨before, asks, by simp, hasks, hw, fun u hu => ?_⟩
  rcases List.mem_append.mp hu with hu | hu
  · exact hbetween u hu
  · exact List.mem_singleton.mp hu ▸ other

namespace Transition

/-- Who is on a list has been there before, or has just come there. -/
theorem mem_queue_before (h : t.before.Sound) (hin : w ∈ t.after.world.queue v) :
    w ∈ t.before.world.queue v ∨ t.change? = some (.join w v) := by
  obtain ⟨struck, -, hq⟩ := queue_after h
  have hfold : w ∈ t.change?.toList.foldl (fun ws c => c.on v ws) (t.before.world.queue v) := by
    rw [hq v] at hin
    split at hin
    · exact absurd hin List.not_mem_nil
    · exact hin
  cases hc : t.change? with
  | none => exact Or.inl (by simpa [hc] using hfold)
  | some c =>
    rw [hc] at hfold
    have hle := c.count_on_le v (t.before.world.queue v) w
    have hpos := List.count_pos_iff.mpr hfold
    by_cases hj : c = .join w v
    · exact Or.inr (congrArg some hj)
    · rw [if_neg hj] at hle
      exact Or.inl (List.count_pos_iff.mp (Nat.lt_of_lt_of_le hpos hle))

/-- An answer changes no slot. -/
theorem slots_of_answer (answer : ∀ c, t.action ≠ .call c) :
    t.after.world.slots = t.before.world.slots := by
  obtain ⟨k, a, move, possible⟩ := t
  cases Moment.moves_of_move? possible with
  | call => exact absurd rfl (answer _)
  | @patched p => exact World.slots_patched p
  | @located l => exact World.slots_located l _
  | @failed pending => exact World.slots_unwind pending

/-- The turn avoids the set, and the call is over or waits in a sweep of another one. -/
theorem elsewhere_of_avoids (h : t.before.Sound) (turn : t.move.turn.Avoids v σ)
    (hbelow : t.move.below = below)
    (ts : List Transition) : t.after.stack = below ∨ Elsewhere below v (ts ++ [t]) t.after := by
  cases hnext : t.move.turn.next with
  | returned | failed | panicked =>
    left
    simp only [after, Move.after, hnext, hbelow]
  | waiting r q =>
    right
    obtain ⟨w, y, rfl, hy, hfront⟩ := turn.sweeps r q hnext
    obtain ⟨source, destination, -, rfl⟩ := (does h).own r _ hnext
    have hinstalls : t.installs w = true := by simp [installs, jump?, hnext]
    have hin : w ∈ t.after.world.queue y.set := by
      have hhead : (t.after.world.watchersOf y.set).front? = some w := hfront
      rw [(sound h).coherent.front?_eq] at hhead
      exact List.mem_of_head? hhead
    refine ⟨w, y, t.move.loan, [], ?_, hy,
      ⟨ts, t, rfl, hbelow, hinstalls, fun _ hu => absurd hu List.not_mem_nil⟩,
      fun hv => absurd ((sound h).coherent.set_unique hin hv) hy⟩
    simp only [after, Move.after, hnext, hbelow, List.suffix_rfl]

theorem bypasses_of_same (same : t.after.world.sets.get? v = t.before.world.sets.get? v) :
    t.Bypasses v below ts where
  there := by rw [World.Exists, World.Exists, same]
  flags := World.flagsOf_congr same
  list := Or.inl (World.queue_congr (by rw [World.list?, World.list?, same]))

/-- The jump of a watchpoint is installed; it is on the list of `v` only if it has come there since. -/
theorem bypasses_of_fired (h : t.before.Sound) (completes : t.Completes w)
    (same : t.after.world.sets.get? v = ((t.before.world.countRedirect w).unlink w).sets.get? v)
    (meanwhile : Meanwhile below w ts between)
    (joined : w ∈ t.before.world.queue v → ∃ j ∈ between, j.change? = some (.join w v)) :
    t.Bypasses v below ts := by
  have hqueue : t.after.world.queue v = (t.before.world.queue v).erase w := by
    rw [← h.coherent.queue_fired]
    exact World.queue_congr (congrArg (Option.map WatchpointSet.watchers) same)
  refine ⟨?_, (World.flagsOf_congr same).trans World.flagsOf_fired, ?_⟩
  · rw [World.Exists, same]
    exact World.exists_fired
  · by_cases hin : w ∈ t.before.world.queue v
    · exact Or.inr ⟨w, between, meanwhile, joined hin, completes, hqueue⟩
    · exact Or.inl (hqueue.trans (List.erase_of_not_mem hin))

end Transition

/-- A call that waits in a sweep of another set waits on, or it is its turn; then it leaves set `v`
    as it is, and is over or waits in a sweep of another set again. -/
theorem Elsewhere.step (u : Elsewhere below v ts t.before) (h : t.before.Sound) :
    (t.move.below = below → t.Bypasses v below ts) ∧
      (t.after.stack = below ∨ Elsewhere below v (ts ++ [t]) t.after) := by
  obtain ⟨w, y, loan, between, hframe, hy, hmeanwhile, hjoined⟩ := u
  rcases Transition.waits_or_turns hframe with hwaits | ⟨hstack, hbelow⟩
  · have hne := Transition.ne_of_suffix hwaits
    refine ⟨fun he => absurd he hne,
      Or.inr ⟨w, y, loan, between ++ [t], Transition.still_waits hwaits, hy,
      hmeanwhile.append hne, fun hin => ?_⟩⟩
    rcases Transition.mem_queue_before h hin with hin | hjoin
    · obtain ⟨j, hj, hc⟩ := hjoined hin
      exact ⟨j, List.mem_append_left _ hj, hc⟩
    · exact ⟨t, List.mem_append_right _ (List.mem_singleton_self t), hjoin⟩
  · obtain ⟨k, a, move, possible⟩ := t
    cases Moment.moves_of_move? possible with
    | call => exact absurd hbelow (Transition.ne_of_suffix hframe)
    | located answer top => cases top.symm.trans hstack
    | @failed pending loan' rest message top =>
      obtain ⟨hx, -⟩ := List.cons.inj (top.symm.trans hstack)
      cases hx
      exact ⟨fun _ => Transition.bypasses_of_same (World.get?_abandon_of_ne (σ := k.world) hy),
        Or.inl hbelow⟩
    | @patched p loan' rest top =>
      obtain ⟨hx, -⟩ := List.cons.inj (top.symm.trans hstack)
      cases hx
      have havoids := World.avoids_sweepOn (σ := (k.world.countRedirect w).unlink w)
        (y := { y with fired := y.fired + 1 }) hy
      have hcompletes : Transition.Completes w ⟨k, .patched, _, possible⟩ :=
        ⟨rfl, by simp [top, Pending.patching?]⟩
      exact ⟨fun _ => Transition.bypasses_of_fired h hcompletes havoids.set hmeanwhile hjoined,
        Transition.elsewhere_of_avoids h havoids hbelow ts⟩

/-! ### A whole call -/

/-- A call that waits in a sweep of another set does so until it is over. -/
theorem Elsewhere.run {us : List Transition} (r : Run k us m) (hk : k.Sound)
    (u : Elsewhere below v ts k)
    (lasting : ∀ t ∈ us, t.before.stack ≠ below) :
    m.stack = below ∨ Elsewhere below v (ts ++ us) m := by
  induction r generalizing ts with
  | nil => exact Or.inr (by rwa [List.append_nil])
  | @cons k m t us start rest ih =>
    subst start
    have hlasting := (List.forall_mem_cons.mp lasting).2
    rcases (u.step hk).2 with hover | helsewhere
    · obtain ⟨rfl, rfl⟩ := rest.eq_nil_of_over hover hlasting
      exact Or.inl hover
    · rw [List.append_cons]
      exact ih (Transition.sound hk) helsewhere hlasting

namespace Transition.TurnOf

variable {c : Call} {start : Transition} {pre : List Transition}

/-- The call has just begun, or it has been in progress. -/
theorem cases_on (h : t.TurnOf c start pre) : pre = [] ∧ t = start ∨
    ∃ inside, pre = start :: inside ∧ Run start.after inside t.before ∧
    t.before.stack ≠ start.before.stack ∧ ∀ u ∈ inside, u.before.stack ≠ start.before.stack := by
  obtain ⟨-, ⟨inside, he, r, lasting⟩, -⟩ := h
  cases pre with
  | nil => exact Or.inl ⟨rfl, (List.cons.inj he).1.symm⟩
  | cons start' pre =>
    obtain ⟨rfl, hinside⟩ := List.cons.inj he
    obtain rfl : inside = pre ++ [t] := hinside
    rw [List.forall_mem_append] at lasting
    cases r with
    | cons _ rest =>
      exact Or.inr ⟨pre, rfl, rest.of_concat.1, lasting.2 t (List.mem_singleton_self t), lasting.1⟩

theorem reached (h : t.TurnOf c start pre) : ∃ us, Run start.before us t.before := by
  rcases h.cases_on with ⟨-, rfl⟩ | ⟨inside, -, r, -, -⟩
  · exact ⟨[], .nil _⟩
  · exact ⟨start :: inside, .cons rfl r⟩

/-- A call whose first turn avoids a set leaves it as it is in all of its turns. -/
theorem bypasses (h : t.TurnOf c start pre) (hstart : start.before.Sound)
    (avoids : (start.before.world.begin c).Avoids v start.before.world) :
    t.Bypasses v start.before.stack pre := by
  have hmove := (start.of_call h.action).2
  have havoids : start.move.turn.Avoids v start.before.world := congrArg Move.turn hmove ▸ avoids
  rcases h.cases_on with ⟨rfl, rfl⟩ | ⟨inside, rfl, r, hne, lasting⟩
  · exact bypasses_of_same havoids.set
  · have hsound := sound hstart
    rcases elsewhere_of_avoids hstart havoids (congrArg Move.below hmove) [] with hover | helsewhere
    · exact absurd ((congrArg Moment.stack (r.eq_nil_of_over hover lasting).2).trans hover) hne
    · rcases helsewhere.run r hsound lasting with hover | helsewhere
      · exact absurd hover hne
      · exact (helsewhere.step (r.sound hsound)).1 h.own

/-- A call whose first turn changes no slot changes none in all of its turns. -/
theorem slots_kept (h : t.TurnOf c start pre)
    (same : (start.before.world.begin c).world.slots = start.before.world.slots) :
    t.after.world.slots = t.before.world.slots := by
  rcases h.cases_on with ⟨rfl, rfl⟩ | ⟨inside, rfl, -, hne, -⟩
  · exact (congrArg (fun u : Move => u.turn.world.slots) (t.of_call h.action).2).trans same
  · refine t.slots_of_answer fun c hc => hne ?_
    exact (congrArg Move.below (t.of_call hc).2).symm.trans h.own

end Transition.TurnOf

end Invalidation
