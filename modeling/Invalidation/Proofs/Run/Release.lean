import Invalidation.Proofs.Run.Serving
import Invalidation.Proofs.Run.Tended

/-! Shared sets. Any number of handles have a share in a set, and so may the slot it was made for;
    they let go of it in any order. Nothing comes of it as long as there is somebody left; the last
    to let go, whichever it is, has the jumps of all who are registered installed, first come first
    served.

        {h, i, j} ──h──▶ {i, j} ──j──▶ {i} ──i──▶ sweep, and the set goes
        {h, i, j} ──i──▶ {h, j} ──h──▶ {j} ──j──▶ sweep, and the set goes

    What the sweep does can be told from the objects alone, and the objects are the same in whatever
    order the others went before. So the jumps are the same for every order, and so is what is left. -/

namespace Invalidation

namespace World

/-- By these calls all owners of a set let go of it, each of them once. -/
structure Dissolves (σ : World) (s : SetId) (rs : List Call) : Prop where
  releases : ∀ c ∈ rs, c.release?.isSome
  once : (rs.filterMap Call.release?).Nodup
  all : ∀ o, o ∈ rs.filterMap Call.release? ↔ σ.shareOf? o = some s

end World

/-- All owners of a set let go, and the patcher installs every jump without making a call itself. -/
def Moment.dissolving (k : Moment) (s : SetId) (rs : List Call) : List Action :=
  rs.map .call ++ List.replicate (k.world.queue s).length .patched

/-- What is true of a set that has owners at this moment, in whatever order they let go of it. -/
structure Moment.LastReleaseFires (k : Moment) (s : SetId) : Prop where
  /-- As long as somebody else has a share, letting go ends at once, asks for no jump, and does nothing
      to the set or to any watchpoint. -/
  early : ∀ t : Transition, t.before = k → ∀ c o x, t.action = .call c → c.release? = some o →
    k.world.shareOf? o = some s → k.world.shareOf? x = some s → x ≠ o →
    t.move.turn.next = .returned ∧ t.jump? = none ∧ t.after.stack = k.stack ∧
      k.world.SharesApart t.after.world
  /-- The owners can let go in every order, and then each jump can be installed. -/
  possible : ∀ rs, k.world.Dissolves s rs → ∃ us m, Run k us m ∧
    us.map Transition.action = k.dissolving s rs
  /-- Whoever is registered is patched once, in the order of registration, with its own addresses. -/
  fires : ∀ rs, k.world.Dissolves s rs → ∀ us m, Run k us m →
    us.map Transition.action = k.dissolving s rs →
    (jumps us).map Jump.watchpoint = k.world.queue s ∧
      ∀ j ∈ jumps us, k.world.jumpOf? j.watchpoint = some j
  /-- Nothing panics; in the end all calls are over, the set is gone, whoever was registered is off the
      list, and no watchpoint is otherwise changed. -/
  leaves : ∀ rs, k.world.Dissolves s rs → ∀ us m, Run k us m →
    us.map Transition.action = k.dissolving s rs →
    (∀ t ∈ us, t.panics = false) ∧ m.stack = k.stack ∧ ¬ m.world.Exists s ∧
      ∀ w, m.world.watchpoints.get? w = (k.world.watchpoints.get? w).map fun v =>
        if w ∈ k.world.queue s then { v with membership := none } else v
  /-- The order makes no difference to the jumps, nor to anything but who has a share in what. -/
  anyOrder : ∀ rs rs', k.world.Dissolves s rs → k.world.Dissolves s rs' → ∀ us us' m m',
    Run k us m → us.map Transition.action = k.dissolving s rs →
    Run k us' m' → us'.map Transition.action = k.dissolving s rs' →
    jumps us = jumps us' ∧ m.world.SharesApart m'.world

/-! ### What does not depend on who has a share -/

namespace World

variable {σ τ : World} {w : WatchpointId}

theorem SharesApart.fired (h : σ.SharesApart τ) (w : WatchpointId) :
    ((σ.countRedirect w).unlink w).SharesApart ((τ.countRedirect w).unlink w) := by
  obtain ⟨contexts, watchpoints, sets, handles, slots⟩ := σ
  obtain ⟨contexts', watchpoints', sets', handles', slots'⟩ := τ
  obtain ⟨rfl, rfl, rfl⟩ : contexts' = contexts ∧ watchpoints' = watchpoints ∧ sets' = sets :=
    ⟨h.contexts, h.watchpoints, h.sets⟩
  simp only [unlink, countRedirect, count, watchpoint]
  cases ((watchpoints'.get? w).getD default).membership <;> exact ⟨rfl, rfl, rfl⟩

theorem SharesApart.serveAll (h : σ.SharesApart τ) (ws : List WatchpointId) :
    (σ.serveAll ws).SharesApart (τ.serveAll ws) := by
  induction ws generalizing σ τ with
  | nil => exact h
  | cons w ws ih => exact ih (h.fired w)

theorem SharesApart.destroyed (h : σ.SharesApart τ) (s : SetId) :
    (σ.finish s .destroy).SharesApart (τ.finish s .destroy) :=
  ⟨h.contexts, h.watchpoints, congrArg (Store.erase · s) h.sets⟩

theorem SharesApart.jumpOf? (h : σ.SharesApart τ) (w : WatchpointId) : τ.jumpOf? w = σ.jumpOf? w := by
  rw [World.jumpOf?, World.jumpOf?, watchpoint, watchpoint, h.watchpoints, contextOf,
    contextOf, context, context, h.contexts, watchpoint, watchpoint, h.watchpoints]

theorem SharesApart.resolved (h : σ.SharesApart τ) (hw : σ.Resolved w) : τ.Resolved w := by
  rwa [Resolved, h.watchpoints]

end World

/-! ### One owner after the other -/

variable {k m : Moment} {s : SetId} {o x : Owner} {c : Call}

namespace Moment

/-- An owner that is not on loan may let go. -/
theorem permits_release (hc : c.release? = some o) (share : k.world.shareOf? o = some s)
    (free : k.lends o.loan = false) : k.permits c = true := by
  cases c with
  | dropHandle h =>
    obtain rfl := Option.some.inj hc
    simp [permits, World.allows, Call.takes, show k.world.handleSet? h = some s from share,
      show k.lends (.handle h) = false from free]
  | dropSlot i | freeFat i =>
    obtain rfl := Option.some.inj hc
    obtain ⟨n, held, hslot⟩ := World.slot?_of_fatSet? share
    simp [permits, World.allows, Call.takes, hslot, show k.lends (.slot i) = false from free]
  | _ => cases hc

end Moment

namespace Transition

variable {t : Transition}

/-- Letting go of a set that somebody else has a share in ends at once. -/
theorem letsGo_of_other (h : t.before.world.Tidy) (action : t.action = .call c)
    (hc : c.release? = some o) (share : t.before.world.shareOf? o = some s)
    (other : t.before.world.shareOf? x = some s) (hx : x ≠ o) :
    t.move.turn.next = .returned ∧ t.jump? = none ∧ t.after.stack = t.before.stack ∧
      t.before.world.LetsGo o t.after.world := by
  obtain ⟨m, a, v, possible⟩ := t
  obtain rfl : a = .call c := action
  cases Moment.moves_of_move? possible with
  | call =>
    obtain ⟨τ, events, hgo, hbegin⟩ := World.begin_of_release hc share
    rw [hgo.release_of_other h hx other] at hbegin
    have hnext : (m.world.begin c).next = .returned := by rw [hbegin]; rfl
    have hworld : (m.world.begin c).world = τ := by rw [hbegin]; rfl
    refine ⟨hnext, ?_, ?_, ?_⟩
    · simp only [jump?, hnext]
    · simp only [after, Move.after, hnext]
    · show m.world.LetsGo o (m.world.begin c).world
      rwa [hworld]

/-- The last to let go starts the sweep that ends with the set. -/
theorem sweeps_of_last (h : t.before.world.Tidy) (action : t.action = .call c)
    (hc : c.release? = some o) (share : t.before.world.shareOf? o = some s)
    (last : ∀ x, t.before.world.shareOf? x = some s → x = o) :
    t.move.below = t.before.stack ∧ ∃ τ events, t.before.world.LetsGo o τ ∧
      t.move.turn = (τ.sweepOn ⟨s, 0, .destroy⟩).after events := by
  obtain ⟨m, a, v, possible⟩ := t
  obtain rfl : a = .call c := action
  cases Moment.moves_of_move? possible with
  | call =>
    obtain ⟨τ, events, hgo, hbegin⟩ := World.begin_of_release hc share
    rw [hgo.release_of_last h last] at hbegin
    exact ⟨rfl, τ, events, hgo, hbegin⟩

end Transition

namespace World

/-- Once the first has let go, those that are left let go of what there is then. -/
theorem Dissolves.tail {σ τ : World} {rs : List Call} (d : σ.Dissolves s (c :: rs))
    (hc : c.release? = some o) (hgo : σ.LetsGo o τ) : τ.Dissolves s rs := by
  obtain ⟨releases, once, all⟩ := d
  rw [List.filterMap_cons_some hc, List.nodup_cons] at once
  refine ⟨(List.forall_mem_cons.mp releases).2, once.2, fun x => ?_⟩
  have hx := all x
  rw [List.filterMap_cons_some hc, List.mem_cons] at hx
  rw [hgo.shares]
  split
  · next he =>
    subst he
    exact iff_of_false once.1 (Option.some_ne_none s).symm
  · next hne => rw [← hx, or_iff_right hne]

end World

/-- All owners of a set let go of it, in this order. -/
theorem exists_run_dissolving {rs : List Call} (hk : k.Sound) (tidy : k.world.Tidy)
    (owned : rs ≠ []) (resolved : ∀ w ∈ k.world.queue s, k.world.Resolved w)
    (free : ∀ o, k.world.shareOf? o = some s → k.lends o.loan = false) (d : k.world.Dissolves s rs) :
    ∃ us m, Run k us m ∧ us.map Transition.action = k.dissolving s rs ∧
      (∀ t ∈ us, t.panics = false) ∧ (jumps us).map some = (k.world.queue s).map k.world.jumpOf? ∧
      m.stack = k.stack ∧
      ((k.world.serveAll (k.world.queue s)).finish s .destroy).SharesApart m.world := by
  induction rs generalizing k with
  | nil => exact absurd rfl owned
  | cons c rs ih =>
    obtain ⟨o, hc⟩ := Option.isSome_iff_exists.mp (d.releases c List.mem_cons_self)
    have hmem : ∀ x, x ∈ o :: rs.filterMap Call.release? ↔ k.world.shareOf? x = some s := fun x => by
      rw [← d.all x, List.filterMap_cons_some hc]
    have share := (hmem o).mp List.mem_cons_self
    let t := k.calling c (Moment.permits_release hc share (free o share))
    have ht : t.after.Sound := Transition.sound (t := t) hk
    cases rs with
    | nil =>
      have last : ∀ x, k.world.shareOf? x = some s → x = o := fun x hx => by
        simpa using (hmem x).mpr hx
      obtain ⟨hbelow, τ, events, hgo, turn⟩ := Transition.sweeps_of_last (t := t) tidy rfl hc share last
      have hq := hgo.apart.queue s
      obtain ⟨us, m, r, hactions, -, hcalm, hjumps, hstack, hworld⟩ := exists_run_sweep
        (hk.coherent.edits hgo.edits) hq (fun w hw => hgo.apart.resolved (resolved w hw)) turn
      refine ⟨t :: us, m, .cons rfl r, ?_, hcalm, ?_, hstack.trans hbelow, ?_⟩
      · rw [List.map_cons, hactions]
        rfl
      · rw [hjumps]
        exact List.map_congr_left fun w _ => hgo.apart.jumpOf? w
      · rw [hworld]
        exact (hgo.apart.serveAll _).destroyed s
    | cons c' rs =>
      obtain ⟨x, hc'⟩ := Option.isSome_iff_exists.mp
        (d.releases c' (List.mem_cons_of_mem _ List.mem_cons_self))
      have hin : x ∈ (c' :: rs).filterMap Call.release? := by
        rw [List.filterMap_cons_some hc']
        exact List.mem_cons_self
      have hx : x ≠ o := by
        rintro rfl
        have once := d.once
        rw [List.filterMap_cons_some hc, List.nodup_cons] at once
        exact once.1 hin
      obtain ⟨hnext, hjump, hstack, hgo⟩ := Transition.letsGo_of_other (t := t) tidy rfl hc share
        ((hmem x).mp (List.mem_cons_of_mem _ hin)) hx
      have hq := hgo.apart.queue s
      have hfree : ∀ y, t.after.world.shareOf? y = some s → t.after.lends y.loan = false := by
        intro y hy
        rw [hgo.shares] at hy
        split at hy
        · cases hy
        · rw [Moment.lends, hstack]
          exact free y hy
      obtain ⟨us, m, r, hactions, hcalm, hjumps, hm, hworld⟩ := ih ht (tidy.edits hgo.edits)
        (List.cons_ne_nil _ _) (fun w hw => hgo.apart.resolved (resolved w (hq ▸ hw))) hfree
        (d.tail hc hgo)
      refine ⟨t :: us, m, .cons rfl r, ?_, List.forall_mem_cons.mpr ⟨?_, hcalm⟩, ?_,
        hm.trans hstack, ?_⟩
      · rw [List.map_cons, hactions, Moment.dissolving, Moment.dissolving, hq]
        rfl
      · rw [Transition.panics, hnext]
      · rw [map_jumps_cons, hjump, hjumps, hq]
        exact List.map_congr_left fun w _ => hgo.apart.jumpOf? w
      · rw [hq] at hworld
        exact ((hgo.apart.serveAll _).destroyed s).trans hworld

/-! ### The last release -/

namespace Run

variable {ts : List Transition}

/-- Letting go does nothing to a set until the last share goes; then whoever is registered is
    patched, in order, and is off the list. In which order the shares go makes no difference to that. -/
theorem last_release_fires (run : Run {} ts k) (owned : k.world.Owned s)
    (resolved : ∀ w ∈ k.world.queue s, k.world.Resolved w)
    (free : ∀ o, k.world.shareOf? o = some s → k.lends o.loan = false) : k.LastReleaseFires s := by
  have hk := run.sound Moment.sound_empty
  have tidy := run.tidy Moment.sound_empty World.tidy_empty
  -- all that happens is told by the one run there is for each order
  have dissolving : ∀ rs, k.world.Dissolves s rs → ∃ us m, Run k us m ∧
      us.map Transition.action = k.dissolving s rs ∧ (∀ t ∈ us, t.panics = false) ∧
      (jumps us).map some = (k.world.queue s).map k.world.jumpOf? ∧ m.stack = k.stack ∧
      ((k.world.serveAll (k.world.queue s)).finish s .destroy).SharesApart m.world := fun rs d => by
    refine exists_run_dissolving hk tidy ?_ resolved free d
    rintro rfl
    obtain ⟨o, ho⟩ := World.owned_iff.mp owned
    exact absurd ((d.all o).mpr ho) List.not_mem_nil
  have only : ∀ rs, k.world.Dissolves s rs → ∀ us m, Run k us m →
      us.map Transition.action = k.dissolving s rs → (∀ t ∈ us, t.panics = false) ∧
      (jumps us).map some = (k.world.queue s).map k.world.jumpOf? ∧ m.stack = k.stack ∧
        ((k.world.serveAll (k.world.queue s)).finish s .destroy).SharesApart m.world := by
    intro rs d us m r hactions
    obtain ⟨us', m', r', hactions', h⟩ := dissolving rs d
    obtain ⟨rfl, rfl⟩ := r.eq_of_actions r' (hactions.trans hactions'.symm)
    exact h
  refine ⟨?_, ?_, ?_, ?_, ?_⟩
  · rintro t rfl c o x action hc share other hx
    obtain ⟨hnext, hjump, hstack, hgo⟩ := Transition.letsGo_of_other tidy action hc share other hx
    exact ⟨hnext, hjump, hstack, hgo.apart⟩
  · intro rs d
    obtain ⟨us, m, r, hactions, -⟩ := dissolving rs d
    exact ⟨us, m, r, hactions⟩
  · intro rs d us m r hactions
    exact jumps_of_map_some (only rs d us m r hactions).2.1
  · intro rs d us m r hactions
    obtain ⟨hcalm, -, hstack, hworld⟩ := only rs d us m r hactions
    refine ⟨hcalm, hstack, ?_, fun w => ?_⟩
    · simp [World.Exists, hworld.sets, World.finish]
    · rw [hworld.watchpoints]
      exact World.get?_watchpoints_serveAll k.world _ w
  · intro rs rs' d d' us us' m m' r hactions r' hactions'
    obtain ⟨-, hjumps, -, hworld⟩ := only rs d us m r hactions
    obtain ⟨-, hjumps', -, hworld'⟩ := only rs' d' us' m' r' hactions'
    refine ⟨?_, hworld.symm.trans hworld'⟩
    exact (List.map_inj_right fun _ _ => Option.some.inj).mp (hjumps.trans hjumps'.symm)

end Run

/-- A slot and two handles share in a set that two watchpoints wait on. -/
def sharedByThree : List Action :=
  [.call (.createAlone 0 (.scripted "p") ⟨16⟩ ⟨96⟩), .call (.resolve 0), .located (.ok ⟨4112⟩),
    .located (.ok ⟨4192⟩), .call (.createAlone 1 (.scripted "p") ⟨32⟩ ⟨112⟩), .call (.resolve 1),
    .located (.ok ⟨4128⟩), .located (.ok ⟨4208⟩), .call (.newSlot 2 .blind),
      .call (.slotAdd 2 (some 0)),
    .call (.handleOfSlot 2 3), .call (.cloneHandle 3 4), .call (.add 4 (some 1))]

theorem last_release_fires_sharedByThree :
    ∃ ts k, Run {} ts k ∧ k.world.Owned (.ofSlot 2 0) ∧
      (∀ w ∈ k.world.queue (.ofSlot 2 0), k.world.Resolved w) ∧
      (∀ o, k.world.shareOf? o = some (.ofSlot 2 0) → k.lends o.loan = false) ∧
      (∀ rs ∈ [[.dropHandle 3, .freeFat 2, .dropHandle 4], [.dropSlot 2, .dropHandle 4, .dropHandle 3],
        [.dropHandle 4, .dropHandle 3, .freeFat 2]],
        (jumps (k.play (k.dissolving (.ofSlot 2 0) rs))).map Jump.watchpoint = [0, 1]) ∧
      k.LastReleaseFires (.ofSlot 2 0) := by
  have run := Moment.run_play {} sharedByThree
  have owned : (Moment.last {} (Moment.play {} sharedByThree)).world.Owned (.ofSlot 2 0) :=
    Or.inr ⟨2, by decide⟩
  have resolved : ∀ w ∈ (Moment.last {} (Moment.play {} sharedByThree)).world.queue (.ofSlot 2 0),
      (Moment.last {} (Moment.play {} sharedByThree)).world.Resolved w := by decide
  exact ⟨_, _, run, owned, resolved, fun _ _ => rfl, by decide,
    run.last_release_fires owned resolved fun _ _ => rfl⟩

end Invalidation
