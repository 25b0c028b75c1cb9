import Invalidation.Proofs.Run.Sound
import Invalidation.Proofs.World.Forlorn

/-! No set leaks. At every moment of every run a set that is there has an owner, or a call waits
    whose sweep will do away with it:

        nobody waits      every set has an owner
        somebody waits    but for the sets that are being destroyed, above or below in the stack

    A panic is no exception, and neither is a call from inside another. -/

namespace Invalidation

variable {s : SetId} {t : Transition} {k m : Moment} {ts : List Transition}

/-- The call sweeps the set and will do away with it. -/
def Waiting.WillDestroy (s : SetId) (x : Waiting) : Prop :=
  ∃ p y, x.pending = .patch p ∧ p.sweep = some y ∧ y.Destroys s

/-- Every set that is there has an owner, or waits for its destruction to end. -/
def Moment.Tended (m : Moment) : Prop := ∀ s, m.world.Forlorn s → ∃ x ∈ m.stack, x.WillDestroy s

theorem Moment.tended_empty : Moment.Tended {} := fun _ hs => by
  obtain ⟨⟨y, hy⟩, -⟩ := hs
  cases hy

namespace Transition

theorem tidy (hk : t.before.Sound) (h : t.before.world.Tidy) : t.after.world.Tidy := by
  obtain ⟨last, e, -⟩ := (does hk).edits
  exact h.edits e

/-- What a turn does not see to, one of the calls below sees to. -/
theorem tends (tidy : t.before.world.Tidy) (h : t.before.Tended) :
    t.move.turn.Tends fun s => ∃ x ∈ t.move.below, x.WillDestroy s := by
  obtain ⟨m, a, v, possible⟩ := t
  -- whoever sees to a set and is not on top is below
  have beneath : ∀ {top : Waiting} {below : List Waiting} {s : SetId}, m.stack = top :: below →
      m.world.Forlorn s → ¬ top.WillDestroy s → ∃ x ∈ below, x.WillDestroy s := by
    intro top below s hstack hs other
    obtain ⟨x, hx, hd⟩ := h s hs
    rcases List.mem_cons.mp (hstack ▸ hx) with rfl | hx
    · exact absurd hd other
    · exact ⟨x, hx, hd⟩
  cases Moment.moves_of_move? possible with
  | call permitted => exact (World.tends_begin tidy (Bool.and_eq_true_iff.mp permitted).1).mono h
  | @patched p loan below top =>
    refine (World.tends_patched p).mono fun s hs => beneath top hs.1 ?_
    rintro ⟨_, y, ⟨⟩, hy, hd⟩
    exact hs.2 y hy hd
  | located answer top =>
    refine (World.tends_located _ answer).mono fun s hs => beneath top hs ?_
    rintro ⟨_, _, ⟨⟩, -⟩
  | @failed pending loan below message top =>
    cases pending with
    | patch p =>
      refine Turn.tends_of_forlorn fun s hs => ?_
      have left := World.forlorn_of_abandon hs
      refine beneath top left.1 ?_
      rintro ⟨_, y, ⟨⟩, hy, hd⟩
      exact left.2 y hy hd
    | locate l =>
      refine Turn.tends_of_forlorn fun s hs => beneath top hs ?_
      rintro ⟨_, _, ⟨⟩, -⟩

theorem tended (tidy : t.before.world.Tidy) (h : t.before.Tended) : t.after.Tended := by
  intro s hs
  rcases tends tidy h s hs with ⟨x, hx, hd⟩ | ⟨r, p, y, hn, hy, hd⟩
  · refine ⟨x, ?_, hd⟩
    rw [after, Move.after]
    dsimp only
    split
    · exact List.mem_cons_of_mem _ hx
    · exact hx
  · refine ⟨⟨.patch p, t.move.loan⟩, ?_, p, y, rfl, hy, hd⟩
    simp only [after, Move.after, hn]
    exact List.mem_cons_self

end Transition

namespace Run

theorem tidy (r : Run k ts m) (hk : k.Sound) (h : k.world.Tidy) : m.world.Tidy :=
  (r.keeps (P := fun m => m.Sound ∧ m.world.Tidy)
    (fun _ h => ⟨Transition.sound h.1, Transition.tidy h.1 h.2⟩) ⟨hk, h⟩).2

theorem tended (r : Run k ts m) (hk : k.Sound) (tidy : k.world.Tidy) (h : k.Tended) : m.Tended :=
  (r.keeps (P := fun m => (m.Sound ∧ m.world.Tidy) ∧ m.Tended)
    (fun _ h => ⟨⟨Transition.sound h.1.1, Transition.tidy h.1.1 h.1.2⟩, Transition.tended h.1.2 h.2⟩)
    ⟨⟨hk, tidy⟩, h⟩).2

/-- While no jump is being installed, whatever set is there has an owner. -/
theorem owned_of_exists (r : Run {} ts m) (idle : ∀ x ∈ m.stack, x.pending.patching? = none)
    (there : m.world.Exists s) : m.world.Owned s := by
  by_contra alone
  obtain ⟨x, hx, p, y, hp, -⟩ :=
    r.tended Moment.sound_empty World.tidy_empty Moment.tended_empty s ⟨there, alone⟩
  have still := idle x hx
  rw [hp] at still
  cases still

end Run

end Invalidation
