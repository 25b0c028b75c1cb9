import Invalidation.Proofs.Run.Moment
import Invalidation.Proofs.World.Queue

/-! What holds at every moment of every run: the world is coherent, and a sweep that will strike off
    its set has a set that nobody owns any more. Neither a panic nor a call from inside a waiting one
    is an exception.

    From this come the two laws that all else rests on: a transition does to every queue what its
    change says, and no more; and the jump that it asks for is that of a watchpoint with addresses. -/

namespace Invalidation

/-- What holds at every moment of every run. -/
structure Moment.Sound (m : Moment) : Prop where
  coherent : m.world.Coherent
  ready : ∀ x ∈ m.stack, ∀ p s, x.pending = .patch p → p.sweep = some s → s.Ready m.world

theorem Moment.sound_empty : Moment.Sound {} where
  coherent := World.coherent_empty
  ready _ hx := by cases hx

namespace Transition

variable {t : Transition}

/-- What a transition amounts to. -/
theorem does (h : t.before.Sound) : t.move.turn.Does t.before.world t.change?.toList := by
  obtain ⟨m, a, v, possible⟩ := t
  cases Moment.moves_of_move? possible with
  | call permitted => exact World.does_begin h.coherent (Bool.and_eq_true_iff.mp permitted).1
  | @patched p loan below top =>
    have hd := World.does_patched (h.ready ⟨.patch p, loan⟩ (by simp [top]) p · rfl)
    simpa [change?, top, Pending.patching?] using hd
  | located answer top => exact (World.settles_located _ answer).does
  | @failed pending loan below message top =>
    cases pending with
    | locate l =>
      have e : World.Edits m.world (none : Option Change).toList m.world := .refl _
      exact Turn.does_panic e fun _ hc => by cases hc
    | patch p => exact World.does_abandon (h.ready ⟨.patch p, loan⟩ (by simp [top]) p · rfl) rfl

/-- The calls that go on waiting were waiting before. -/
theorem below_subset (t : Transition) : ∀ x ∈ t.move.below, x ∈ t.before.stack := by
  obtain ⟨m, a, v, possible⟩ := t
  intro x hx
  cases Moment.moves_of_move? possible with
  | call => exact hx
  | patched top | located _ top | failed _ top => exact top ▸ List.mem_cons_of_mem _ hx

theorem mem_stack_after {x : Waiting} (hx : x ∈ t.after.stack) :
    x ∈ t.move.below ∨ ∃ r, t.move.turn.next = .waiting r x.pending := by
  simp only [after, Move.after] at hx
  split at hx
  · next r pending hn =>
    rcases List.mem_cons.mp hx with rfl | hx
    · exact Or.inr ⟨r, hn⟩
    · exact Or.inl hx
  · exact Or.inl hx

theorem sound (h : t.before.Sound) : t.after.Sound := by
  have hd := does h
  obtain ⟨last, e, -⟩ := hd.edits
  refine ⟨h.coherent.edits e, fun x hx p s hp hs => ?_⟩
  rcases mem_stack_after hx with hx | ⟨r, hn⟩
  · exact (h.ready x (t.below_subset x hx) p s hp hs).edits e
  · exact hd.ready r p s (hp ▸ hn) hs

/-- Only the failure of a link buffer ends a call without cutting short what fires; it changes
    nothing. -/
theorem unchanged_of_located (whole : t.isCut = false) (cut : t.move.turn.isCut = true) :
    t.after.world = t.before.world ∧ t.change? = none := by
  obtain ⟨m, a, v, possible⟩ := t
  cases Moment.moves_of_move? possible with
  | call | patched | located => exact absurd (whole.symm.trans cut) Bool.false_ne_true
  | @failed pending loan below message top =>
    cases pending with
    | locate l => exact ⟨rfl, rfl⟩
    | patch p => simp [isCut, failing?, top, Pending.patching?] at whole

/-- A transition does to every queue what its change says; if it is cut short, it may besides empty the
    queue of a set that it strikes off. -/
theorem queue_after (h : t.before.Sound) :
    ∃ struck : Option SetId, (t.isCut = false → struck = none) ∧
      ∀ s, t.after.world.queue s = if struck = some s then [] else
        t.change?.toList.foldl (fun ws c => c.on s ws) (t.before.world.queue s) := by
  by_cases hc : t.isCut = false ∧ t.move.turn.isCut = true
  · obtain ⟨hw, hn⟩ := unchanged_of_located hc.1 hc.2
    exact ⟨none, fun _ => rfl, fun s => by simp [hw, hn]⟩
  · obtain ⟨last, e, hl⟩ := (does h).edits
    have hq : ∀ s, t.after.world.queue s = (t.change?.toList ++ last.toList).foldl
        (fun ws c => c.on s ws) (t.before.world.queue s) := h.coherent.queue_edits e
    simp only [List.foldl_append] at hq
    cases last with
    | none => exact ⟨none, fun _ => rfl, hq⟩
    | some c =>
      obtain ⟨x, rfl | ⟨rfl, hcut⟩⟩ := hl c rfl
      · exact ⟨none, fun _ => rfl, hq⟩
      · refine ⟨some x, fun hw => absurd ⟨hw, hcut⟩ hc, fun s => ?_⟩
        simp only [Option.some.injEq]
        exact hq s

/-- A transition that is not cut short does to every queue just what its change says. -/
theorem queue_of_whole (h : t.before.Sound) (whole : t.isCut = false) (s : SetId) :
    t.after.world.queue s =
      t.change?.toList.foldl (fun ws c => c.on s ws) (t.before.world.queue s) := by
  obtain ⟨struck, hs, hq⟩ := queue_after h
  rw [hq, hs whole]
  rfl

/-- Who stands in some queue afterwards has not just left. -/
theorem not_left_of_mem (h : t.before.Sound) {w : WatchpointId} {s : SetId}
    (hw : w ∈ t.after.world.queue s) : t.change? ≠ some (.leave w) := by
  intro hc
  obtain ⟨struck, -, hq⟩ := queue_after h
  rw [hq, hc] at hw
  split at hw
  · cases hw
  · exact (h.coherent.nodup_queue s).not_mem_erase hw

/-- The jump that a transition asks for is between the addresses of its watchpoint, and the patcher of
    its watchpoint installs it. -/
theorem own_jump (h : t.before.Sound) {j : Jump} (hj : t.jump? = some j) :
    (t.after.world.watchpoint j.watchpoint).addresses? = some (j.source, j.destination) ∧
      (t.after.world.contextOf j.watchpoint).patcher = j.patcher := by
  rw [jump?] at hj
  split at hj
  · next patcher source destination p hn =>
    obtain ⟨source', destination', ha, hr⟩ := (does h).own _ _ hn
    injection hr with hp hs hd
    rw [← Option.some.inj hj, hp, hs, hd]
    exact ⟨ha, rfl⟩
  · cases hj

end Transition

theorem Run.sound {m m' : Moment} {ts : List Transition} (r : Run m ts m') (h : m.Sound) : m'.Sound :=
  r.keeps (fun _ => Transition.sound) h

theorem Run.sound_of_mem {m m' : Moment} {ts : List Transition} {t : Transition} (r : Run m ts m')
    (h : m.Sound) (ht : t ∈ ts) : t.before.Sound := by
  obtain ⟨before, rest, rfl⟩ := List.append_of_mem ht
  obtain ⟨k, r₁, r₂⟩ := r.split
  cases r₂ with
  | cons start _ => exact start ▸ r₁.sound h

end Invalidation
