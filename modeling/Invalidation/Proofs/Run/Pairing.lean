import Invalidation.Proofs.Run.Sound

/-! At every moment of every run, registration has two sides that agree: an occupied entry of a list
    and the membership of the watchpoint in it. Moments inside a patcher or a link buffer count, and so
    do those after a panic that somebody caught.

        list of s, cell i in generation g, value w  ⟺  membership of w is ⟨s, ⟨i, g⟩⟩

    The right side may also name a set that is gone. It then stands for nothing, and it is the only
    case in which the two differ. -/

namespace Invalidation

/-- Every occupied entry of a list and the membership of the watchpoint in it name each other. -/
structure World.Paired (σ : World) : Prop where
  /-- An occupied cell holds a watchpoint that has not been dropped, and whose membership is this list
      and the key that the cell has now. -/
  entry : ∀ s l i c w, σ.list? s = some l → l.cells[i]? = some c → c.value = some w →
    (σ.watchpoint w).held = true ∧ (σ.watchpoint w).membership = some ⟨s, ⟨i, c.generation⟩⟩
  /-- A membership that names a list which is there has the entry behind its key, and taking that entry
      out gives back the watchpoint. -/
  membership : ∀ w s k l, (σ.watchpoint w).membership = some ⟨s, k⟩ → σ.list? s = some l →
    l.get? k = some w ∧ (l.remove k).2 = some w
  /-- The occupied cells are those that are met on the way through the list. -/
  linked : ∀ s l w, σ.list? s = some l →
    (w ∈ l.toList ↔ ∃ (i : Nat) (c : WatchList.Cell WatchpointId),
      l.cells[i]? = some c ∧ c.value = some w)
  /-- Nobody is on two lists. -/
  oneList : ∀ w s t, w ∈ σ.queue s → w ∈ σ.queue t → s = t
  /-- Nobody is twice on one list. -/
  once : ∀ s, (σ.queue s).Nodup

theorem WatchList.get?_eq_of_cell {α : Type} {l : WatchList α} {i : Nat} {c : WatchList.Cell α} {a : α}
    (hc : l.cells[i]? = some c) (ha : c.value = some a) : l.get? ⟨i, c.generation⟩ = some a := by
  simp [WatchList.get?, hc, ha]

namespace World

variable {σ : World} {w : WatchpointId}

theorem watchpoint_of_tie? {m : Option Membership} (h : σ.tie? w = some (true, m)) :
    (σ.watchpoint w).held = true ∧ (σ.watchpoint w).membership = m := by
  obtain ⟨v, hv, he⟩ := Option.map_eq_some_iff.mp h
  rw [watchpoint, hv]
  exact Prod.mk.inj he

theorem Coherent.paired (h : σ.Coherent) : σ.Paired where
  entry s l i c w hl hc hw :=
    watchpoint_of_tie? (h.inward s l ⟨i, c.generation⟩ w hl (WatchList.get?_eq_of_cell hc hw))
  membership w s k l hm hl := by
    obtain ⟨b, ht⟩ := tie?_eq_some_of_membership hm
    have hk := h.outward w b s k l ht hl
    exact ⟨hk, ((h.sound s l hl).remove_of_get? hk).2.1⟩
  linked s l w hl := by
    rw [← queue_of_list? hl, h.mem_queue_iff]
    constructor
    · rintro ⟨l', k, hl', hk⟩
      obtain rfl := Option.some.inj (hl.symm.trans hl')
      obtain ⟨c, hc, hw, -⟩ := WatchList.entryAt_eq_some.mp ((WatchList.get?_eq_some_iff l k w).mp hk)
      exact ⟨k.index, c, hc, hw⟩
    · rintro ⟨i, c, hc, hw⟩
      exact ⟨l, _, hl, WatchList.get?_eq_of_cell hc hw⟩
  oneList w s t := h.set_unique
  once := h.nodup_queue

end World

/-- At every moment of every run, entries and memberships name each other. -/
theorem Run.paired_at_every_moment {ts : List Transition} {m : Moment} (r : Run {} ts m) :
    m.world.Paired :=
  (r.sound Moment.sound_empty).coherent.paired

/-- A sweep whose patcher drops one watchpoint, registers another in its place, and then fails. -/
def brokenOffSweep : List Action :=
  [.call (.createAlone 0 (.scripted "p") ⟨16⟩ ⟨96⟩), .call (.resolve 0), .located (.ok ⟨4112⟩),
    .located (.ok ⟨4192⟩), .call (.createAlone 1 (.scripted "p") ⟨32⟩ ⟨112⟩), .call (.newSet 2 .blind),
    .call (.add 2 (some 0)), .call (.add 2 (some 1)), .call (.fireAll 2), .call (.dropWatchpoint 1),
    .call (.createAlone 3 (.scripted "p") ⟨48⟩ ⟨128⟩), .call (.add 2 (some 3)), .failed "no memory"]

theorem paired_brokenOffSweep :
    ∃ ts m, Run {} ts m ∧ m.stack = [] ∧ m.world.queue (.ofHandle 2) = [0, 3] ∧
      (m.world.watchpoint 3).membership = some ⟨.ofHandle 2, ⟨1, 1⟩⟩ ∧ m.world.Paired :=
  ⟨_, _, Moment.run_play {} brokenOffSweep, by decide, by decide, by decide,
    (Moment.run_play {} brokenOffSweep).paired_at_every_moment⟩

end Invalidation
