import Invalidation.Proofs.World.Sweeps

/-! A set that has lost its owners. What is left of it is the list that its last sweep works off,
    and the memberships of those on the list. Nobody can join it, and no turn strikes it off but
    that sweep:

        turn of anybody else ──▶ the list stays as it is, or somebody leaves it
        membership of w      ──▶ stays until w leaves; then none until w joins another list -/

namespace Invalidation

/-- The sweep is the one that will strike the set off. -/
def Sweep.Destroys (s : SetId) (x : Sweep) : Prop := x.set = s ∧ x.ending = .destroy

/-- A turn spares a set if it leaves the list alone and leaves no sweep behind that strikes the set
    off. -/
structure Turn.Spares (s : SetId) (σ : World) (t : Turn) : Prop where
  list : t.world.list? s = σ.list? s
  sweeps : ∀ r p x, t.next = .waiting r (.patch p) → p.sweep = some x → ¬ x.Destroys s

variable {σ τ : World} {s : SetId} {w : WatchpointId} {c : Option Change} {cs : List Change}

/-! ### Turns that spare a set -/

namespace Turn

variable {t : Turn}

theorem Spares.after (h : t.Spares s σ) (events : List LogEvent) : (t.after events).Spares s σ :=
  ⟨h.list, h.sweeps⟩

theorem Spares.trans (h : t.Spares s τ) (same : τ.list? s = σ.list? s) : t.Spares s σ :=
  ⟨h.list.trans same, h.sweeps⟩

theorem spares_of_settled (list : t.world.list? s = σ.list? s)
    (still : ∀ r p, t.next ≠ .waiting r (.patch p)) : t.Spares s σ :=
  ⟨list, fun r p _ hn => absurd hn (still r p)⟩

theorem spares_done (same : τ.list? s = σ.list? s) : τ.done.Spares s σ :=
  spares_of_settled same fun _ _ => Next.noConfusion

theorem spares_panic {fault : Fault} (same : τ.list? s = σ.list? s) : (τ.panic fault).Spares s σ :=
  spares_of_settled same fun _ _ => Next.noConfusion

end Turn

namespace World

open Turn

theorem list?_erase_of_ne {x : SetId} (other : x ≠ s) :
    list? { σ with sets := σ.sets.erase x } s = σ.list? s := by
  rw [list?, Store.get?_erase, if_neg other]
  rfl

theorem list?_abandon {sweep : Option Sweep} (other : ∀ x, sweep = some x → ¬ x.Destroys s) :
    (σ.abandon sweep).list? s = σ.list? s := by
  unfold abandon
  split
  · next x n => exact list?_erase_of_ne fun he => other ⟨x, n, .destroy⟩ rfl ⟨he, rfl⟩
  · rfl

theorem list?_finish {x : SetId} {ending : Ending} (other : ending = .destroy → x ≠ s) :
    (σ.finish x ending).list? s = σ.list? s := by
  cases ending with
  | rest => rfl
  | invalidate => exact list?_modifyFlags σ x s _
  | destroy => exact list?_erase_of_ne (other rfl)

theorem spares_fire (w : WatchpointId) {sweep : Option Sweep}
    (other : ∀ x, sweep = some x → ¬ x.Destroys s) : (σ.fire w sweep).Spares s σ := by
  cases ha : (σ.watchpoint w).addresses? with
  | none =>
    rw [fire_of_unresolved ha]
    exact spares_panic (list?_abandon other)
  | some a =>
    rw [fire_of_resolved ha]
    refine ⟨rfl, fun r p x hn hx => ?_⟩
    cases hn
    exact other x hx

/-- A sweep that goes on spares every set but the one that it strikes off itself. -/
theorem spares_sweepOn {x : Sweep} (other : ¬ x.Destroys s) : (σ.sweepOn x).Spares s σ := by
  cases hf : (σ.watchersOf x.set).front? with
  | some w =>
    rw [sweepOn_of_front hf]
    exact spares_fire w fun y hy => Option.some.inj hy ▸ other
  | none =>
    rw [sweepOn_of_drained hf]
    exact (spares_done (list?_finish fun he hs => other ⟨hs, he⟩)).after _

theorem spares_release {x : SetId} (other : x ≠ s) : (σ.release x).Spares s σ := by
  rw [release]
  split
  · exact spares_sweepOn fun h => other h.1
  · exact spares_done rfl

theorem spares_notifyWrite (x : SetId) : (σ.notifyWrite x).Spares s σ := by
  rw [notifyWrite]
  split
  · exact spares_sweepOn fun h => Ending.noConfusion h.2
  · exact spares_panic rfl

theorem spares_slotNotifyWrite (i : SlotId) : (σ.slotNotifyWrite i).Spares s σ := by
  unfold slotNotifyWrite
  split
  · split
    · exact spares_done rfl
    · exact spares_done rfl
  · split
    · exact spares_notifyWrite _
    · exact spares_done rfl
  · exact spares_done rfl

theorem spares_onHandle {h : HandleId} {f : SetId → Turn}
    (hf : ∀ x, σ.handleSet? h = some x → (f x).Spares s σ) : (σ.onHandle h f).Spares s σ := by
  rw [onHandle]
  split
  · next x hx => exact hf x hx
  · exact spares_done rfl

/-- Going on after a jump spares every set but the one that the call itself strikes off. -/
theorem spares_patched {p : Patching} (other : ∀ x, p.sweep = some x → ¬ x.Destroys s) :
    (σ.patched p).Spares s ((σ.countRedirect p.watchpoint).unlink p.watchpoint) := by
  rw [patched]
  split
  · exact spares_done rfl
  · next x hx => exact spares_sweepOn fun h => other x hx h

/-- A call that fires or sweeps changes no list by itself. -/
theorem change?_of_loud {call : Call} (loud : ¬ call.isQuiet = true) : σ.change? call = none := by
  cases call with
  | add | slotAdd | dropWatchpoint => exact absurd rfl loud
  | _ => rfl

theorem Sweeps.loud {call : Call} {ending : Ending} (h : σ.Sweeps call s ending) :
    ¬ call.isQuiet = true := by
  cases h <;> exact Bool.false_ne_true

theorem ne_of_unowned {x : SetId} (alone : ¬ σ.Owned s) (hx : σ.Owned x) : x ≠ s := by
  rintro rfl
  exact alone hx

/-- Whatever fires or sweeps spares a set that nobody owns. -/
theorem spares_begin (alone : ¬ σ.Owned s) {call : Call} (loud : ¬ call.isQuiet = true) :
    (σ.begin call).Spares s σ := by
  cases call with
  | fire w => exact spares_fire w fun _ hx => by cases hx
  | notifyWrite h => exact spares_onHandle fun x _ => spares_notifyWrite x
  | fireAll h => exact spares_onHandle fun x _ => spares_sweepOn fun hx => Ending.noConfusion hx.2
  | slotNotifyWrite i => exact spares_slotNotifyWrite i
  | dropHandle h =>
    simp only [begin, dropHandle]
    split
    · next x hx => exact (spares_release (ne_of_unowned alone (Or.inl ⟨h, hx⟩))).trans rfl
    · exact spares_done rfl
  | dropSlot i =>
    simp only [begin, dropSlot]
    split
    · next x hx => exact (spares_release (ne_of_unowned alone (Or.inr ⟨i, hx⟩))).trans rfl
    · exact spares_done rfl
  | freeFat i =>
    simp only [begin, freeFat]
    split
    · exact spares_panic rfl
    · next x hx =>
      have hspares := spares_release (σ := σ.store i (.thin (σ.flagsAfterFree x (σ.owners x > 1))))
        (ne_of_unowned alone (Or.inr ⟨i, hx⟩))
      exact (hspares.trans (τ := σ.store i _) (σ := σ) rfl).after _
  | _ => exact absurd rfl loud

/-! ### Nobody joins a set without owners -/

/-- Whoever joins a set that has been made before finds it owned. -/
theorem Edits.owned_of_join (e : Edits σ cs τ) (issued : σ.Issued s) (joins : .join w s ∈ cs) :
    σ.Owned s := by
  induction e with
  | refl => cases joins
  | @tail _ _ cs c before last ih =>
    rcases List.mem_append.mp joins with hb | hl
    · exact ih hb
    · obtain rfl : c = some (.join w s) := Option.mem_toList.mp hl
      cases last with
      | link owned => exact before.owned owned issued

/-! ### What becomes of a membership -/

theorem membership_modifyWatchpoint {x : WatchpointId} {f : Watchpoint → Watchpoint}
    (same : ∀ v, (f v).membership = v.membership) :
    ((σ.modifyWatchpoint x f).watchpoint w).membership = (σ.watchpoint w).membership := by
  rw [watchpoint, modifyWatchpoint, Store.get?_modify, watchpoint]
  split
  · cases σ.watchpoints.get? w <;> simp [same]
  · rfl

theorem membership_link {t : SetId} {x : WatchpointId} {v : Watchpoint}
    (known : σ.watchpoints.get? x = some v) :
    ((σ.link t x).watchpoint w).membership =
      if x = w then some ⟨t, ((σ.watchersOf t).pushBack x).2⟩ else (σ.watchpoint w).membership := by
  have hget : (σ.link t x).watchpoints.get? w = if x = w then
      (σ.watchpoints.get? w).map fun v =>
        { v with membership := some ⟨t, ((σ.watchersOf t).pushBack x).2⟩ }
      else σ.watchpoints.get? w := Store.get?_modify _ _ _ _
  rw [watchpoint, hget]
  split
  · next e =>
    rw [← e, known]
    rfl
  · rfl

/-- The membership of a watchpoint stays what it is, unless the watchpoint leaves or joins a list. -/
theorem Edit.membership (e : Edit σ c τ) (w : WatchpointId) :
    (c ≠ some (.leave w) ∧ (τ.watchpoint w).membership = (σ.watchpoint w).membership) ∨
      (c = some (.leave w) ∧ (τ.watchpoint w).membership = none) ∨
      ∃ s k, c = some (.join w s) ∧ (σ.watchpoint w).membership = none ∧
        (τ.watchpoint w).membership = some ⟨s, k⟩ := by
  cases e with
  | openContext | count | watch | «break» | newSet | newHandle | newSlot | promote | store
  | dropHandle | dropSlot | erase | discard => exact Or.inl ⟨by simp, rfl⟩
  | @appear x v new off =>
    refine Or.inl ⟨by simp, ?_⟩
    rw [watchpoint, Store.get?_put, watchpoint]
    split
    · next e =>
      rw [← e, new]
      exact off
    · rfl
  | locate | letGo => exact Or.inl ⟨by simp, membership_modifyWatchpoint fun _ => rfl⟩
  | unlink x =>
    by_cases hx : x = w
    · subst hx
      exact Or.inr (Or.inl ⟨rfl, membership_unlink σ x⟩)
    · refine Or.inl ⟨by simpa using hx, ?_⟩
      rw [membership_eq, tie?_unlink, if_neg hx, membership_eq]
  | @link t x v owned known held off =>
    by_cases hx : x = w
    · subst hx
      refine Or.inr (Or.inr ⟨t, ((σ.watchersOf t).pushBack x).2, rfl, ?_, ?_⟩)
      · rw [watchpoint, known]
        exact off
      · rw [membership_link known, if_pos rfl]
    · refine Or.inl ⟨by simp, ?_⟩
      rw [membership_link known, if_neg hx]

/-- Who is on a list stays on it until it leaves. -/
theorem Edits.still_on {m : Membership} (e : Edits σ cs τ) (on : (σ.watchpoint w).membership = some m)
    (stays : .leave w ∉ cs) : (τ.watchpoint w).membership = some m := by
  induction e with
  | refl => exact on
  | @tail _ _ cs c before last ih =>
    have hb := ih fun h => stays (List.mem_append_left _ h)
    rcases last.membership w with ⟨-, h⟩ | ⟨rfl, -⟩ | ⟨_, _, -, hoff, -⟩
    · exact h.trans hb
    · exact absurd (List.mem_append_right _ (by simp)) stays
    · cases hoff.symm.trans hb

/-- Who is on no list is on none until it joins one. -/
theorem Edits.still_off (e : Edits σ cs τ) (off : (σ.watchpoint w).membership = none)
    (apart : ∀ s, .join w s ∉ cs) : (τ.watchpoint w).membership = none := by
  induction e with
  | refl => exact off
  | @tail _ _ cs c before last ih =>
    have hb := ih fun s h => apart s (List.mem_append_left _ h)
    rcases last.membership w with ⟨-, h⟩ | ⟨-, h⟩ | ⟨s, _, rfl, -⟩
    · exact h.trans hb
    · exact h
    · exact absurd (List.mem_append_right _ (by simp)) (apart s)

/-- Who leaves is on no list until it joins one. -/
theorem Edits.off_of_leave (e : Edits σ cs τ) (leaves : .leave w ∈ cs) (apart : ∀ s, .join w s ∉ cs) :
    (τ.watchpoint w).membership = none := by
  induction e with
  | refl => cases leaves
  | @tail _ _ cs c before last ih =>
    rcases List.mem_append.mp leaves with hb | hl
    · exact last.edits.still_off (ih hb fun s h => apart s (List.mem_append_left _ h))
        fun s h => apart s (List.mem_append_right _ h)
    · obtain rfl : c = some (.leave w) := Option.mem_toList.mp hl
      cases last with
      | unlink => exact membership_unlink _ w

/-- Who is on the list of a set and has not joined it meanwhile was on it before, and has not left. -/
theorem Edits.on_before {k : WatchList.Key} (e : Edits σ cs τ)
    (on : (τ.watchpoint w).membership = some ⟨s, k⟩) (apart : .join w s ∉ cs) :
    (σ.watchpoint w).membership = some ⟨s, k⟩ ∧ .leave w ∉ cs := by
  induction e with
  | refl => exact ⟨on, List.not_mem_nil⟩
  | @tail _ _ cs c before last ih =>
    rcases last.membership w with ⟨hc, h⟩ | ⟨-, h⟩ | ⟨x, j, rfl, -, h⟩
    · obtain ⟨hb, hcs⟩ := ih (h.symm.trans on) fun hj => apart (List.mem_append_left _ hj)
      refine ⟨hb, fun hl => ?_⟩
      exact (List.mem_append.mp hl).elim hcs fun hl => hc (Option.mem_toList.mp hl)
    · cases h.symm.trans on
    · cases h.symm.trans on
      exact absurd (List.mem_append_right _ (by simp)) apart

end World

end Invalidation
