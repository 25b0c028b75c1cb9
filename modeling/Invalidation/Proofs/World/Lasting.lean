import Invalidation.Proofs.World.Queue

/-! What lasts. A set that is there stays there until an edit does away with it, whatever happens to
    its list; and a watchpoint that has been dropped stays dropped, so that it joins no list again. -/

namespace Invalidation

/-- The change does away with a set. -/
def Change.IsEnd : Change → Prop
  | .retire _ | .vanish _ => True
  | _ => False

namespace World

variable {σ τ : World} {s : SetId} {w : WatchpointId}

/-- The set is there. -/
def Exists (σ : World) (s : SetId) : Prop := ∃ t, σ.sets.get? s = some t

theorem exists_iff_list? : σ.Exists s ↔ ∃ l, σ.list? s = some l := by
  simp [Exists, list?]

/-- The watchpoint has been dropped. -/
def Dropped (σ : World) (w : WatchpointId) : Prop := ∃ m, σ.tie? w = some (false, m)

/-- The watchpoint has addresses. -/
def Resolved (σ : World) (w : WatchpointId) : Prop :=
  ((σ.watchpoints.get? w).bind Watchpoint.addresses?).isSome

instance : DecidablePred σ.Resolved := fun _ => inferInstanceAs (Decidable (_ = true))

theorem resolved_iff :
    σ.Resolved w ↔ ∃ v, σ.watchpoints.get? w = some v ∧ v.addresses?.isSome := by
  rw [Resolved, Option.isSome_bind]
  cases σ.watchpoints.get? w <;> simp

theorem Resolved.addresses (h : σ.Resolved w) :
    ∃ source destination, (σ.watchpoint w).addresses? = some (source, destination) := by
  obtain ⟨v, hv, ha⟩ := resolved_iff.mp h
  obtain ⟨⟨source, destination⟩, ha⟩ := Option.isSome_iff_exists.mp ha
  exact ⟨source, destination, by rw [World.watchpoint, hv, Option.getD_some, ha]⟩

theorem exists_put {t : SetId} {x : WatchpointSet} (h : σ.Exists s) :
    Exists { σ with sets := σ.sets.put t x } s := by
  obtain ⟨y, hy⟩ := h
  unfold Exists
  rw [Store.get?_put]
  split
  · exact ⟨x, rfl⟩
  · exact ⟨y, hy⟩

theorem exists_modifySet {t : SetId} {f : WatchpointSet → WatchpointSet} (h : σ.Exists s) :
    (σ.modifySet t f).Exists s := by
  obtain ⟨y, hy⟩ := h
  unfold Exists modifySet
  rw [Store.get?_modify, hy]
  split
  · exact ⟨f y, rfl⟩
  · exact ⟨y, rfl⟩

/-- A set stays there unless an edit does away with a set. -/
theorem Edit.exists {c : Option Change} (e : Edit σ c τ) (h : σ.Exists s)
    (lasting : ∀ x, c = some x → ¬ x.IsEnd) : τ.Exists s := by
  cases e with
  | openContext | count | appear | locate | letGo | newHandle | newSlot | store | dropHandle
  | dropSlot => exact h
  | unlink w =>
    rw [World.unlink]
    split
    · exact h
    · exact exists_modifySet h
  | link | watch | «break» => exact exists_modifySet h
  | newSet | promote => exact exists_put h
  | erase | discard => exact absurd trivial (lasting _ rfl)

theorem Edits.exists {cs : List Change} (e : Edits σ cs τ) (h : σ.Exists s)
    (lasting : ∀ c ∈ cs, ¬ c.IsEnd) : τ.Exists s := by
  induction e with
  | refl => exact h
  | tail _ last ih =>
    refine last.exists (ih fun c hc => lasting c (List.mem_append_left _ hc)) fun x hx => ?_
    exact lasting x (List.mem_append_right _ (by simp [hx]))

/-- A watchpoint that has been dropped stays dropped. -/
theorem Edit.dropped {c : Option Change} (e : Edit σ c τ) (h : σ.Dropped w) : τ.Dropped w := by
  obtain ⟨m, hm⟩ := h
  have hmap : ∀ {x : WatchpointId} {f : Watchpoint → Watchpoint},
      (∀ v, v.held = false → (f v).held = false) → (σ.modifyWatchpoint x f).Dropped w := by
    intro x f hf
    unfold Dropped
    rw [tie?_modifyWatchpoint]
    split
    · obtain ⟨v, hv, he⟩ := Option.map_eq_some_iff.mp hm
      refine ⟨(f v).membership, ?_⟩
      rw [hv, Option.map_some, hf v (Prod.mk.inj he).1]
    · exact ⟨m, hm⟩
  cases e with
  | openContext | count | watch | «break» | newSet | newHandle | newSlot | promote | store
  | dropHandle | dropSlot | erase | discard => exact ⟨m, hm⟩
  | @appear x v new off =>
    refine ⟨m, ?_⟩
    rw [tie?, Store.get?_put, if_neg]
    · exact hm
    · rintro rfl
      rw [tie?, new] at hm
      cases hm
  | locate => exact hmap fun _ hv => hv
  | letGo => exact hmap fun _ _ => rfl
  | unlink x =>
    rw [Dropped, tie?_unlink, hm]
    split <;> exact ⟨_, rfl⟩
  | @link t x v owned known held off => exact hmap fun v hv => hv

theorem Edits.dropped {cs : List Change} (e : Edits σ cs τ) (h : σ.Dropped w) : τ.Dropped w := by
  induction e with
  | refl => exact h
  | tail _ last ih => exact last.dropped ih

theorem Resolved.modify {x : WatchpointId} {f : Watchpoint → Watchpoint} (h : σ.Resolved w)
    (hf : ∀ v, v.addresses?.isSome → (f v).addresses?.isSome) :
    (σ.modifyWatchpoint x f).Resolved w := by
  obtain ⟨v, hv, ha⟩ := resolved_iff.mp h
  rw [resolved_iff, modifyWatchpoint, Store.get?_modify]
  split
  · exact ⟨f v, by rw [hv, Option.map_some], hf v ha⟩
  · exact ⟨v, hv, ha⟩

/-- A watchpoint that has addresses keeps having some. -/
theorem Edit.resolved {c : Option Change} (e : Edit σ c τ) (h : σ.Resolved w) : τ.Resolved w := by
  cases e with
  | openContext | count | watch | «break» | newSet | newHandle | newSlot | promote | store
  | dropHandle | dropSlot | erase | discard => exact h
  | @appear x v new off =>
    obtain ⟨u, hu, ha⟩ := resolved_iff.mp h
    refine resolved_iff.mpr ⟨u, ?_, ha⟩
    rw [Store.get?_put, if_neg]
    · exact hu
    · rintro rfl
      rw [new] at hu
      cases hu
  | locate => exact h.modify fun _ _ => rfl
  | letGo => exact h.modify fun _ ha => ha
  | unlink x =>
    rw [World.unlink]
    split
    · exact h
    · exact h.modify fun _ ha => ha
  | link => exact Resolved.modify (σ := σ.modifySet _ _) h fun _ ha => ha

theorem Edits.resolved {cs : List Change} (e : Edits σ cs τ) (h : σ.Resolved w) : τ.Resolved w := by
  induction e with
  | refl => exact h
  | tail _ last ih => exact last.resolved ih

end World

end Invalidation
