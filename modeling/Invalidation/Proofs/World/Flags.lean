import Invalidation.Proofs.World.Lasting

/-! What becomes of flags. An edit does one of three things to the flags of a set: it leaves them alone,
    it marks the set watched, or it breaks the assumption, and this last only where nobody is registered
    any more. Two laws rest on that.

        registered on s ──▶ s is watched
        flags of a set or slot ──edit──▶ flags that they may become

    A slot keeps flags of its own or shows those of its set, and goes from one to the other by copying
    them, so the second law holds of slots across any number of sets. -/

namespace Invalidation

/-- Nobody comes into an empty queue but by joining it. -/
theorem Change.on_nil {s : SetId} {c : Change} (h : ∀ w, c ≠ .join w s) : c.on s [] = [] := by
  cases c with
  | join w t =>
    rw [Change.on, if_neg]
    rintro rfl
    exact h w rfl
  | leave w => rfl
  | retire t => rfl
  | vanish t => rw [Change.on, ite_self]

namespace World

variable {σ τ υ : World} {s : SetId} {c : Option Change}

/-! ### What edits do to the flags of a set -/

theorem flagsOf_congr (h : τ.sets.get? s = σ.sets.get? s) : τ.flagsOf s = σ.flagsOf s := by
  rw [flagsOf, flagsOf, h]

theorem flagsOf_modifySet {t : SetId} {f : WatchpointSet → WatchpointSet} {g : Flags → Flags}
    (hf : ∀ x, (f x).flags = g x.flags) (there : σ.Exists s) :
    (σ.modifySet t f).flagsOf s = if t = s then g (σ.flagsOf s) else σ.flagsOf s := by
  obtain ⟨x, hx⟩ := there
  rw [flagsOf, modifySet, Store.get?_modify, flagsOf, hx]
  split
  · exact hf x
  · rfl

theorem flagsOf_unlink (w : WatchpointId) (there : σ.Exists s) :
    (σ.unlink w).flagsOf s = σ.flagsOf s := by
  rw [unlink]
  split
  · rfl
  · next m _ =>
    have there' : (σ.modifyWatchpoint w fun v => { v with membership := none }).Exists s := there
    exact (flagsOf_modifySet (f := fun t => { t with watchers := (t.watchers.remove m.key).1 })
      (g := id) (fun _ => rfl) there').trans (ite_self _)

theorem exists_of_queue (h : σ.queue s ≠ []) : σ.Exists s := by
  rw [exists_iff_list?]
  by_contra hne
  exact h (queue_of_gone (Option.eq_none_iff_forall_ne_some.mpr fun l hl => hne ⟨l, hl⟩))

theorem Coherent.exists_of_owned (h : σ.Coherent) (hs : σ.Owned s) : σ.Exists s :=
  exists_iff_list?.mpr (h.alive s hs)

theorem Coherent.issued_of_exists (h : σ.Coherent) (hs : σ.Exists s) : σ.Issued s := by
  obtain ⟨l, hl⟩ := exists_iff_list?.mp hs
  exact h.made s l hl

/-- What an edit does to the flags of a set that stays there: nothing, or it marks the set watched,
    or it breaks the assumption of a set on which nobody is registered. -/
theorem Edit.flagsOf_cases (e : Edit σ c τ) (h : σ.Coherent) (there : σ.Exists s) (still : τ.Exists s) :
    (τ.flagsOf s = σ.flagsOf s ∧ ∀ w, c ≠ some (.join w s)) ∨
      τ.flagsOf s = { σ.flagsOf s with watched := true } ∨
      τ.flagsOf s = .broken ∧ c = none ∧ σ.queue s = [] := by
  have issued := h.issued_of_exists there
  cases e with
  | openContext | count | appear | locate | letGo | newHandle | newSlot | store | dropHandle
  | dropSlot => exact Or.inl ⟨rfl, fun _ => (Option.some_ne_none _).symm⟩
  | unlink w => exact Or.inl ⟨flagsOf_unlink w there, fun _ hc => by cases hc⟩
  | @link t w v owned known held off =>
    have hflags := flagsOf_modifySet (t := t) (g := fun f => { f with watched := true }) (f := fun x =>
      { flags := { x.flags with watched := true }, watchers := ((σ.watchersOf t).pushBack w).1 })
      (fun _ => rfl) there
    by_cases ht : t = s
    · exact Or.inr (Or.inl (hflags.trans (if_pos ht)))
    · refine Or.inl ⟨hflags.trans (if_neg ht), fun x hc => ht ?_⟩
      cases hc
      rfl
  | watch t =>
    have hflags := flagsOf_modifySet (t := t) (g := fun f => { f with watched := true }) (f := fun x =>
      { x with flags := { x.flags with watched := true } }) (fun _ => rfl) there
    by_cases ht : t = s
    · exact Or.inr (Or.inl (hflags.trans (if_pos ht)))
    · exact Or.inl ⟨hflags.trans (if_neg ht), fun _ => (Option.some_ne_none _).symm⟩
  | @«break» t drained =>
    have hflags := flagsOf_modifySet (t := t) (f := fun x => { x with flags := .broken })
      (g := fun _ => .broken) (fun _ => rfl) there
    by_cases ht : t = s
    · rw [h.front?_eq, List.head?_eq_none_iff] at drained
      exact Or.inr (Or.inr ⟨hflags.trans (if_pos ht), rfl, ht ▸ drained⟩)
    · exact Or.inl ⟨hflags.trans (if_neg ht), fun _ => (Option.some_ne_none _).symm⟩
  | @newSet k mode new =>
    refine Or.inl ⟨flagsOf_congr ?_, fun _ => (Option.some_ne_none _).symm⟩
    refine (Store.get?_put _ _ _ _).trans (if_neg ?_)
    rintro rfl
    exact not_issued_of_new_handle new issued
  | @promote i t f held thin =>
    refine Or.inl ⟨flagsOf_congr ?_, fun _ => (Option.some_ne_none _).symm⟩
    refine (Store.get?_put _ _ _ _).trans (if_neg ?_)
    rintro rfl
    exact not_issued_of_promotions (slot?_eq_some_iff.mp held).1 issued
  | @erase t alone drained =>
    refine Or.inl ⟨flagsOf_congr ((Store.get?_erase _ _ _).trans (if_neg ?_)), fun _ hc => by cases hc⟩
    rintro rfl
    simp [Exists] at still
  | @discard t alone =>
    refine Or.inl ⟨flagsOf_congr ((Store.get?_erase _ _ _).trans (if_neg ?_)), fun _ hc => by cases hc⟩
    rintro rfl
    simp [Exists] at still

theorem Edit.exists_of_join {w : WatchpointId} (e : Edit σ (some (.join w s)) τ) (h : σ.Coherent) :
    σ.Exists s := by
  cases e with
  | link owned => exact h.exists_of_owned owned

/-! ### Who is registered on a set, is on a set that is watched -/

/-- A set with somebody registered on it is watched. -/
def Alert (σ : World) : Prop := ∀ s, σ.queue s ≠ [] → (σ.flagsOf s).watched = true

theorem alert_empty : Alert {} := fun _ h => absurd rfl h

theorem Alert.edit (ha : σ.Alert) (h : σ.Coherent) (e : Edit σ c τ) : τ.Alert := by
  intro s hq
  have hqueue := h.queue_edit e s
  by_cases there : σ.Exists s
  · rcases e.flagsOf_cases h there (exists_of_queue hq) with ⟨hf, hc⟩ | hf | ⟨-, rfl, hnil⟩
    · rw [hf]
      refine ha s fun hnil => hq ?_
      rw [hqueue, hnil]
      cases c with
      | none => rfl
      | some x => exact Change.on_nil fun w hx => hc w (hx ▸ rfl)
    · rw [hf]
    · exact absurd (hqueue.trans hnil) hq
  · -- a set that is not there has an empty queue, and cannot be joined
    refine absurd ?_ hq
    rw [hqueue, not_imp_comm.mp exists_of_queue there]
    cases c with
    | none => rfl
    | some x => exact Change.on_nil fun w hx => there ((hx ▸ e).exists_of_join h)

theorem Alert.edits {cs : List Change} (ha : σ.Alert) (h : σ.Coherent) (e : Edits σ cs τ) :
    τ.Alert := by
  induction e with
  | refl => exact ha
  | tail es last ih => exact ih.edit (h.edits es) last

/-! ### Flags go forward only -/

/-- What is there in a later world shows flags that those it showed before may become. -/
structure Onward (σ τ : World) : Prop where
  set : ∀ s, σ.Exists s → τ.Exists s → (σ.flagsOf s).MayBecome (τ.flagsOf s)
  slot : ∀ i t u, σ.slot? i = some t → τ.slot? i = some u →
    (σ.slotFlags t).MayBecome (τ.slotFlags u)
  /-- A set that has been made and is gone does not come back. -/
  gone : ∀ s, σ.Issued s → τ.Issued s ∧ (¬ σ.Exists s → ¬ τ.Exists s)
  /-- Nor does a slot that has been dropped. -/
  kept : ∀ i t, σ.slots.get? i = some t →
    ∃ u, τ.slots.get? i = some u ∧ (t.held = false → u.held = false)

theorem Onward.refl (σ : World) : σ.Onward σ where
  set _ _ _ := .refl _
  slot _ _ _ ht hu := Option.some.inj (ht.symm.trans hu) ▸ .refl _
  gone _ hs := ⟨hs, id⟩
  kept _ t ht := ⟨t, ht, id⟩

theorem Onward.trans (h : σ.Coherent) (hστ : σ.Onward τ) (hτυ : τ.Onward υ) : σ.Onward υ where
  set s there still := by
    obtain ⟨issued, -⟩ := hστ.gone s (h.issued_of_exists there)
    have between : τ.Exists s := by
      by_contra hgone
      exact (hτυ.gone s issued).2 hgone still
    exact (hστ.set s there between).trans (hτυ.set s between still)
  slot i t v ht hv := by
    obtain ⟨hget, -⟩ := slot?_eq_some_iff.mp ht
    obtain ⟨u, hu, -⟩ := hστ.kept i t hget
    have between : τ.slot? i = some u := by
      refine slot?_eq_some_iff.mpr ⟨hu, ?_⟩
      by_contra hdropped
      obtain ⟨v', hv', hlost⟩ := hτυ.kept i u hu
      obtain ⟨hget', hheld⟩ := slot?_eq_some_iff.mp hv
      obtain rfl := Option.some.inj (hget'.symm.trans hv')
      rw [hlost (eq_false_of_ne_true hdropped)] at hheld
      cases hheld
    exact (hστ.slot i t u ht between).trans (hτυ.slot i u v between hv)
  gone s hs := by
    obtain ⟨hissued, hgone⟩ := hστ.gone s hs
    obtain ⟨hissued', hgone'⟩ := hτυ.gone s hissued
    exact ⟨hissued', fun hs => hgone' (hgone hs)⟩
  kept i t ht := by
    obtain ⟨u, hu, hheld⟩ := hστ.kept i t ht
    obtain ⟨v, hv, hheld'⟩ := hτυ.kept i u hu
    exact ⟨v, hv, fun h => hheld' (hheld h)⟩

theorem exists_of_modifySet {t : SetId} {f : WatchpointSet → WatchpointSet}
    (h : (σ.modifySet t f).Exists s) : σ.Exists s := by
  obtain ⟨y, hy⟩ := h
  rw [modifySet, Store.get?_modify] at hy
  split at hy
  · obtain ⟨x, hx, -⟩ := Option.map_eq_some_iff.mp hy
    exact ⟨x, hx⟩
  · exact ⟨y, hy⟩

theorem exists_of_put {t : SetId} {x : WatchpointSet} (h : Exists { σ with sets := σ.sets.put t x } s)
    (hne : t ≠ s) : σ.Exists s := by
  obtain ⟨y, hy⟩ := h
  exact ⟨y, by rwa [Store.get?_put, if_neg hne] at hy⟩

/-- A set that has been made comes into being no second time. -/
theorem Edit.exists_before (e : Edit σ c τ) (issued : σ.Issued s) (there : τ.Exists s) :
    σ.Exists s := by
  cases e with
  | openContext | count | appear | locate | letGo | newHandle | newSlot | store | dropHandle
  | dropSlot => exact there
  | unlink w =>
    rw [World.unlink] at there
    split at there
    · exact there
    · exact exists_of_modifySet there
  | link | watch | «break» => exact exists_of_modifySet there
  | newSet mode new =>
    refine exists_of_put there ?_
    rintro rfl
    exact not_issued_of_new_handle new issued
  | promote held thin =>
    refine exists_of_put there ?_
    rintro rfl
    exact not_issued_of_promotions (slot?_eq_some_iff.mp held).1 issued
  | erase | discard =>
    obtain ⟨y, hy⟩ := there
    rw [Store.get?_erase] at hy
    split at hy
    · cases hy
    · exact ⟨y, hy⟩

theorem Edit.kept (e : Edit σ c τ) {i : SlotId} {t : Slot} (ht : σ.slots.get? i = some t) :
    ∃ u, τ.slots.get? i = some u ∧ (t.held = false → u.held = false) := by
  have modified : ∀ (j : SlotId) (f : Slot → Slot), (∀ t, t.held = false → (f t).held = false) →
      ∃ u, (σ.slots.modify j f).get? i = some u ∧ (t.held = false → u.held = false) := by
    intro j f hf
    rw [Store.get?_modify, ht]
    split
    · exact ⟨f t, rfl, hf t⟩
    · exact ⟨t, rfl, id⟩
  cases e with
  | openContext | count | appear | locate | letGo | link | watch | «break» | newSet | newHandle
  | dropHandle | erase | discard => exact ⟨t, ht, id⟩
  | unlink w =>
    rw [World.unlink]
    split <;> exact ⟨t, ht, id⟩
  | @newSlot j mode new =>
    refine ⟨t, (Store.get?_put _ _ _ _).trans ((if_neg ?_).trans ht), id⟩
    rintro rfl
    rw [new] at ht
    cases ht
  | @promote j u f held thin =>
    by_cases hj : j = i
    · subst hj
      obtain ⟨hget, -⟩ := slot?_eq_some_iff.mp held
      obtain rfl := Option.some.inj (hget.symm.trans ht)
      exact ⟨_, Store.get?_put_self .., id⟩
    · exact ⟨t, (Store.get?_put _ _ _ _).trans ((if_neg hj).trans ht), id⟩
  | store => exact modified _ _ fun _ => id
  | dropSlot => exact modified _ _ fun _ _ => rfl

theorem Edit.flagsOf_mayBecome (e : Edit σ c τ) (h : σ.Coherent) (there : σ.Exists s)
    (still : τ.Exists s) : (σ.flagsOf s).MayBecome (τ.flagsOf s) := by
  rcases e.flagsOf_cases h there still with ⟨hf, -⟩ | hf | ⟨hf, -⟩
  · exact hf ▸ .refl _
  · exact hf ▸ Flags.mayBecome_watched _
  · exact hf ▸ Flags.mayBecome_broken _

theorem slot?_modify {σ : World} {i j : SlotId} {f : Slot → Slot} {u : Slot}
    (hu : slot? { σ with slots := σ.slots.modify j f } i = some u) :
    u.held = true ∧ ∃ t, σ.slots.get? i = some t ∧ u = if j = i then f t else t := by
  obtain ⟨hget, hheld⟩ := slot?_eq_some_iff.mp hu
  refine ⟨hheld, ?_⟩
  rw [Store.get?_modify] at hget
  split at hget
  · next hj =>
    obtain ⟨t, ht, rfl⟩ := Option.map_eq_some_iff.mp hget
    exact ⟨t, ht, (if_pos hj).symm⟩
  · next hj => exact ⟨u, hget, (if_neg hj).symm⟩

/-- The flags that a slot shows go forward too, also where it goes from flags of its own to those of
    a set and back. -/
theorem Edit.slotFlags_mayBecome (e : Edit σ c τ) (h : σ.Coherent) {i : SlotId} {t u : Slot}
    (ht : σ.slot? i = some t) (hu : τ.slot? i = some u) :
    (σ.slotFlags t).MayBecome (τ.slotFlags u) := by
  obtain ⟨hget, hheld⟩ := slot?_eq_some_iff.mp ht
  -- a slot that keeps its storage shows its own flags still, or those of a set that is still there
  have unmoved : ∀ u', τ.slot? i = some u' → u'.storage = t.storage →
      (σ.slotFlags t).MayBecome (τ.slotFlags u') := by
    intro u' hu' hstorage
    unfold slotFlags
    rw [hstorage]
    cases hs : t.storage with
    | thin f => exact .refl f
    | fat s =>
      have before : σ.Owned s := Or.inr ⟨i, fatSet?_eq_some_iff.mpr ⟨t, hget, hheld, hs⟩⟩
      obtain ⟨hget', hheld'⟩ := slot?_eq_some_iff.mp hu'
      have after : τ.Owned s :=
        Or.inr ⟨i, fatSet?_eq_some_iff.mpr ⟨u', hget', hheld', hstorage.trans hs⟩⟩
      exact e.flagsOf_mayBecome h (h.exists_of_owned before) ((h.edit e).exists_of_owned after)
  have same : τ.slots.get? i = σ.slots.get? i → (σ.slotFlags t).MayBecome (τ.slotFlags u) := by
    intro hs
    obtain ⟨hget', -⟩ := slot?_eq_some_iff.mp hu
    obtain rfl := Option.some.inj (hget'.symm.trans (hs.trans hget))
    exact unmoved u hu rfl
  cases e with
  | openContext | count | appear | locate | letGo | link | watch | «break» | newSet | newHandle
  | dropHandle | erase | discard => exact same rfl
  | unlink w =>
    refine same ?_
    rw [World.unlink]
    split <;> rfl
  | @newSlot j mode new =>
    refine same ((Store.get?_put _ _ _ _).trans (if_neg ?_))
    rintro rfl
    rw [new] at hget
    cases hget
  | @promote j t' f held thin =>
    by_cases hj : j = i
    · subst hj
      obtain rfl := Option.some.inj (ht.symm.trans held)
      obtain ⟨hget', -⟩ := slot?_eq_some_iff.mp hu
      obtain rfl := Option.some.inj ((Store.get?_put_self ..).symm.trans hget')
      simp only [slotFlags, thin, flagsOf, promoteFrom, Store.get?_put_self]
      exact .refl f
    · exact same ((Store.get?_put _ _ _ _).trans (if_neg hj))
  | @store j t' f held next =>
    obtain ⟨-, t'', ht'', rfl⟩ := slot?_modify hu
    obtain rfl := Option.some.inj (ht''.symm.trans hget)
    split
    · next hj =>
      subst hj
      obtain rfl := Option.some.inj (ht.symm.trans held)
      exact next
    · next hj => exact unmoved _ (by rwa [if_neg hj] at hu) rfl
  | @dropSlot j =>
    obtain ⟨hheld', t'', ht'', rfl⟩ := slot?_modify hu
    obtain rfl := Option.some.inj (ht''.symm.trans hget)
    split at hheld'
    · cases hheld'
    · next hj =>
      rw [if_neg hj] at hu ⊢
      exact unmoved _ hu rfl

theorem Edit.onward (e : Edit σ c τ) (h : σ.Coherent) : σ.Onward τ where
  set _ there still := e.flagsOf_mayBecome h there still
  slot _ _ _ ht hu := e.slotFlags_mayBecome h ht hu
  gone _ hs := ⟨e.issued hs, mt (e.exists_before hs)⟩
  kept _ _ ht := e.kept ht

theorem Edits.onward {cs : List Change} (e : Edits σ cs τ) (h : σ.Coherent) : σ.Onward τ := by
  induction e with
  | refl => exact .refl σ
  | tail es last ih => exact ih.trans h (last.onward (h.edits es))

end World

end Invalidation
