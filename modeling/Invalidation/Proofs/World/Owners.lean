import Invalidation.Proofs.World.Queue
import Invalidation.Proofs.World.Sweeps

/-! How many keep a set alive. Whether a share was the last one is found by counting: how many
    records of handles and slots are held and name the set. No identity has two records, so that
    count is the number of owners, and it is zero exactly where nobody has a share.

        dropHandle h / dropSlot i / freeFat i ──▶ the share of that owner is gone, and nothing else
                                                    └─▶ if nobody has one any more, the set is swept -/

namespace Invalidation

/-! ### Tables in which no key stands twice -/

namespace Store

variable {κ α β : Type}

/-- No key stands twice in the table. -/
def Distinct (s : Store κ α) : Prop := (s.pairs.map Prod.fst).Nodup

theorem distinct_empty : ({} : Store κ α).Distinct := List.nodup_nil

variable [DecidableEq κ]

theorem map_fst_insert (k : κ) (a : α) (ps : List (κ × α)) :
    (insert k a ps).map Prod.fst =
      if k ∈ ps.map Prod.fst then ps.map Prod.fst else ps.map Prod.fst ++ [k] := by
  induction ps with
  | nil => rfl
  | cons p ps ih =>
    obtain ⟨j, b⟩ := p
    rw [insert]
    by_cases hj : j = k
    · simp [hj]
    · have hk : k ∈ ((j, b) :: ps).map Prod.fst ↔ k ∈ ps.map Prod.fst := by
        simpa using fun he => absurd he.symm hj
      rw [if_neg hj, List.map_cons, ih]
      simp only [hk]
      split <;> rfl

theorem Distinct.put {s : Store κ α} (h : s.Distinct) (k : κ) (a : α) : (s.put k a).Distinct := by
  rw [Distinct, Store.put, map_fst_insert]
  split
  · exact h
  · next hk =>
    refine List.nodup_append.mpr ⟨h, List.nodup_singleton k, fun j hj i hi he => hk ?_⟩
    rwa [he, List.mem_singleton.mp hi] at hj

theorem Distinct.modify {s : Store κ α} (h : s.Distinct) (k : κ) (f : α → α) :
    (s.modify k f).Distinct := by
  rw [Store.modify]
  split
  · exact h.put k _
  · exact h

theorem lookup_eq_some_iff {ps : List (κ × α)} (h : (ps.map Prod.fst).Nodup) {k : κ} {a : α} :
    lookup k ps = some a ↔ (k, a) ∈ ps := by
  induction ps with
  | nil => simp [lookup]
  | cons p ps ih =>
    obtain ⟨j, b⟩ := p
    rw [List.map_cons, List.nodup_cons] at h
    rw [lookup, List.mem_cons]
    split
    · next hj =>
      subst hj
      have hout : (j, a) ∉ ps := fun hin => h.1 (List.mem_map.mpr ⟨(j, a), hin, rfl⟩)
      simp [hout, eq_comm]
    · next hj =>
      have hk : ¬ (k, a) = (j, b) := fun he => hj (Prod.mk.inj he).1.symm
      rw [or_iff_right hk]
      exact ih h.2

theorem Distinct.mem_values_iff {s : Store κ α} (h : s.Distinct) {a : α} :
    a ∈ s.values ↔ ∃ k, s.get? k = some a := by
  simp only [values, get?, lookup_eq_some_iff h, List.mem_map, Prod.exists, exists_eq_right]

/-- How many values satisfy a condition can be told from the view alone. -/
theorem Distinct.countP_values_eq {s : Store κ α} {t : Store κ β} (hs : s.Distinct) (ht : t.Distinct)
    {f : α → Bool} {g : β → Bool} (same : ∀ k, (s.get? k).any f = (t.get? k).any g) :
    s.values.countP f = t.values.countP g := by
  -- the keys of such values are the same on both sides, and none stands twice
  have keys : ∀ {γ : Type} {u : Store κ γ} (p : γ → Bool), u.Distinct →
      ((u.pairs.filter fun x => p x.2).map Prod.fst).Nodup ∧
        (∀ k, k ∈ (u.pairs.filter fun x => p x.2).map Prod.fst ↔ (u.get? k).any p = true) ∧
        ((u.pairs.filter fun x => p x.2).map Prod.fst).length = u.values.countP p := by
    intro γ u p hu
    refine ⟨List.Nodup.sublist (List.filter_sublist.map _) hu, fun k => ?_, ?_⟩
    · simp only [get?, List.mem_map, List.mem_filter, Prod.exists, exists_and_right, exists_eq_right,
        Option.any_eq_true, lookup_eq_some_iff hu]
    · rw [List.length_map, values, List.countP_map, List.countP_eq_length_filter]
      rfl
  obtain ⟨hnodup, hmem, hlen⟩ := keys f hs
  obtain ⟨hnodup', hmem', hlen'⟩ := keys g ht
  rw [← hlen, ← hlen']
  refine ((List.perm_ext_iff_of_nodup hnodup hnodup').mpr fun k => ?_).length_eq
  rw [hmem, hmem', same]

end Store

namespace World

variable {σ τ : World} {s : SetId} {c : Option Change}

/-- No handle and no slot has two records, and no slot has a set that was made for something else. -/
structure Tidy (σ : World) : Prop where
  handles : σ.handles.Distinct
  slots : σ.slots.Distinct
  home : ∀ i t s, σ.slots.get? i = some t → t.storage = .fat s → ∃ n, s = .ofSlot i n

theorem tidy_empty : Tidy {} :=
  ⟨Store.distinct_empty, Store.distinct_empty, fun _ _ _ h => by cases h⟩

theorem Tidy.home_put (h : σ.Tidy) {i : SlotId} {t : Slot}
    (home : ∀ s, t.storage = .fat s → ∃ n, s = .ofSlot i n) :
    ∀ j u s, (σ.slots.put i t).get? j = some u → u.storage = .fat s → ∃ n, s = .ofSlot j n := by
  intro j u s hu hs
  rw [Store.get?_put] at hu
  split at hu
  · next hj =>
    obtain rfl := Option.some.inj hu
    exact hj ▸ home s hs
  · exact h.home j u s hu hs

theorem Tidy.home_modify (h : σ.Tidy) {i : SlotId} {f : Slot → Slot}
    (less : ∀ t s, (f t).storage = .fat s → t.storage = .fat s) :
    ∀ j u s, (σ.slots.modify i f).get? j = some u → u.storage = .fat s → ∃ n, s = .ofSlot j n := by
  intro j u s hu hs
  rw [Store.get?_modify] at hu
  split at hu
  · obtain ⟨t, ht, rfl⟩ := Option.map_eq_some_iff.mp hu
    exact h.home j t s ht (less t s hs)
  · exact h.home j u s hu hs

theorem Tidy.edit (h : σ.Tidy) (e : Edit σ c τ) : τ.Tidy := by
  cases e with
  | openContext | count | appear | locate | letGo | link | watch | «break» | erase | discard =>
    exact ⟨h.handles, h.slots, h.home⟩
  | unlink w =>
    rw [World.unlink]
    split <;> exact ⟨h.handles, h.slots, h.home⟩
  | newSet | newHandle => exact ⟨h.handles.put _ _, h.slots, h.home⟩
  | dropHandle => exact ⟨h.handles.modify _ _, h.slots, h.home⟩
  | newSlot => exact ⟨h.handles, h.slots.put _ _, h.home_put fun _ => Storage.noConfusion⟩
  | @promote i t =>
    exact ⟨h.handles, h.slots.put _ _, h.home_put fun _ hs => ⟨t.promotions, (Storage.fat.inj hs).symm⟩⟩
  | @store i t f =>
    refine ⟨h.handles, h.slots.modify _ _, ?_⟩
    exact h.home_modify (f := fun t => { t with storage := .thin f }) fun _ _ => Storage.noConfusion
  | dropSlot i =>
    refine ⟨h.handles, h.slots.modify _ _, ?_⟩
    exact h.home_modify (f := fun t => { t with held := false }) fun _ _ hs => hs

theorem Tidy.edits {cs : List Change} (h : σ.Tidy) (e : Edits σ cs τ) : τ.Tidy := by
  induction e with
  | refl => exact h
  | tail _ last ih => exact ih.edit last

/-- The count of owners is zero exactly if nobody has a share. -/
theorem Tidy.owners_eq_zero_iff (h : σ.Tidy) : σ.owners s = 0 ↔ ¬ σ.Owned s := by
  refine ⟨not_owned_of_owners_eq_zero, fun alone => ?_⟩
  rw [owners, Nat.add_eq_zero_iff, List.countP_eq_zero, List.countP_eq_zero]
  constructor
  · intro t ht hown
    obtain ⟨j, hj⟩ := h.handles.mem_values_iff.mp ht
    rw [Bool.and_eq_true, decide_eq_true_eq] at hown
    exact alone (Or.inl ⟨j, handleSet?_eq_some_iff.mpr ⟨t, hj, hown.1, hown.2⟩⟩)
  · intro t ht hown
    obtain ⟨i, hi⟩ := h.slots.mem_values_iff.mp ht
    rw [Bool.and_eq_true, decide_eq_true_eq] at hown
    exact alone (Or.inr ⟨i, fatSet?_eq_some_iff.mpr ⟨t, hi, hown.1, hown.2⟩⟩)

end World

/-! ### Letting go -/

/-- Who can have a share in a set. -/
inductive Owner where
  | handle (handle : HandleId)
  | slot (slot : SlotId)
  deriving DecidableEq

/-- An owner that is on loan, which keeps it from letting go. -/
def Owner.loan : Owner → Loan
  | .handle h => .handle h
  | .slot i => .slot i

/-- The owner that lets go with the call: a handle that is dropped, or a slot that is dropped or
    gives up its share. -/
def Call.release? : Call → Option Owner
  | .dropHandle h => some (.handle h)
  | .dropSlot i | .freeFat i => some (.slot i)
  | _ => none

namespace World

variable {σ τ υ : World} {s : SetId} {o : Owner} {c : Call}

/-- The set that an owner has a share in. -/
def shareOf? (σ : World) : Owner → Option SetId
  | .handle h => σ.handleSet? h
  | .slot i => σ.fatSet? i

theorem owned_iff : σ.Owned s ↔ ∃ o, σ.shareOf? o = some s := by
  constructor
  · rintro (⟨h, hh⟩ | ⟨i, hi⟩)
    · exact ⟨.handle h, hh⟩
    · exact ⟨.slot i, hi⟩
  · rintro ⟨h | i, ho⟩
    · exact Or.inl ⟨h, ho⟩
    · exact Or.inr ⟨i, ho⟩

/-- The two worlds differ in nothing but who has a share in what. -/
structure SharesApart (σ τ : World) : Prop where
  contexts : τ.contexts = σ.contexts
  watchpoints : τ.watchpoints = σ.watchpoints
  sets : τ.sets = σ.sets

theorem SharesApart.symm (h : σ.SharesApart τ) : τ.SharesApart σ :=
  ⟨h.contexts.symm, h.watchpoints.symm, h.sets.symm⟩

theorem SharesApart.trans (h : σ.SharesApart τ) (h' : τ.SharesApart υ) : σ.SharesApart υ :=
  ⟨h'.contexts.trans h.contexts, h'.watchpoints.trans h.watchpoints, h'.sets.trans h.sets⟩

theorem SharesApart.queue (h : σ.SharesApart τ) (s : SetId) : τ.queue s = σ.queue s :=
  queue_congr (by rw [list?, list?, h.sets])

/-- The owner lets go of its share, and nothing else changes. -/
structure LetsGo (σ : World) (o : Owner) (τ : World) : Prop where
  edits : Edits σ [] τ
  apart : σ.SharesApart τ
  shares : ∀ x, τ.shareOf? x = if x = o then none else σ.shareOf? x

theorem handleSet?_dropped (h j : HandleId) :
    handleSet? { σ with handles := σ.handles.modify h fun t => { t with held := false } } j =
      if j = h then none else σ.handleSet? j := by
  unfold handleSet?
  rw [Store.get?_modify]
  by_cases hj : j = h
  · subst hj
    rw [if_pos rfl, if_pos rfl]
    cases σ.handles.get? j <;> rfl
  · rw [if_neg hj, if_neg (Ne.symm hj)]

theorem fatSet?_modified {i : SlotId} {f : Slot → Slot}
    (gone : ∀ t s, (f t).held = true → (f t).storage ≠ .fat s) (j : SlotId) :
    fatSet? { σ with slots := σ.slots.modify i f } j = if j = i then none else σ.fatSet? j := by
  have hslots : ∀ x, fatSet? { σ with slots := σ.slots.modify i f } j = some x ↔
      j ≠ i ∧ σ.fatSet? j = some x := by
    intro x
    rw [fatSet?_eq_some_iff, fatSet?_eq_some_iff, Store.get?_modify]
    by_cases hj : j = i
    · subst hj
      rw [if_pos rfl]
      refine ⟨?_, fun h => absurd rfl h.1⟩
      rintro ⟨t, ht, hheld, hfat⟩
      obtain ⟨u, -, rfl⟩ := Option.map_eq_some_iff.mp ht
      exact absurd hfat (gone u x hheld)
    · rw [if_neg (Ne.symm hj)]
      exact ⟨fun h => ⟨hj, h⟩, And.right⟩
  ext x
  rw [hslots]
  split
  · next hj => simp [hj]
  · next hj => simp [hj]

theorem letsGo_dropHandle (σ : World) (h : HandleId) :
    σ.LetsGo (.handle h) { σ with handles := σ.handles.modify h fun t =>
        { t with held := false } } := by
  refine ⟨(Edit.dropHandle h).edits, ⟨rfl, rfl, rfl⟩, fun x => ?_⟩
  cases x with
  | handle j => simpa [shareOf?] using handleSet?_dropped h j
  | slot j => rfl

theorem letsGo_dropSlot (σ : World) (i : SlotId) :
    σ.LetsGo (.slot i) { σ with slots := σ.slots.modify i fun t => { t with held := false } } := by
  refine ⟨(Edit.dropSlot i).edits, ⟨rfl, rfl, rfl⟩, fun x => ?_⟩
  cases x with
  | handle j => rfl
  | slot j =>
    have hgone := fatSet?_modified (σ := σ) (i := i) (f := fun t => { t with held := false })
      (fun _ _ h => absurd h Bool.false_ne_true) j
    simpa [shareOf?] using hgone

/-- A call that makes an owner let go does just that, and then looks whether the share was the last. -/
theorem begin_of_release (hc : c.release? = some o) (share : σ.shareOf? o = some s) :
    ∃ τ events, σ.LetsGo o τ ∧ σ.begin c = (τ.release s).after events := by
  cases c with
  | dropHandle h =>
    obtain rfl := Option.some.inj hc
    refine ⟨_, [], letsGo_dropHandle σ h, ?_⟩
    simp only [World.begin, World.dropHandle, show σ.handleSet? h = some s from share]
    rfl
  | dropSlot i =>
    obtain rfl := Option.some.inj hc
    refine ⟨_, [], letsGo_dropSlot σ i, ?_⟩
    simp only [World.begin, World.dropSlot, show σ.fatSet? i = some s from share]
    rfl
  | freeFat i =>
    obtain rfl := Option.some.inj hc
    refine ⟨_, [.released (σ.flagsAfterFree s (σ.owners s > 1)) (σ.owners s > 1)],
      ⟨edits_giveUp share (σ.owners s > 1), ⟨rfl, rfl, rfl⟩, fun x => ?_⟩, ?_⟩
    · cases x with
      | handle j => rfl
      | slot j =>
        have hgone := fatSet?_modified (σ := σ) (i := i)
          (f := fun t => { t with storage := .thin (σ.flagsAfterFree s (σ.owners s > 1)) })
          (fun _ _ _ => Storage.noConfusion) j
        simpa [shareOf?, store] using hgone
    · simp only [World.begin, World.freeFat, show σ.fatSet? i = some s from share]
  | _ => cases hc

/-- As long as somebody else has a share, letting go ends there. -/
theorem LetsGo.release_of_other {x : Owner} (h : σ.LetsGo o τ) (tidy : σ.Tidy) (hx : x ≠ o)
    (share : σ.shareOf? x = some s) : τ.release s = τ.done := by
  have hother : τ.shareOf? x = some s := by rw [h.shares, if_neg hx, share]
  rw [release, if_neg]
  rw [(tidy.edits h.edits).owners_eq_zero_iff, not_not]
  exact owned_iff.mpr ⟨x, hother⟩

/-- The last to let go starts the destruction of the set. -/
theorem LetsGo.release_of_last (h : σ.LetsGo o τ) (tidy : σ.Tidy)
    (last : ∀ x, σ.shareOf? x = some s → x = o) : τ.release s = τ.sweep s .destroy := by
  refine World.release_of_last ((tidy.edits h.edits).owners_eq_zero_iff.mpr fun howned => ?_)
  obtain ⟨x, hx⟩ := owned_iff.mp howned
  rw [h.shares] at hx
  split at hx
  · cases hx
  · next hne => exact hne (last x hx)

end World

end Invalidation
