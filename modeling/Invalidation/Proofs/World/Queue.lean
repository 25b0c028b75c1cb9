import Invalidation.Proofs.World.Coherent

/-! The queue of a set: who is registered on it, the one registered first in front. In a coherent world
    nobody stands in two queues or twice in one, and a queue sees of an edit only its label: who joins
    stands behind all others, who leaves is taken out, and what is not labelled is not noticed.

        [a, b] ──join c──▶ [a, b, c] ──leave a──▶ [b, c] ──vanish──▶ [] -/

namespace Invalidation

/-- What a change does to the queue of a set. -/
def Change.on (s : SetId) : Change → List WatchpointId → List WatchpointId
  | .join w t, ws => if t = s then ws ++ [w] else ws
  | .leave w, ws => ws.erase w
  | .retire _, ws => ws
  | .vanish t, ws => if t = s then [] else ws

theorem Change.length_on_le (s : SetId) (c : Change) (ws : List WatchpointId) :
    (c.on s ws).length ≤ ws.length + 1 := by
  cases c with
  | join v t => rw [Change.on]; split <;> simp
  | leave v => exact Nat.le_succ_of_le List.length_erase_le
  | retire t => exact Nat.le_succ _
  | vanish t => rw [Change.on]; split <;> simp

/-- Nobody gets into a queue but by joining it. -/
theorem Change.count_on_le (s : SetId) (c : Change) (ws : List WatchpointId) (w : WatchpointId) :
    (c.on s ws).count w ≤ ws.count w + if c = .join w s then 1 else 0 := by
  cases c with
  | join v t =>
    rw [Change.on]
    split
    · next ht =>
      rw [List.count_append, List.count_singleton, ht]
      simp
    · exact Nat.le_add_right _ _
  | leave v => exact Nat.le_add_right_of_le (List.erase_sublist.count_le w)
  | retire t => exact Nat.le_add_right _ _
  | vanish t =>
    rw [Change.on]
    split <;> simp

namespace World

variable {σ τ : World} {s : SetId} {w : WatchpointId}

/-- Who is registered on a set, the one registered first in front. -/
def queue (σ : World) (s : SetId) : List WatchpointId := (σ.watchersOf s).toList

theorem queue_of_list? {l : WatchList WatchpointId} (hl : σ.list? s = some l) :
    σ.queue s = l.toList := by
  rw [queue, watchersOf_of_list? hl]

theorem queue_of_gone (hs : σ.list? s = none) : σ.queue s = [] := by
  rw [queue, watchersOf, ← list?, hs]
  rfl

theorem queue_congr (h : τ.list? s = σ.list? s) : τ.queue s = σ.queue s := by
  rw [queue, queue, watchersOf, watchersOf, ← list?, ← list?, h]

/-! ### Who stands in a queue -/

theorem Coherent.mem_queue_iff (h : σ.Coherent) :
    w ∈ σ.queue s ↔ ∃ l k, σ.list? s = some l ∧ l.get? k = some w := by
  cases hl : σ.list? s with
  | none => simp [queue_of_gone hl]
  | some l =>
    have hs := h.sound s l hl
    rw [queue_of_list? hl, WatchList.toList, List.mem_map]
    constructor
    · rintro ⟨⟨k, x⟩, hkx, rfl⟩
      exact ⟨l, k, rfl, (hs.mem_entries_iff k x).mp hkx⟩
    · rintro ⟨l', k, hl', hk⟩
      obtain rfl := Option.some.inj hl'
      exact ⟨(k, w), (hs.mem_entries_iff k w).mpr hk, rfl⟩

theorem Coherent.tie?_of_mem (h : σ.Coherent) (hw : w ∈ σ.queue s) :
    ∃ k, σ.tie? w = some (true, some ⟨s, k⟩) := by
  obtain ⟨l, k, hl, hk⟩ := h.mem_queue_iff.mp hw
  exact ⟨k, h.inward s l k w hl hk⟩

theorem Coherent.mem_queue_of_tie? (h : σ.Coherent) {b : Bool} {k : WatchList.Key}
    {l : WatchList WatchpointId} (hl : σ.list? s = some l) (hw : σ.tie? w = some (b, some ⟨s, k⟩)) :
    w ∈ σ.queue s :=
  h.mem_queue_iff.mpr ⟨l, k, hl, h.outward w b s k l hw hl⟩

/-- Nobody stands in two queues. -/
theorem Coherent.set_unique (h : σ.Coherent) {t : SetId} (hs : w ∈ σ.queue s) (ht : w ∈ σ.queue t) :
    s = t := by
  obtain ⟨k, hk⟩ := h.tie?_of_mem hs
  obtain ⟨j, hj⟩ := h.tie?_of_mem ht
  rw [hk] at hj
  injection hj with hj
  injection hj with _ hj
  injection hj with hj
  injection hj

/-- Nobody stands twice in a queue. -/
theorem Coherent.nodup_queue (h : σ.Coherent) (s : SetId) : (σ.queue s).Nodup := by
  cases hl : σ.list? s with
  | none => simp [queue_of_gone hl]
  | some l =>
    have hs := h.sound s l hl
    rw [queue_of_list? hl, WatchList.toList]
    refine List.Nodup.map_on ?_ (List.Nodup.of_map Prod.fst hs.nodup_keys)
    rintro ⟨k, x⟩ hk ⟨j, y⟩ hj (rfl : x = y)
    have hk := h.inward s l k x hl ((hs.mem_entries_iff k x).mp hk)
    have hj := h.inward s l j x hl ((hs.mem_entries_iff j x).mp hj)
    rw [hk] at hj
    injection hj with hj
    injection hj with _ hj
    injection hj with hj
    injection hj with _ hj
    rw [hj]

/-- What a sweep finds at the head of the list is the first of the queue. -/
theorem Coherent.front?_eq (h : σ.Coherent) (s : SetId) :
    (σ.watchersOf s).front? = (σ.queue s).head? := by
  cases hl : σ.list? s with
  | none =>
    rw [queue_of_gone hl, watchersOf, ← list?, hl]
    rfl
  | some l => rw [queue_of_list? hl, watchersOf_of_list? hl, (h.sound s l hl).front?_eq]

/-! ### What edits do to a queue -/

theorem Coherent.queue_unlink (h : σ.Coherent) (w : WatchpointId) (s : SetId) :
    (σ.unlink w).queue s = (σ.queue s).erase w := by
  by_cases hw : w ∈ σ.queue s
  · obtain ⟨l, k, hl, hk⟩ := h.mem_queue_iff.mp hw
    have hm : (σ.watchpoint w).membership = some ⟨s, k⟩ := by
      rw [membership_eq, h.inward s l k w hl hk]
      rfl
    have hl' : (σ.unlink w).list? s = some (l.remove k).1 := by
      rw [list?_unlink, hm]
      simp [hl]
    have hd := queue_of_list? hl ▸ h.nodup_queue s
    rw [queue_of_list? hl', queue_of_list? hl, (h.sound s l hl).toList_remove hd hk]
  · rw [List.erase_of_not_mem hw]
    refine queue_congr ?_
    rw [list?_unlink]
    split
    · next m hm =>
      split
      · next e =>
        obtain ⟨t, k⟩ := m
        obtain rfl : t = s := e
        obtain ⟨b, ht⟩ := tie?_eq_some_of_membership hm
        cases hl : σ.list? t with
        | none => rfl
        | some l => exact absurd (h.mem_queue_of_tie? hl ht) hw
      · rfl
    · rfl

theorem Coherent.queue_link (h : σ.Coherent) (hs : σ.Owned s) (w : WatchpointId) (x : SetId) :
    (σ.link s w).queue x = if s = x then σ.queue x ++ [w] else σ.queue x := by
  obtain ⟨l, hl⟩ := h.alive s hs
  have hl' := list?_link (w := w) hl x
  split
  · next e =>
    subst e
    rw [if_pos rfl] at hl'
    rw [queue_of_list? hl', queue_of_list? hl, (h.sound s l hl).toList_pushBack]
  · next e =>
    rw [if_neg e] at hl'
    exact queue_congr hl'

/-- A set that has never been made before has an empty queue, before and after it is made. -/
theorem Coherent.queue_extend (h : σ.Coherent) {t : SetId} (new : ¬ σ.Issued t)
    (lists : ∀ x, τ.list? x = if t = x then some {} else σ.list? x) (s : SetId) :
    τ.queue s = σ.queue s := by
  have hs := lists s
  split at hs
  · next e =>
    subst e
    have hgone : σ.list? t = none := by
      by_contra hne
      obtain ⟨l, hl⟩ := Option.ne_none_iff_exists'.mp hne
      exact new (h.made t l hl)
    rw [queue_of_list? hs, queue_of_gone hgone]
    rfl
  · exact queue_congr hs

theorem queue_erase (σ : World) (t s : SetId) :
    queue { σ with sets := σ.sets.erase t } s = if t = s then [] else σ.queue s := by
  have hl : World.list? { σ with sets := σ.sets.erase t } s = if t = s then none else σ.list? s := by
    rw [list?, Store.get?_erase]
    split <;> rfl
  split
  · next e => exact queue_of_gone (hl.trans (if_pos e))
  · next e => exact queue_congr (hl.trans (if_neg e))

/-- A queue sees of an edit only its label. -/
theorem Coherent.queue_edit {c : Option Change} (h : σ.Coherent) (e : Edit σ c τ) (s : SetId) :
    τ.queue s = c.toList.foldl (fun ws c => c.on s ws) (σ.queue s) := by
  cases e with
  | openContext | count | appear | locate | letGo | newHandle | newSlot | store | dropHandle
  | dropSlot => rfl
  | watch | «break» => exact queue_congr (list?_modifyFlags σ _ s _)
  | unlink w => exact h.queue_unlink w s
  | link owned => exact h.queue_link owned _ s
  | @newSet h' mode new =>
    refine h.queue_extend (t := .ofHandle h') (not_issued_of_new_handle new) (fun x => ?_) s
    rw [list?, newSet, Store.get?_put]
    split <;> rfl
  | @promote i t f held thin =>
    refine h.queue_extend (t := .ofSlot i t.promotions)
      (not_issued_of_promotions (slot?_eq_some_iff.mp held).1) (fun x => ?_) s
    rw [list?, promoteFrom, Store.get?_put]
    split <;> rfl
  | @erase t alone drained =>
    rw [queue_erase]
    split
    · next e =>
      rw [e, h.front?_eq, List.head?_eq_none_iff] at drained
      exact drained.symm
    · rfl
  | @discard t alone => exact queue_erase σ t s

/-- A queue sees of a sequence of edits only the labels, one after the other. -/
theorem Coherent.queue_edits {cs : List Change} (h : σ.Coherent) (e : Edits σ cs τ) (s : SetId) :
    τ.queue s = cs.foldl (fun ws c => c.on s ws) (σ.queue s) := by
  induction e with
  | refl => rfl
  | tail es last ih => rw [(h.edits es).queue_edit last, ih, List.foldl_append]

end World

end Invalidation
