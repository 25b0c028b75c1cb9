import Invalidation.Proofs.WatchList.Chain
import Mathlib.Data.List.Perm.Subperm

/-! Sound lists. The occupied cells of a sound list are the ones met from the head on, and the free
    cells are all the others; appending and removing keep a list sound. -/

namespace Invalidation

namespace WatchList

variable {α : Type} {l : WatchList α} {is : List Nat}

/-- The cells `is` are the occupied ones, from head to tail, and all others are free. -/
structure Chain (l : WatchList α) (is : List Nat) : Prop where
  nodup : is.Nodup
  occupied : ∀ i, i ∈ is ↔ (entryAt l.cells i).isSome
  linked : Linked l.cells none is none
  head : l.head = is.head?
  tail : l.tail = is.getLast?
  unlinked : ∀ (i : Nat) (c : Cell α), l.cells[i]? = some c → c.value = none →
    c.previous = none ∧ c.next = none
  free_nodup : l.free.Nodup
  mem_free : ∀ i, i ∈ l.free ↔ i < l.cells.size ∧ i ∉ is
  length : l.length = is.length

/-- The occupied cells form one chain, and all others are free. -/
def Sound (l : WatchList α) : Prop := ∃ is, Chain l is

theorem chain_empty : Chain ({} : WatchList α) [] where
  nodup := List.nodup_nil
  occupied i := by simp [entryAt]
  linked := trivial
  head := rfl
  tail := rfl
  unlinked i c hc := by simp at hc
  free_nodup := List.nodup_nil
  mem_free i := by simp
  length := rfl

/-- The empty list is sound. -/
theorem sound_empty : Sound ({} : WatchList α) := ⟨[], chain_empty⟩

theorem Chain.lt_size (h : Chain l is) {i : Nat} (hi : i ∈ is) : i < l.cells.size := by
  obtain ⟨⟨k, a⟩, he⟩ := Option.isSome_iff_exists.mp ((h.occupied i).mp hi)
  obtain ⟨c, hc, -⟩ := entryAt_eq_some.mp he
  exact (Array.getElem?_eq_some_iff.mp hc).1

theorem Chain.length_le_size (h : Chain l is) : is.length ≤ l.cells.size := by
  have hsub : is ⊆ List.range l.cells.size := fun i hi => List.mem_range.mpr (h.lt_size hi)
  simpa using (List.Nodup.subperm h.nodup hsub).length_le

/-- Following the forward links from the head meets the cells of the chain. -/
theorem Chain.forwardFrom_eq (l : WatchList α) {p : Option Nat} {is : List Nat} {fuel : Nat}
    (h : Linked l.cells p is none) (hf : is.length ≤ fuel) : l.forwardFrom fuel is.head? = is := by
  induction is generalizing p fuel with
  | nil => cases fuel <;> rfl
  | cons i is ih =>
    obtain ⟨⟨c, hc, -, hn⟩, hrest⟩ := h
    rw [Option.or_none] at hn
    cases fuel with
    | zero => simp at hf
    | succ fuel =>
      rw [List.head?_cons, forwardFrom, hc, Option.bind_some, hn,
        ih hrest (Nat.le_of_succ_le_succ (by simpa using hf))]

theorem Chain.indices (h : Chain l is) : l.indices = is := by
  rw [WatchList.indices, h.head]
  exact forwardFrom_eq l h.linked h.length_le_size

theorem Chain.entries (h : Chain l is) : l.entries = is.filterMap (entryAt l.cells) := by
  rw [WatchList.entries, h.indices]
  rfl

/-! ### Appending -/

/-- The cell that is next in turn was not in use; it is filled, and no other cell changes. -/
theorem Chain.occupy (h : Chain l is) (a : α) :
    (l.occupy a).2 ∉ is ∧
      (l.occupy a).1.cells[(l.occupy a).2]? =
        some ⟨some a, l.generationOf (l.occupy a).2, l.tail, none⟩ ∧
      (∀ j, j ≠ (l.occupy a).2 → (l.occupy a).1.cells[j]? = l.cells[j]?) ∧
      (l.occupy a).1.free.Nodup ∧
      (∀ j, j ∈ (l.occupy a).1.free ↔
        j < (l.occupy a).1.cells.size ∧ j ∉ is ++ [(l.occupy a).2]) := by
  cases hfree : l.free with
  | nil =>
    have hall : ∀ j, j < l.cells.size → j ∈ is := fun j hj => by
      have hm := h.mem_free j
      rw [hfree] at hm
      by_contra hout
      exact List.not_mem_nil (hm.mpr ⟨hj, hout⟩)
    simp only [WatchList.occupy, hfree]
    refine ⟨fun hi => Nat.lt_irrefl _ (h.lt_size hi), ?_, ?_, List.nodup_nil, fun j => ?_⟩
    · simp [generationOf]
    · intro j hj
      rw [Array.getElem?_push, if_neg hj]
    · simp only [List.not_mem_nil, Array.size_push, List.mem_append, List.mem_singleton,
        false_iff, not_and, not_not]
      intro hj
      exact (Nat.lt_succ_iff_lt_or_eq.mp hj).imp (hall j) id
  | cons i rest =>
    obtain ⟨hsize, hout⟩ := (h.mem_free i).mp (hfree ▸ List.mem_cons_self)
    have hnodup := h.free_nodup
    rw [hfree, List.nodup_cons] at hnodup
    simp only [WatchList.occupy, hfree]
    refine ⟨hout, ?_, ?_, hnodup.2, fun j => ?_⟩
    · rw [Array.getElem?_modify, if_pos rfl, generationOf, Array.getElem?_eq_getElem hsize]
      rfl
    · intro j hj
      rw [Array.getElem?_modify, if_neg (Ne.symm hj)]
    · have hm := h.mem_free j
      rw [hfree, List.mem_cons] at hm
      simp only [Array.size_modify, List.mem_append, List.mem_singleton, not_or]
      constructor
      · intro hj
        obtain ⟨hlt, hni⟩ := hm.mp (Or.inr hj)
        exact ⟨hlt, hni, fun e => hnodup.1 (e ▸ hj)⟩
      · rintro ⟨hlt, hni, hne⟩
        exact (hm.mpr ⟨hlt, hni⟩).resolve_left hne

theorem cells_pushBack (l : WatchList α) (a : α) :
    (l.pushBack a).1.cells = setNext (l.occupy a).1.cells l.tail (some (l.occupy a).2) := by
  simp [WatchList.pushBack]

theorem key_pushBack (l : WatchList α) (a : α) :
    (l.pushBack a).2 = ⟨(l.occupy a).2, l.generationOf (l.occupy a).2⟩ := rfl

/-- What each cell holds after appending: the new cell the new value, every other cell what it held. -/
theorem Chain.entryAt_pushBack (h : Chain l is) (a : α) (j : Nat) :
    entryAt (l.pushBack a).1.cells j =
      if j = (l.occupy a).2 then some ((l.pushBack a).2, a) else entryAt l.cells j := by
  obtain ⟨-, hnew, hold, -⟩ := h.occupy a
  rw [cells_pushBack, entryAt_setNext]
  split
  · next e =>
    subst e
    rw [entryAt_eq_some]
    exact ⟨_, hnew, rfl, key_pushBack l a⟩
  · next hne => rw [entryAt, hold j hne, entryAt]

theorem Chain.pushBack (h : Chain l is) (a : α) :
    Chain (l.pushBack a).1 (is ++ [(l.occupy a).2]) := by
  obtain ⟨hout, hnew, hold, hfree, hmem⟩ := h.occupy a
  set i := (l.occupy a).2 with hi
  set m := (l.occupy a).1 with hm
  have htail : ∀ j, l.tail = some j → j ∈ is := fun j hj =>
    List.mem_of_getLast? (h.tail ▸ hj)
  have hmhead : m.head = l.head := by
    rw [hm, WatchList.occupy]
    cases l.free <;> rfl
  refine ⟨?_, fun j => ?_, ?_, ?_, by simp [WatchList.pushBack, hi], ?_, ?_, ?_, ?_⟩
  · rw [List.nodup_append]
    exact ⟨h.nodup, List.nodup_singleton _, fun j hj k hk e =>
      hout (List.mem_singleton.mp hk ▸ e ▸ hj)⟩
  · rw [h.entryAt_pushBack, List.mem_append, List.mem_singleton, ← hi]
    by_cases hj : j = i
    · simp [hj]
    · simp [hj, h.occupied j]
  · -- the old chain ends with a link to the new cell, which ends the new one
    have hsame : Linked m.cells none is none := h.linked.congr fun j hj => by
      rw [hold j fun e => hout (e ▸ hj)]
    rw [cells_pushBack, linked_append]
    refine ⟨?_, ⟨⟨some a, l.generationOf i, l.tail, none⟩, ?_, ?_, rfl⟩, trivial⟩
    · rw [h.tail]
      exact hsame.setNext_last h.nodup _
    · rw [getElem?_setNext, if_neg fun e => hout (htail i e)]
      exact hnew
    · simp [h.tail]
  · simp only [WatchList.pushBack, head_linkForward]
    rw [h.tail, ← hm, hmhead, h.head]
    cases is with
    | nil => simp [hi]
    | cons x xs => simp [List.getLast?_cons]
  · intro j c hc hv
    rw [cells_pushBack, getElem?_setNext] at hc
    have hji : j ≠ i := by
      rintro rfl
      rw [if_neg fun e => hout (htail _ e), ← hm, hnew] at hc
      rw [← Option.some.inj hc] at hv
      cases hv
    split at hc
    · next e =>
      rw [← hm, hold j hji] at hc
      obtain ⟨c', hc', rfl⟩ := Option.map_eq_some_iff.mp hc
      have hs := (h.occupied j).mp (htail j e)
      rw [entryAt_of_free hc' hv] at hs
      cases hs
    · rw [← hm, hold j hji] at hc
      exact h.unlinked j c hc hv
  · simpa [WatchList.pushBack] using hfree
  · simpa [WatchList.pushBack] using hmem
  · simp [WatchList.pushBack, h.length]

/-! ### Removing -/

/-- The cells once the entry in cell `i` is gone: its neighbours are joined and `i` is free. -/
def cellsWithout (cells : Array (Cell α)) (i : Nat) (c : Cell α) : Array (Cell α) :=
  (setPrevious (setNext cells c.previous c.next) c.next c.previous).modify i fun c =>
    ⟨none, c.generation + 1, none, none⟩

theorem remove_of_get?_eq_none {l : WatchList α} {k : Key} (h : l.get? k = none) :
    l.remove k = (l, none) := by
  unfold remove
  rw [h]
  cases l.cells[k.index]? <;> rfl

/-- What removing a live entry does, field by field. -/
theorem remove_eq {l : WatchList α} {k : Key} {a : α} {c : Cell α} (hc : l.cells[k.index]? = some c)
    (h : l.get? k = some a) :
    l.remove k =
      ({ cells := cellsWithout l.cells k.index c
         free := k.index :: l.free
         head := if c.previous = none then c.next else l.head
         tail := if c.next = none then c.previous else l.tail
         length := l.length - 1 }, some a) := by
  unfold remove
  rw [hc, h]
  simp [cellsWithout]

theorem entryAt_cellsWithout (cells : Array (Cell α)) (i j : Nat) (c : Cell α) :
    entryAt (cellsWithout cells i c) j = if j = i then none else entryAt cells j := by
  by_cases hj : j = i
  · subst hj
    rw [if_pos rfl, entryAt, cellsWithout, Array.getElem?_modify, if_pos rfl]
    cases (setPrevious (setNext cells c.previous c.next) c.next c.previous)[j]? <;> rfl
  · rw [if_neg hj, entryAt, cellsWithout, Array.getElem?_modify, if_neg (Ne.symm hj), ← entryAt,
      entryAt_setPrevious, entryAt_setNext]

/-- A cell taken out of a chain: the cells before and after it stay chained, now to each other. -/
theorem linked_cellsWithout {cells : Array (Cell α)} {xs ys : List Nat} {i : Nat} {c : Cell α}
    (h : Linked cells none (xs ++ i :: ys) none) (hd : (xs ++ i :: ys).Nodup)
    (hc : cells[i]? = some c) :
    c.previous = xs.getLast? ∧ c.next = ys.head? ∧
      Linked (cellsWithout cells i c) none (xs ++ ys) none := by
  rw [List.nodup_append, List.nodup_cons] at hd
  obtain ⟨hxs, ⟨hi, hys⟩, hdisj⟩ := hd
  rw [linked_append] at h
  obtain ⟨hbefore, ⟨c', hc', hp, hn⟩, hafter⟩ := h
  obtain rfl : c' = c := Option.some.inj (hc'.symm.trans hc)
  rw [Option.or_none] at hp hn
  have hix : i ∉ xs := fun hm => hdisj i hm i List.mem_cons_self rfl
  have hlast : ∀ j ∈ ys, xs.getLast? ≠ some j := fun j hj e =>
    hdisj j (List.mem_of_getLast? e) j (List.mem_cons_of_mem _ hj) rfl
  have hhead : ∀ j ∈ xs, ys.head? ≠ some j := fun j hj e =>
    hdisj j hj j (List.mem_cons_of_mem _ (List.mem_of_head? e)) rfl
  refine ⟨hp, hn, ?_⟩
  -- the reset of cell `i` touches neither part
  have hreset : ∀ {zs : List Nat} {cells : Array (Cell α)} {p n : Option Nat}, i ∉ zs →
      Linked cells p zs n →
      Linked (cells.modify i fun c => ⟨none, c.generation + 1, none, none⟩) p zs n :=
    fun {zs _ _ _} hz hl => hl.congr fun j hj => by
      have hij : i ≠ j := fun e => hz (e ▸ hj)
      rw [Array.getElem?_modify, if_neg hij]
  rw [linked_append, cellsWithout, hp, hn, Option.or_none, Option.or_none]
  constructor
  · exact hreset hix ((hbefore.setNext_last hxs _).setPrevious_other hhead)
  · exact hreset hi ((hafter.setNext_other hlast).setPrevious_head hys _)

/-- Removing the entry in a cell of the chain leaves the chain without that cell. -/
theorem Chain.remove {xs ys : List Nat} {k : Key} {a : α} (h : Chain l (xs ++ k.index :: ys))
    (hk : l.get? k = some a) : Chain (l.remove k).1 (xs ++ ys) := by
  obtain ⟨c, hc, -, -⟩ := entryAt_eq_some.mp ((get?_eq_some_iff l k a).mp hk)
  obtain ⟨hp, hn, hlinked⟩ := linked_cellsWithout h.linked h.nodup hc
  have hd := h.nodup
  rw [List.nodup_append, List.nodup_cons] at hd
  obtain ⟨hxs, ⟨hi, hys⟩, hdisj⟩ := hd
  have hix : k.index ∉ xs := fun hm => hdisj _ hm _ List.mem_cons_self rfl
  have hsize : k.index < l.cells.size := (Array.getElem?_eq_some_iff.mp hc).1
  have hout : k.index ∉ xs ++ ys := fun hm => (List.mem_append.mp hm).elim hix hi
  have hmem : ∀ j, j ∈ xs ++ k.index :: ys ↔ j = k.index ∨ j ∈ xs ++ ys := fun j => by
    simp only [List.mem_append, List.mem_cons]
    exact or_left_comm
  rw [remove_eq hc hk]
  refine ⟨?_, fun j => ?_, hlinked, ?_, ?_, ?_, ?_, fun j => ?_, ?_⟩
  · exact List.nodup_append.mpr ⟨hxs, hys, fun j hj j' hj' =>
      hdisj j hj j' (List.mem_cons_of_mem _ hj')⟩
  · have hj := h.occupied j
    rw [hmem] at hj
    rw [entryAt_cellsWithout]
    by_cases e : j = k.index
    · rw [if_pos e, e]
      exact ⟨fun hm => absurd hm hout, fun hs => by cases hs⟩
    · rw [if_neg e, ← hj]
      exact ⟨Or.inr, fun ho => ho.resolve_left e⟩
  · have hh := h.head
    cases xs with
    | nil => simp [hp, hn]
    | cons x xs => simp [hp, hh, List.getLast?_cons]
  · have ht := h.tail
    cases ys with
    | nil => simp [hn, hp]
    | cons y ys =>
      rw [show xs ++ k.index :: y :: ys = (xs ++ [k.index]) ++ y :: ys by simp,
        List.getLast?_append_of_ne_nil _ (List.cons_ne_nil y ys)] at ht
      rw [hn, ht, List.getLast?_append_of_ne_nil _ (List.cons_ne_nil y ys)]
      simp
  · -- a free cell is no neighbour of the removed one, so it keeps its links
    intro j d hd hv
    by_cases e : j = k.index
    · rw [e, cellsWithout, Array.getElem?_modify, if_pos rfl] at hd
      obtain ⟨-, -, rfl⟩ := Option.map_eq_some_iff.mp hd
      exact ⟨rfl, rfl⟩
    · have hnone : entryAt l.cells j = none := by
        have he := entryAt_cellsWithout l.cells k.index j c
        rw [if_neg e] at he
        rw [← he]
        exact entryAt_of_free hd hv
      have hj : j ∉ xs ++ k.index :: ys := fun hm => by
        have hs := (h.occupied j).mp hm
        rw [hnone] at hs
        cases hs
      rw [hmem, List.mem_append, not_or, not_or] at hj
      have hlast : c.previous ≠ some j := fun e' => hj.2.1 (List.mem_of_getLast? (hp ▸ e'))
      have hhead : c.next ≠ some j := fun e' => hj.2.2 (List.mem_of_head? (hn ▸ e'))
      rw [cellsWithout, Array.getElem?_modify, if_neg (Ne.symm e), getElem?_setPrevious,
        if_neg hhead, getElem?_setNext, if_neg hlast] at hd
      exact h.unlinked j d hd hv
  · have hfree := h.mem_free k.index
    exact List.nodup_cons.mpr ⟨fun hm => (hfree.mp hm).2 ((hmem _).mpr (Or.inl rfl)), h.free_nodup⟩
  · rw [List.mem_cons, h.mem_free, hmem, not_or]
    simp only [cellsWithout, Array.size_modify, size_setPrevious, size_setNext]
    constructor
    · rintro (rfl | ⟨hlt, -, hj⟩)
      · exact ⟨hsize, hout⟩
      · exact ⟨hlt, hj⟩
    · rintro ⟨hlt, hj⟩
      by_cases e : j = k.index
      · exact Or.inl e
      · exact Or.inr ⟨hlt, e, hj⟩
  · have hlen := h.length
    simp only [List.length_append, List.length_cons] at hlen ⊢
    omega

end WatchList

end Invalidation
