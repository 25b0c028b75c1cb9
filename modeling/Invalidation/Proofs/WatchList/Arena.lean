import Invalidation.Proofs.WatchList.Keyed
import Mathlib.Data.Set.Card

/-! The cells of a list, after whatever was asked of it. Every cell is in use or free, and never both;
    the cells in use are met in one order from the head and in the opposite one from the tail.

        head ──▶ 2 ⇄ 0 ⇄ 3 ◀── tail        free: [1]        four cells: it was never longer than four

    How many cells there are is the greatest length that the list has had. A request changes the one as
    it changes the other: a cell is added only when all are in use, and then the list is longer than
    ever; the number of cells after a request is the greater of what it was and of the length now. -/

namespace Invalidation

namespace WatchList

variable {α : Type} {l : WatchList α} {is : List Nat}

/-- Cell `i` holds a value. -/
def Occupied (l : WatchList α) (i : Nat) : Prop := ∃ c a, l.cells[i]? = some c ∧ c.value = some a

/-- Cell `i` holds no value. -/
def Vacant (l : WatchList α) (i : Nat) : Prop := ∃ c, l.cells[i]? = some c ∧ c.value = none

/-- Cell `i` precedes no other and follows none. -/
def Unlinked (l : WatchList α) (i : Nat) : Prop :=
  ∃ c, l.cells[i]? = some c ∧ c.previous = none ∧ c.next = none

/-- The lengths that a list which began empty has had, up to the end of these requests. -/
def lengthsUpTo (rs : List (Request α)) : Set Nat :=
  {n | ∃ past, past <+: rs ∧ (({} : WatchList α).after past).length = n}

/-- The cells of a list, of which `is` are in use; `lengths` are those that the list has had. -/
structure WellKept (l : WatchList α) (is : List Nat) (lengths : Set Nat) : Prop where
  /-- So many steps from the head meet just so many of the cells, and none after the last. -/
  forwards : ∀ n, l.forwardFrom n l.head = is.take n
  /-- Steps from the tail meet the same cells in the opposite order. -/
  backwards : ∀ n, l.backwardFrom n l.tail = is.reverse.take n
  /-- No cell is met twice. -/
  nodup : is.Nodup
  occupied : ∀ i, i ∈ is ↔ l.Occupied i
  free_nodup : l.free.Nodup
  vacant : ∀ i, i ∈ l.free ↔ l.Vacant i
  unlinked : ∀ i ∈ l.free, l.Unlinked i
  length : l.length = {i | l.Occupied i}.ncard
  /-- Each cell is in use or free, once. -/
  accounted : (is ++ l.free).Perm (List.range l.cells.size)
  /-- There are as many cells as the list was ever long. -/
  high_water : IsGreatest lengths l.cells.size
  /-- No cell is added while one is free: the next value goes into a free one. -/
  reused : l.free ≠ [] → ∀ a, (l.pushBack a).2.index ∈ l.free ∧
    (l.pushBack a).1.cells.size = l.cells.size

/-! ### Both ways through a chain -/

/-- The first steps along the forward links meet the first cells of the chain. -/
theorem Linked.forwardFrom_eq {p : Option Nat} (h : Linked l.cells p is none) (n : Nat) :
    l.forwardFrom n is.head? = is.take n := by
  induction n generalizing p is with
  | zero => rfl
  | succ n ih =>
    cases is with
    | nil => rfl
    | cons i is =>
      obtain ⟨⟨c, hc, -, hn⟩, hrest⟩ := h
      rw [List.head?_cons, forwardFrom, hc, Option.bind_some, hn, Option.or_none, ih hrest]
      rfl

/-- The first steps along the backward links meet the last cells of the chain, the last one first. -/
theorem Linked.backwardFrom_eq {q : Option Nat} (h : Linked l.cells none is q) (n : Nat) :
    l.backwardFrom n is.getLast? = is.reverse.take n := by
  induction n generalizing q is with
  | zero => rfl
  | succ n ih =>
    rcases List.eq_nil_or_concat is with rfl | ⟨xs, i, rfl⟩
    · rfl
    · rw [List.concat_eq_append] at h ⊢
      obtain ⟨hbefore, ⟨c, hc, hp, -⟩, -⟩ := (linked_append _ _ _ _ _).mp h
      rw [List.getLast?_concat, backwardFrom, hc, Option.bind_some, hp, Option.or_none, ih hbefore,
        List.reverse_concat]
      rfl

/-! ### The cells of a chain -/

theorem isSome_entryAt_iff (l : WatchList α) (i : Nat) : (entryAt l.cells i).isSome ↔ l.Occupied i := by
  rw [Option.isSome_iff_exists]
  constructor
  · rintro ⟨⟨k, a⟩, he⟩
    obtain ⟨c, hc, ha, -⟩ := entryAt_eq_some.mp he
    exact ⟨c, a, hc, ha⟩
  · rintro ⟨c, a, hc, ha⟩
    exact ⟨_, entryAt_eq_some.mpr ⟨c, hc, ha, rfl⟩⟩

theorem Chain.mem_iff_occupied (h : Chain l is) (i : Nat) : i ∈ is ↔ l.Occupied i :=
  (h.occupied i).trans (isSome_entryAt_iff l i)

theorem Chain.mem_free_iff_vacant (h : Chain l is) (i : Nat) : i ∈ l.free ↔ l.Vacant i := by
  rw [h.mem_free, h.mem_iff_occupied]
  constructor
  · rintro ⟨hi, hout⟩
    refine ⟨l.cells[i], Array.getElem?_eq_getElem hi, ?_⟩
    exact Option.eq_none_iff_forall_ne_some.mpr fun a ha =>
      hout ⟨_, a, Array.getElem?_eq_getElem hi, ha⟩
  · rintro ⟨c, hc, hv⟩
    refine ⟨(Array.getElem?_eq_some_iff.mp hc).1, fun ⟨d, a, hd, ha⟩ => ?_⟩
    obtain rfl := Option.some.inj (hc.symm.trans hd)
    cases hv.symm.trans ha

theorem Chain.unlinked_of_mem_free (h : Chain l is) {i : Nat} (hi : i ∈ l.free) : l.Unlinked i := by
  obtain ⟨c, hc, hv⟩ := (h.mem_free_iff_vacant i).mp hi
  exact ⟨c, hc, h.unlinked i c hc hv⟩

theorem Chain.length_eq_ncard (h : Chain l is) : l.length = {i | l.Occupied i}.ncard := by
  have hset : {i | l.Occupied i} = (is.toFinset : Set Nat) := by
    ext i
    rw [Set.mem_ofPred_eq, ← h.mem_iff_occupied, List.coe_toFinset, Set.mem_ofPred_eq]
  rw [hset, Set.ncard_coe_finset, List.toFinset_card_of_nodup h.nodup, h.length]

/-- Every cell is in the chain or free, once. -/
theorem Chain.perm_range (h : Chain l is) : (is ++ l.free).Perm (List.range l.cells.size) := by
  have hd : (is ++ l.free).Nodup := List.nodup_append.mpr
    ⟨h.nodup, h.free_nodup, fun i hi j hj e => ((h.mem_free j).mp hj).2 (e ▸ hi)⟩
  refine (List.perm_ext_iff_of_nodup hd List.nodup_range).mpr fun i => ?_
  rw [List.mem_append, h.mem_free, List.mem_range]
  constructor
  · rintro (hi | ⟨hi, -⟩)
    · exact h.lt_size hi
    · exact hi
  · intro hi
    exact (Decidable.em (i ∈ is)).imp_right fun hout => ⟨hi, hout⟩

/-- The cells in use and the free ones are all there are. -/
theorem Chain.size_eq (h : Chain l is) : l.cells.size = l.length + l.free.length := by
  have hlen := h.perm_range.length_eq
  rw [List.length_append, List.length_range] at hlen
  rw [← hlen, h.length]

/-! ### How many cells there are -/

theorem size_pushBack (l : WatchList α) (a : α) :
    (l.pushBack a).1.cells.size = if l.free = [] then l.cells.size + 1 else l.cells.size := by
  rw [cells_pushBack, size_setNext, occupy]
  cases l.free <;> simp

theorem index_pushBack_mem_free (hf : l.free ≠ []) (a : α) : (l.pushBack a).2.index ∈ l.free := by
  rw [key_pushBack, occupy]
  cases hfree : l.free with
  | nil => exact absurd hfree hf
  | cons i rest => exact List.mem_cons_self

/-- A request adds cells just as far as it makes the list longer than there are cells. -/
theorem Sound.size_serve (h : l.Sound) (r : Request α) :
    (l.serve r).1.cells.size = max l.cells.size (l.serve r).1.length := by
  have hsize := h.chain.size_eq
  cases r with
  | push a =>
    have hlength : (l.pushBack a).1.length = l.length + 1 := rfl
    rw [serve, size_pushBack, hlength]
    split
    · next hf =>
      rw [hf, List.length_nil] at hsize
      omega
    · next hf =>
      have hpos := List.length_pos_iff.mpr hf
      omega
  | remove k =>
    have hafter := (h.remove k).chain.size_eq
    have hsame := size_remove l k
    simp only [serve]
    omega
  | contains | front | length =>
    simp only [serve]
    omega

theorem Sound.serve (h : l.Sound) (r : Request α) : (l.serve r).1.Sound := by
  cases r with
  | push a => exact h.pushBack a
  | remove k => exact h.remove k
  | contains | front | length => exact h

theorem after_concat (l : WatchList α) (rs : List (Request α)) (r : Request α) :
    l.after (rs ++ [r]) = ((l.after rs).serve r).1 := by
  rw [after, List.foldl_append]
  rfl

theorem lengthsUpTo_concat (rs : List (Request α)) (r : Request α) : lengthsUpTo (rs ++ [r]) =
    insert (({} : WatchList α).after (rs ++ [r])).length (lengthsUpTo rs) := by
  ext n
  simp only [lengthsUpTo, Set.mem_ofPred_eq, Set.mem_insert_iff, List.prefix_concat_iff]
  constructor
  · rintro ⟨past, rfl | hpast, rfl⟩
    · exact Or.inl rfl
    · exact Or.inr ⟨past, hpast, rfl⟩
  · rintro (rfl | ⟨past, hpast, rfl⟩)
    · exact ⟨_, Or.inl rfl, rfl⟩
    · exact ⟨past, Or.inr hpast, rfl⟩

/-- After any requests the list is sound, and there are as many cells as it was ever long. -/
theorem sound_after (rs : List (Request α)) : (({} : WatchList α).after rs).Sound ∧
    IsGreatest (lengthsUpTo rs) (({} : WatchList α).after rs).cells.size := by
  induction rs using List.reverseRecOn with
  | nil =>
    refine ⟨sound_empty, ⟨[], List.prefix_rfl, rfl⟩, ?_⟩
    rintro n ⟨past, hpast, rfl⟩
    rw [List.prefix_nil.mp hpast]
    exact le_rfl
  | append_singleton rs r ih =>
    obtain ⟨hsound, hgreatest⟩ := ih
    rw [lengthsUpTo_concat, after_concat, hsound.size_serve, max_comm]
    exact ⟨hsound.serve r, hgreatest.insert _⟩

/-! ### The main statement -/

/-- Whatever values are appended and whatever keys are removed, in any order, the cells of the list are
    well kept: one chain, read both ways; the free cells beside it; and no more cells than were ever
    needed at once. -/
theorem arena_well_kept (rs : List (Request α)) :
    ∃ is, WellKept (({} : WatchList α).after rs) is (lengthsUpTo rs) := by
  obtain ⟨hsound, hgreatest⟩ := sound_after rs
  obtain ⟨is, h⟩ := hsound
  refine ⟨is, ?_⟩
  exact {
    forwards := fun n => h.head ▸ h.linked.forwardFrom_eq n
    backwards := fun n => h.tail ▸ h.linked.backwardFrom_eq n
    nodup := h.nodup
    occupied := h.mem_iff_occupied
    free_nodup := h.free_nodup
    vacant := h.mem_free_iff_vacant
    unlinked := fun _ hi => h.unlinked_of_mem_free hi
    length := h.length_eq_ncard
    accounted := h.perm_range
    high_water := hgreatest
    reused := fun hf a => ⟨index_pushBack_mem_free hf a, by rw [size_pushBack, if_neg hf]⟩ }

end WatchList

end Invalidation
