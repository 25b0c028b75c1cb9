import Invalidation.WatchList.Basic
import Mathlib.Data.List.Nodup

/-! The links of a list. A list is *sound* when its occupied cells form one chain: read forwards from
    the head or backwards from the tail the same cells are met, in opposite orders, and every cell
    that is not met is free. Appending puts one cell behind the chain, removing takes one out of it
    wherever it stands, and both leave the list sound.

        is = xs ++ i :: ys      xs ⇄ i ⇄ ys   ──remove i──▶   xs ⇄ ys      free: i :: free

    The two halves of a removal, the link from behind and the link from before, are stated apart:
    each mends one end of a chain and leaves every other chain alone. -/

namespace Invalidation

namespace WatchList

variable {α : Type}

/-! ### Chains of cells -/

/-- The cells `is` follow each other: `p` precedes the first and `n` follows the last. -/
def Linked (cells : Array (Cell α)) : Option Nat → List Nat → Option Nat → Prop
  | _, [], _ => True
  | p, i :: is, n =>
    (∃ c, cells[i]? = some c ∧ c.previous = p ∧ c.next = is.head?.or n) ∧ Linked cells (some i) is n

/-- The cells with `n` as the cell that follows `q`. -/
def setNext (cells : Array (Cell α)) (q n : Option Nat) : Array (Cell α) :=
  match q with
  | some j => cells.modify j fun c => { c with next := n }
  | none => cells

/-- The cells with `p` as the cell that precedes `q`. -/
def setPrevious (cells : Array (Cell α)) (q p : Option Nat) : Array (Cell α) :=
  match q with
  | some j => cells.modify j fun c => { c with previous := p }
  | none => cells

theorem linked_append (cells : Array (Cell α)) (xs ys : List Nat) (p n : Option Nat) :
    Linked cells p (xs ++ ys) n ↔
      Linked cells p xs (ys.head?.or n) ∧ Linked cells (xs.getLast?.or p) ys n := by
  induction xs generalizing p with
  | nil => simp [Linked]
  | cons x xs ih =>
    have hlast : (x :: xs).getLast?.or p = xs.getLast?.or (some x) := by
      cases xs <;> simp [List.getLast?_cons]
    simp only [List.cons_append, Linked, ih, hlast, and_assoc]
    cases xs <;> simp

/-- A chain stays a chain when its own cells keep their links. -/
theorem Linked.congr {cells cells' : Array (Cell α)} {p n : Option Nat} {is : List Nat}
    (h : Linked cells p is n)
    (same : ∀ i ∈ is, cells'[i]?.map (fun c => (c.previous, c.next)) =
      cells[i]?.map fun c => (c.previous, c.next)) :
    Linked cells' p is n := by
  induction is generalizing p with
  | nil => trivial
  | cons i is ih =>
    obtain ⟨⟨c, hc, hp, hn⟩, hrest⟩ := h
    refine ⟨?_, ih hrest fun j hj => same j (List.mem_cons_of_mem _ hj)⟩
    have hi := same i List.mem_cons_self
    rw [hc] at hi
    obtain ⟨c', hc', heq⟩ := Option.map_eq_some_iff.mp hi
    obtain ⟨hprev, hnext⟩ := Prod.mk.inj heq
    exact ⟨c', hc', hprev.trans hp, hnext.trans hn⟩

theorem getElem?_setNext (cells : Array (Cell α)) (q n : Option Nat) (i : Nat) :
    (setNext cells q n)[i]? =
      if q = some i then cells[i]?.map fun c => { c with next := n } else cells[i]? := by
  cases q with
  | none => simp [setNext]
  | some j => simp [setNext, Array.getElem?_modify]

theorem getElem?_setPrevious (cells : Array (Cell α)) (q p : Option Nat) (i : Nat) :
    (setPrevious cells q p)[i]? =
      if q = some i then cells[i]?.map fun c => { c with previous := p } else cells[i]? := by
  cases q with
  | none => simp [setPrevious]
  | some j => simp [setPrevious, Array.getElem?_modify]

@[simp] theorem size_setNext (cells : Array (Cell α)) (q n : Option Nat) :
    (setNext cells q n).size = cells.size := by
  cases q <;> simp [setNext]

@[simp] theorem size_setPrevious (cells : Array (Cell α)) (q p : Option Nat) :
    (setPrevious cells q p).size = cells.size := by
  cases q <;> simp [setPrevious]

theorem Linked.setNext_other {cells : Array (Cell α)} {p n q m : Option Nat} {is : List Nat}
    (h : Linked cells p is n) (hq : ∀ i ∈ is, q ≠ some i) : Linked (setNext cells q m) p is n :=
  h.congr fun i hi => by rw [getElem?_setNext, if_neg (hq i hi)]

theorem Linked.setPrevious_other {cells : Array (Cell α)} {p n q m : Option Nat} {is : List Nat}
    (h : Linked cells p is n) (hq : ∀ i ∈ is, q ≠ some i) : Linked (setPrevious cells q m) p is n :=
  h.congr fun i hi => by rw [getElem?_setPrevious, if_neg (hq i hi)]

/-- Setting what follows the last cell of a chain. -/
theorem Linked.setNext_last {cells : Array (Cell α)} {p n : Option Nat} {xs : List Nat}
    (h : Linked cells p xs n) (hx : xs.Nodup) (m : Option Nat) :
    Linked (setNext cells xs.getLast? m) p xs m := by
  rcases List.eq_nil_or_concat xs with rfl | ⟨ys, j, rfl⟩
  · trivial
  · rw [List.concat_eq_append] at *
    have hj : ∀ i ∈ ys, some j ≠ some i := fun i hi e =>
      (List.nodup_append.mp hx).2.2 i hi j List.mem_cons_self (Option.some.inj e).symm
    rw [linked_append] at h ⊢
    obtain ⟨hys, ⟨c, hc, hp, -⟩, -⟩ := h
    rw [List.getLast?_concat]
    refine ⟨hys.setNext_other hj, ⟨{ c with next := m }, ?_, hp, by simp⟩, trivial⟩
    rw [getElem?_setNext, if_pos rfl, hc]
    rfl

/-- Setting what precedes the first cell of a chain. -/
theorem Linked.setPrevious_head {cells : Array (Cell α)} {p n : Option Nat} {ys : List Nat}
    (h : Linked cells p ys n) (hy : ys.Nodup) (m : Option Nat) :
    Linked (setPrevious cells ys.head? m) m ys n := by
  cases ys with
  | nil => trivial
  | cons j ys =>
    obtain ⟨⟨c, hc, -, hn⟩, hrest⟩ := h
    have hj : ∀ i ∈ ys, some j ≠ some i := fun i hi e =>
      (List.nodup_cons.mp hy).1 (Option.some.inj e ▸ hi)
    refine ⟨⟨{ c with previous := m }, ?_, rfl, hn⟩, hrest.setPrevious_other hj⟩
    rw [List.head?_cons, getElem?_setPrevious, if_pos rfl, hc]
    rfl

/-! ### What the operations do to the cells -/

/-- The entry in a cell, with the key that it has there. -/
def entryAt (cells : Array (Cell α)) (i : Nat) : Option (Key × α) := do
  let c ← cells[i]?
  let a ← c.value
  some (⟨i, c.generation⟩, a)

@[simp] theorem entryAt_setNext (cells : Array (Cell α)) (q n : Option Nat) (i : Nat) :
    entryAt (setNext cells q n) i = entryAt cells i := by
  unfold entryAt
  rw [getElem?_setNext]
  split
  · cases cells[i]? <;> rfl
  · rfl

@[simp] theorem entryAt_setPrevious (cells : Array (Cell α)) (q p : Option Nat) (i : Nat) :
    entryAt (setPrevious cells q p) i = entryAt cells i := by
  unfold entryAt
  rw [getElem?_setPrevious]
  split
  · cases cells[i]? <;> rfl
  · rfl

theorem entryAt_eq_some {cells : Array (Cell α)} {i : Nat} {k : Key} {a : α} :
    entryAt cells i = some (k, a) ↔
      ∃ c, cells[i]? = some c ∧ c.value = some a ∧ k = ⟨i, c.generation⟩ := by
  unfold entryAt
  rcases cells[i]? with _ | ⟨v, g, p, n⟩
  · simp
  · cases v <;> simp [eq_comm, and_comm]

theorem entryAt_of_free {cells : Array (Cell α)} {i : Nat} {c : Cell α} (hc : cells[i]? = some c)
    (hv : c.value = none) : entryAt cells i = none := by
  simp [entryAt, hc, hv]

theorem get?_eq_some_iff (l : WatchList α) (k : Key) (a : α) :
    l.get? k = some a ↔ entryAt l.cells k.index = some (k, a) := by
  rw [entryAt_eq_some]
  unfold get?
  obtain ⟨i, g⟩ := k
  cases l.cells[i]? with
  | none => simp
  | some c =>
    by_cases hg : c.generation = g
    · simp [hg]
    · simp [hg, Ne.symm hg]

@[simp] theorem cells_linkForward (l : WatchList α) (p n : Option Nat) :
    (l.linkForward p n).cells = setNext l.cells p n := by
  cases p <;> rfl

@[simp] theorem cells_linkBackward (l : WatchList α) (n p : Option Nat) :
    (l.linkBackward n p).cells = setPrevious l.cells n p := by
  cases n <;> rfl

@[simp] theorem head_linkForward (l : WatchList α) (p n : Option Nat) :
    (l.linkForward p n).head = if p = none then n else l.head := by
  cases p <;> rfl

@[simp] theorem tail_linkForward (l : WatchList α) (p n : Option Nat) :
    (l.linkForward p n).tail = l.tail := by
  cases p <;> rfl

@[simp] theorem free_linkForward (l : WatchList α) (p n : Option Nat) :
    (l.linkForward p n).free = l.free := by
  cases p <;> rfl

@[simp] theorem head_linkBackward (l : WatchList α) (n p : Option Nat) :
    (l.linkBackward n p).head = l.head := by
  cases n <;> rfl

@[simp] theorem tail_linkBackward (l : WatchList α) (n p : Option Nat) :
    (l.linkBackward n p).tail = if n = none then p else l.tail := by
  cases n <;> rfl

end WatchList

end Invalidation
