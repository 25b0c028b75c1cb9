/-! A doubly linked list whose entries live in an arena of numbered cells. Every entry is addressed
    by a key that carries the generation of its cell, so a key that has gone stale can never reach
    an entry that later takes over the same cell.

        head ──▶ cell 2 ⇄ cell 0 ⇄ cell 3 ◀── tail        free: [1]

    The cell freed last is the next to be used; a new cell is taken only when none is free. The
    generation of a cell grows by one, modulo `2 ^ 32`, whenever its entry is removed.

    The arena is unbounded. Where cells are numbered with 32 bits there are at most `2 ^ 32` of
    them, and to append to a list that has an entry in every one panics: "watcher list exceeds
    u32::MAX entries". That panic is not modelled. What is said here of a list is meant of lists
    that never hold `2 ^ 32` entries at once. -/

namespace Invalidation

namespace WatchList

/-- What removes one entry again: the cell it is in and the generation it has there. -/
structure Key where
  index : Nat
  generation : UInt32
  deriving DecidableEq, Inhabited

/-- A cell of the arena; it is free while it has no value. -/
structure Cell (α : Type) where
  value : Option α
  generation : UInt32
  previous : Option Nat
  next : Option Nat

end WatchList

/-- An arena-backed list of values. -/
structure WatchList (α : Type) where
  cells : Array (WatchList.Cell α) := #[]
  /-- The free cells, the one freed last in front. -/
  free : List Nat := []
  head : Option Nat := none
  tail : Option Nat := none
  length : Nat := 0

namespace WatchList

variable {α : Type}

instance : Inhabited (WatchList α) := ⟨{}⟩

/-- A key as text, `ListKey { index: 0, generation: 0 }`. -/
def Key.text (k : Key) : String :=
  "ListKey \x7b index: " ++ toString k.index ++ ", generation: " ++
    toString k.generation.toNat ++ " \x7d"

/-- The generation that cell `i` has now; a cell that does not exist yet starts at zero. -/
def generationOf (l : WatchList α) (i : Nat) : UInt32 := (l.cells[i]?.map Cell.generation).getD 0

/-- Puts a value into the cell that is next in turn, behind the tail, and answers with the cell. -/
def occupy (l : WatchList α) (a : α) : WatchList α × Nat :=
  match l.free with
  | i :: rest =>
    ({ l with
        cells := l.cells.modify i fun c => { c with value := some a, previous := l.tail, next := none }
        free := rest }, i)
  | [] => ({ l with cells := l.cells.push ⟨some a, 0, l.tail, none⟩ }, l.cells.size)

/-- Makes `next` the cell that follows `previous`, or the head if nothing precedes. -/
def linkForward (l : WatchList α) (previous next : Option Nat) : WatchList α :=
  match previous with
  | some p => { l with cells := l.cells.modify p fun c => { c with next := next } }
  | none => { l with head := next }

/-- Makes `previous` the cell that precedes `next`, or the tail if nothing follows. -/
def linkBackward (l : WatchList α) (next previous : Option Nat) : WatchList α :=
  match next with
  | some n => { l with cells := l.cells.modify n fun c => { c with previous := previous } }
  | none => { l with tail := previous }

/-- Appends a value and answers with the key that removes it again. -/
def pushBack (l : WatchList α) (a : α) : WatchList α × Key :=
  let (m, i) := l.occupy a
  let m := m.linkForward l.tail (some i)
  ({ m with tail := some i, length := l.length + 1 }, ⟨i, l.generationOf i⟩)

/-- The value at the head. -/
def front? (l : WatchList α) : Option α := do
  let i ← l.head
  let c ← l.cells[i]?
  c.value

/-- The value behind a key, unless the key is stale. -/
def get? (l : WatchList α) (k : Key) : Option α := do
  let c ← l.cells[k.index]?
  if c.generation = k.generation then c.value else none

/-- Whether an entry is behind the key. -/
def contains (l : WatchList α) (k : Key) : Bool := (l.get? k).isSome

/-- Takes the entry behind a key out of the list; a stale key changes nothing. -/
def remove (l : WatchList α) (k : Key) : WatchList α × Option α :=
  match l.cells[k.index]?, l.get? k with
  | some c, some a =>
    let m := (l.linkForward c.previous c.next).linkBackward c.next c.previous
    ({ m with
        cells := m.cells.modify k.index fun c => ⟨none, c.generation + 1, none, none⟩
        free := k.index :: l.free
        length := l.length - 1 }, some a)
  | _, _ => (l, none)

/-! ### The list read from front to back -/

/-- The cells met on the way from cell `i` along the forward links, at most `fuel` of them. -/
def forwardFrom (l : WatchList α) : Nat → Option Nat → List Nat
  | 0, _ => []
  | _, none => []
  | fuel + 1, some i => i :: l.forwardFrom fuel (l.cells[i]?.bind Cell.next)

/-- The cells met on the way from cell `i` along the backward links, at most `fuel` of them. -/
def backwardFrom (l : WatchList α) : Nat → Option Nat → List Nat
  | 0, _ => []
  | _, none => []
  | fuel + 1, some i => i :: l.backwardFrom fuel (l.cells[i]?.bind Cell.previous)

/-- The occupied cells from head to tail. -/
def indices (l : WatchList α) : List Nat := l.forwardFrom l.cells.size l.head

/-- The entries with their keys, from head to tail. -/
def entries (l : WatchList α) : List (Key × α) :=
  l.indices.filterMap fun i => do
    let c ← l.cells[i]?
    let a ← c.value
    some (⟨i, c.generation⟩, a)

/-- The values from head to tail. -/
def toList (l : WatchList α) : List α := l.entries.map Prod.snd

end WatchList

end Invalidation
