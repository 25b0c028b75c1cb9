import Invalidation.Number.Numeral
import Invalidation.Settings.Tree

/-! The top-level keys of a layer name places in the tree, whether in capitals or in small letters.

        path    word ( . word | [ index ] )*
        word    ASCII letters, digits, blanks, _ and -
        index   a whole number, blanks and tabs around it

    A key that is no such path is one plain name. On the way to its place a path makes what is missing:
    a step into something that is no table, or no array, puts an empty one in its stead, and an array
    that is too short is filled up. An index below zero counts from the end. There is no place in front
    of the first element, and none in an array that would be longer than any can be. -/

namespace Invalidation

/-- One step of a path. -/
inductive PathStep where
  | child (key : String)
  | index (index : Int)
  deriving DecidableEq

/-- A place in a tree. -/
structure KeyPath where
  key : String
  steps : List PathStep := []
  deriving DecidableEq

/-- Why an index names no place. -/
inductive NoPlace where
  /-- It counts back beyond the first element. -/
  | beforeFirst
  /-- The array would be too long. -/
  | tooLong
  deriving DecidableEq

namespace KeyPath

/-- Whether the character may stand in a word of a path. -/
def isWord (c : Char) : Bool := c.isAlphanum || c == ' ' || c == '_' || c == '-'

/-- A word in front. -/
def word? (cs : List Char) : Option (String × List Char) :=
  let w := cs.takeWhile isWord
  if w.isEmpty then none else some (String.ofList w, cs.dropWhile isWord)

/-- What follows blanks and tabs in front. -/
def skipBlanks (cs : List Char) : List Char := cs.dropWhile fun c => c == ' ' || c == '\t'

/-- An index in front, with blanks around it, up to its closing bracket. -/
def index? (cs : List Char) : Option (Int × List Char) := do
  let cs := skipBlanks cs
  let (negative, ds) := match cs with | '-' :: ds => (true, ds) | _ => (false, cs)
  let (digits, rest) := Numeral.digits ds
  let i ← Numeral.int64? (if negative then '-' :: digits else digits)
  match skipBlanks rest with
  | ']' :: rest => return (i, rest)
  | _ => none

/-- The steps of a path up to the end of the text. -/
def steps? : Nat → List Char → Option (List PathStep)
  | _, [] => some []
  | 0, _ => none
  | fuel + 1, '.' :: cs => do
    let (w, rest) ← word? cs
    return .child w :: (← steps? fuel rest)
  | fuel + 1, '[' :: cs => do
    let (i, rest) ← index? cs
    return .index i :: (← steps? fuel rest)
  | _, _ => none

/-- The path that a key is, if it is one. -/
def parse? (key : String) : Option KeyPath := do
  let (w, rest) ← word? key.toList
  return ⟨w, ← steps? rest.length.succ rest⟩

/-- The place that a key names, once it is in small letters. -/
def ofKey (key : String) : KeyPath :=
  let key := Text.lowercase key
  (parse? key).getD ⟨key, []⟩

end KeyPath

namespace Tree

/-- How many elements an array can have: each takes 96 of fewer than `2 ^ 63` bytes. -/
def longest : Nat := (Nat.pow 2 63 - 1) / 96

/-- The position that an index means in an array of `n` elements. -/
def position (n : Nat) (i : Int) : Except NoPlace Nat :=
  if i < 0 then
    if i.natAbs ≤ n then .ok (n - i.natAbs) else .error .beforeFirst
  else if i.toNat < longest then .ok i.toNat
  else .error .tooLong

/-- At least `n` elements. -/
def filled (ts : List Tree) (n : Nat) : List Tree := ts ++ List.replicate (n - ts.length) nil

/-- Sets the value at the end of some steps below a tree. -/
def setBelow (v : Tree) : List PathStep → Tree → Except NoPlace Tree
  | [], _ => .ok v
  | [.child k], t => .ok (merge v k t)
  | .child k :: steps, t => do
    let inner ← setBelow v steps ((findKey k t.members).getD nil)
    return t.withKey k inner
  | .index i :: steps, t => do
    let ts := t.elements
    let p ← position ts.length i
    let ts := filled ts (p + 1)
    let inner ← setBelow v steps (ts[p]?.getD nil)
    return .array t.arrayOrigin (ts.set p inner)

/-- Sets the value at a place. -/
def setAt (v : Tree) (path : KeyPath) (t : Tree) : Except NoPlace Tree :=
  setBelow v (.child path.key :: path.steps) t

/-- Merges a layer into a tree, each of its top-level keys at the place that it names, in the order
    of the list: of keys that meet, the later one decides. -/
def addLayer : List (String × Tree) → Tree → Except NoPlace Tree
  | [], t => .ok t
  | (k, v) :: ms, t => do addLayer ms (← setAt v (KeyPath.ofKey k) t)

end Tree

end Invalidation
