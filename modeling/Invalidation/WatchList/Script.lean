import Invalidation.WatchList.Basic

/-! A script for a list on its own. The keys that pushing hands out are numbered in order, and a later
    step names a key by its number. -/

namespace Invalidation

namespace WatchList

/-- One step of a script for a list. -/
inductive Step (α : Type) where
  | push (value : α)
  | remove (key : Nat)
  | contains (key : Nat)
  | look

/-- The result of a step. -/
inductive StepResult (α : Type) where
  | key (key : Key)
  | removed (value : Option α)
  | truth (value : Bool)
  | nothing

/-- What there is to see after a step: its result, the length, and the value in front. -/
structure Observation (α : Type) where
  result : StepResult α
  length : Nat
  front : Option α

variable {α : Type}

/-- Performs a step on a list and the keys handed out so far. -/
def perform (l : WatchList α) (keys : Array Key) : Step α → WatchList α × Array Key × StepResult α
  | .push a => let (m, k) := l.pushBack a; (m, keys.push k, .key k)
  | .remove i =>
    match keys[i]? with
    | some k => let (m, a) := l.remove k; (m, keys, .removed a)
    | none => (l, keys, .removed none)
  | .contains i => (l, keys, .truth ((keys[i]?.map l.contains).getD false))
  | .look => (l, keys, .nothing)

/-- What there is to see after every step of a script, from a list and the keys handed out so far. -/
def observeFrom (l : WatchList α) (keys : Array Key) : List (Step α) → List (Observation α)
  | [] => []
  | s :: ss =>
    let (m, keys, r) := l.perform keys s
    ⟨r, m.length, m.front?⟩ :: m.observeFrom keys ss

/-- What there is to see after every step of a script that begins with the empty list. -/
def observe (steps : List (Step α)) : List (Observation α) := ({} : WatchList α).observeFrom #[] steps

end WatchList

end Invalidation
