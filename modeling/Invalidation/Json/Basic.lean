import Invalidation.Number.Binary64

/-! JSON values. A whole number between `-2 ^ 63` and `2 ^ 64 - 1` is kept exactly, any other number
    as binary floating point. The members of an object are sorted by name and no name comes twice. -/

namespace Invalidation

/-- A JSON value. -/
inductive Json where
  | null
  | bool (value : Bool)
  | int (value : Int)
  | real (value : Binary64)
  | text (value : String)
  | array (elements : List Json)
  | object (members : List (String × Json))

instance : Inhabited Json := ⟨.null⟩

namespace Json

/-- Puts a member in its place among sorted members; of two with one name the new one stays. -/
def insertMember (name : String) (v : Json) : List (String × Json) → List (String × Json)
  | [] => [(name, v)]
  | (n, w) :: ms =>
    if name = n then (name, v) :: ms
    else if name < n then (name, v) :: (n, w) :: ms
    else (n, w) :: insertMember name v ms

/-- An object with these members. -/
def ofMembers (ms : List (String × Json)) : Json :=
  .object (ms.foldl (fun acc m => insertMember m.1 m.2 acc) [])

/-- A natural number. -/
def nat (n : Nat) : Json := .int n

/-- The member of that name, if the value is an object that has it. -/
def member? (name : String) : Json → Option Json
  | .object ms => (ms.find? fun m => m.1 == name).map Prod.snd
  | _ => none

end Json

end Invalidation
