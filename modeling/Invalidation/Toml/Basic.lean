import Invalidation.Number.Binary64

/-! TOML values. A date or time is kept as its text in one fixed form; a table lists its keys in the
    order in which they came. -/

namespace Invalidation

/-- A TOML value. -/
inductive Toml where
  | bool (value : Bool)
  | int (value : Int)
  | real (value : Binary64)
  | text (value : String)
  | time (text : String)
  | array (elements : List Toml)
  | table (members : List (String × Toml))

namespace Toml

instance : Inhabited Toml := ⟨.table []⟩

/-- A reader takes what it can from the front of some text and answers with what follows. -/
abbrev Reader (α : Type) : Type := List Char → Option (α × List Char)

end Toml

end Invalidation
