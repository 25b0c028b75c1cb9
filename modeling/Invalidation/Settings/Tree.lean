import Invalidation.Number.Binary64
import Invalidation.Text.Lowercase
import Invalidation.Toml.Basic

/-! The tree that the layers of settings are merged into. Every value remembers which layer it came
    from, if a layer gave it as a whole; a table or array that merging made has no origin.

    Merging one value into a table at a key:

        a table      key by key, into the table at that key; an empty one changes nothing
        other        takes the place of what was there

    Keys are written in small letters when they are set. -/

namespace Invalidation

/-- A single value. -/
inductive Scalar where
  | nil
  | bool (value : Bool)
  | int (value : Int)
  | real (value : Binary64)
  | text (value : String)
  deriving DecidableEq

/-- A value with its origin, and what is inside it. -/
inductive Tree where
  | scalar (origin : Option String) (value : Scalar)
  | array (origin : Option String) (elements : List Tree)
  | table (origin : Option String) (members : List (String × Tree))

namespace Tree

instance : Inhabited Tree := ⟨.scalar none .nil⟩

/-- The value that stands where nothing was given. -/
def nil : Tree := .scalar none .nil

/-- What a key stands for among some members. -/
def findKey (k : String) : List (String × Tree) → Option Tree
  | [] => none
  | (j, t) :: ms => if j = k then some t else findKey k ms

/-- The members with a key standing for something else, or with a new key. -/
def putKey (k : String) (t : Tree) : List (String × Tree) → List (String × Tree)
  | [] => [(k, t)]
  | (j, u) :: ms => if j = k then (k, t) :: ms else (j, u) :: putKey k t ms

/-- The members of a table; anything else has none. -/
def members : Tree → List (String × Tree)
  | .table _ ms => ms
  | _ => []

/-- The elements of an array; anything else has none. -/
def elements : Tree → List Tree
  | .array _ ts => ts
  | _ => []

/-- The origin of a table; a table that takes the place of something else has none. -/
def tableOrigin : Tree → Option String
  | .table o _ => o
  | _ => none

/-- The origin of an array; an array that takes the place of something else has none. -/
def arrayOrigin : Tree → Option String
  | .array o _ => o
  | _ => none

/-- The tree with a key set to a value; what is no table gives way to one. -/
def withKey (t : Tree) (k : String) (v : Tree) : Tree := .table t.tableOrigin (putKey k v t.members)

mutual

/-- Merges a value into a tree at a key. -/
def merge (v : Tree) (key : String) (into : Tree) : Tree :=
  let k := Text.lowercase key
  match v with
  | .table _ ms => into.withKey k (mergeMembers ms ((findKey k into.members).getD (.table none [])))
  | v => into.withKey k v

/-- Merges members into a tree, each at its key, in the order of the list. -/
def mergeMembers : List (String × Tree) → Tree → Tree
  | [], into => into
  | m :: ms, into => mergeMembers ms (mergeMember m into)

/-- Merges one member into a tree at its key. -/
def mergeMember : String × Tree → Tree → Tree
  | (k, v), into => merge v k into

end

mutual

/-- The tree of a TOML value that came from a layer. -/
def ofToml (origin : String) : Toml → Tree
  | .bool b => .scalar (some origin) (.bool b)
  | .int i => .scalar (some origin) (.int i)
  | .real x => .scalar (some origin) (.real x)
  | .text s => .scalar (some origin) (.text s)
  | .time s => .scalar (some origin) (.text s)
  | .array vs => .array (some origin) (ofElements origin vs)
  | .table ms => .table (some origin) (ofMembers origin ms)

/-- The trees of the elements of an array. -/
def ofElements (origin : String) : List Toml → List Tree
  | [] => []
  | v :: vs => ofToml origin v :: ofElements origin vs

/-- The trees of the members of a table. -/
def ofMembers (origin : String) : List (String × Toml) → List (String × Tree)
  | [] => []
  | m :: ms => ofMember origin m :: ofMembers origin ms

/-- The tree of one member of a table. -/
def ofMember (origin : String) : String × Toml → String × Tree
  | (k, v) => (k, ofToml origin v)

end

end Tree

end Invalidation
