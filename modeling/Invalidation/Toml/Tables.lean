import Invalidation.Toml.Basic

/-! Tables in the making. A table comes into being in one of four ways, and it depends on the way who
    may still add to it:

        [a.b]        names b: explicit, may be named once; a is implicit, may still be named
        a.b = 1      makes a by a dotted key: only dotted keys of the same table may add to it
        [[a]]        appends a table to the list a
        a = { … }    is a value, and finished

    Every change goes down a path of keys to one table and may be refused there. -/

namespace Invalidation

namespace Toml

/-- What a key of a table in the making stands for. -/
inductive Node where
  /-- A value, which is finished. -/
  | value (value : Toml)
  /-- A table; it is implicit until a header names it, and dotted if a dotted key made it. -/
  | table (isImplicit isDotted : Bool) (members : List (String × Node))
  /-- A list of tables, the latest in front. -/
  | tables (items : List (List (String × Node)))

/-- The keys of a table in the making and what they stand for. -/
abbrev Members : Type := List (String × Node)

/-- What a key stands for. -/
def findKey (k : String) : Members → Option Node
  | [] => none
  | (j, n) :: ms => if j = k then some n else findKey k ms

/-- The members with a key standing for something else, or with a new key. -/
def putKey (k : String) (n : Node) : Members → Members
  | [] => [(k, n)]
  | (j, m) :: ms => if j = k then (k, n) :: ms else (j, m) :: putKey k n ms

/-- The members without a key. -/
def dropKey (k : String) (ms : Members) : Members := ms.filter fun m => m.1 ≠ k

/-- Changes the table at the end of a path. On the way, missing tables are made, and the latest of a
    list of tables is taken. A dotted path may not enter a table that a header has named. The change
    is told whether the table is dotted. -/
def changeAt (dotted : Bool) (change : Bool → Members → Option Members) :
    List String → Bool → Members → Option Members
  | [], isDotted, ms => change isDotted ms
  | k :: path, _, ms =>
    match findKey k ms with
    | none => do
      let inner ← changeAt dotted change path dotted []
      return putKey k (.table true dotted inner) ms
    | some (.table isImplicit isDotted inner) =>
      if dotted && !isImplicit then none
      else do
        let inner ← changeAt dotted change path isDotted inner
        return putKey k (.table isImplicit isDotted inner) ms
    | some (.tables (last :: items)) => do
      let last ← changeAt dotted change path false last
      return putKey k (.tables (last :: items)) ms
    | some (.tables []) | some (.value _) => none

/-- Gives a new key a value. A key with a dotted path belongs in a dotted table. -/
def addValue (path : List String) (k : String) (v : Toml) (ms : Members) : Option Members :=
  changeAt true
    (fun isDotted ms =>
      if isDotted = path.isEmpty ∨ (findKey k ms).isSome then none else some (putKey k (.value v) ms))
    path false ms

/-- Names a table by a header: it is new, or implicit so far, and comes last among its neighbours. -/
def nameTable (path : List String) (k : String) (ms : Members) : Option Members :=
  changeAt false
    (fun _ ms =>
      match findKey k ms with
      | none => some (putKey k (.table false false []) ms)
      | some (.table true false inner) => some (dropKey k ms ++ [(k, .table false false inner)])
      | some _ => none)
    path false ms

/-- Appends a table to a list of tables. -/
def appendTable (path : List String) (k : String) (ms : Members) : Option Members :=
  changeAt false
    (fun _ ms =>
      match findKey k ms with
      | none => some (putKey k (.tables [[]]) ms)
      | some (.tables items) => some (putKey k (.tables ([] :: items)) ms)
      | some _ => none)
    path false ms

/-- Changes the table that the latest header named. -/
def changeNamed (header : List String) (change : Members → Option Members) (ms : Members) :
    Option Members :=
  changeAt false (fun _ ms => change ms) header false ms

mutual

/-- The value that a finished node is. -/
def Node.finish : Node → Toml
  | .value v => v
  | .table _ _ ms => .table (finishMembers ms)
  | .tables items => .array (finishTables items).reverse

/-- The members of a finished table. -/
def finishMembers : List (String × Node) → List (String × Toml)
  | [] => []
  | m :: ms => finishMember m :: finishMembers ms

/-- One member of a finished table. -/
def finishMember : String × Node → String × Toml
  | (k, n) => (k, n.finish)

/-- Finished tables. -/
def finishTables : List (List (String × Node)) → List Toml
  | [] => []
  | ms :: items => .table (finishMembers ms) :: finishTables items

end

end Toml

end Invalidation
