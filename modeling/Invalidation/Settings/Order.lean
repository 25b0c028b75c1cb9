import Invalidation.Settings.KeyPath

/-! The order in which a call walks the keys of a source. A table of a source keeps its keys in no
    order at all, so that each call walks them in one of its own, whatever it was in the call before:

        one call     linking = 5, then linking.max_jump_distance = 128   the value gives way
        another      linking.max_jump_distance = 128, then linking = 5   the table gives way

    Only what is laid key by key is walked. An array takes its place whole, and so does what an index
    leads to. -/

namespace Invalidation

/-- Whether what the path leads to is laid into a table; an element of an array is replaced. -/
def KeyPath.intoTable (path : KeyPath) : Bool :=
  match path.steps.getLast? with
  | some (.index _) => false
  | _ => true

/-- An order of the keys of each table of a source. The table is known by the keys that lead to it,
    the last one in front. -/
structure Order where
  walk : List String → List (String × Tree) → List (String × Tree)
  perm : ∀ place ms, (walk place ms).Perm ms

namespace Order

/-- The order in which the keys are written. -/
def written : Order where
  walk := fun _ ms => ms
  perm := fun _ ms => .refl ms

mutual

/-- The tree with the members of its tables in this order. -/
def tree (o : Order) (place : List String) : Tree → Tree
  | .scalar origin v => .scalar origin v
  | .array origin ts => .array origin ts
  | .table origin ms => .table origin (o.walk place (o.members place ms))

/-- The members, each with its own members in this order. -/
def members (o : Order) (place : List String) : List (String × Tree) → List (String × Tree)
  | [] => []
  | m :: ms => o.member place m :: o.members place ms

/-- The member with its own members in this order. -/
def member (o : Order) (place : List String) : String × Tree → String × Tree
  | (k, t) => (k, o.tree (k :: place) t)

end

/-- A top-level member with the tables in it in this order, so far as they are walked. -/
def entry (o : Order) (m : String × Tree) : String × Tree :=
  if (KeyPath.ofKey m.1).intoTable then o.member [] m else m

/-- The layer of a source as it is laid in this order. -/
def layer (o : Order) (ms : List (String × Tree)) : List (String × Tree) := o.walk [] (ms.map o.entry)

end Order

/-- The orders in which one call walks its sources. -/
structure Orders where
  file : Order := .written
  environment : Order := .written

end Invalidation
