import Invalidation.Number.Numeral
import Invalidation.Settings.Tree

/-! The layer of settings that comes from environment variables. A variable counts if its name, in
    small letters, begins with `watchpoint__`; what is left of the name is a key, in which `__` reads
    as a point. An empty value counts as none.

        WATCHPOINT__LINKING__MAX_JUMP_DISTANCE=4096        linking.max_jump_distance = 4096 -/

namespace Invalidation

namespace Environment

/-- What a text has behind a beginning. -/
def behind? : List Char → List Char → Option (List Char)
  | [], cs => some cs
  | b :: bs, c :: cs => if b = c then behind? bs cs else none
  | _ :: _, [] => none

/-- The text with every two underscores, counted from the left, read as a point. -/
def dotted : List Char → List Char
  | '_' :: '_' :: cs => '.' :: dotted cs
  | c :: cs => c :: dotted cs
  | [] => []

/-- The key that a variable sets. -/
def key? (name : String) : Option String :=
  (behind? "watchpoint__".toList (Text.lowercase name).toList).map fun cs => String.ofList (dotted cs)

/-- What the value of a variable means: a truth value, a whole number, a real number, or itself. -/
def valueOf (s : String) : Scalar :=
  match Text.lowercase s with
  | "true" => .bool true
  | "false" => .bool false
  | _ =>
    match Numeral.int64? s.toList, Numeral.real? s.toList with
    | some i, _ => .int i
    | none, some x => .real x
    | none, none => .text s

/-- The origin of what comes from a variable. -/
def origin : String := "the environment"

/-- The member that a variable adds to the layer. -/
def member? (entry : String × String) : Option (String × Tree) :=
  if entry.2.isEmpty then none
  else (key? entry.1).map fun k => (k, .scalar (some origin) (valueOf entry.2))

/-- The layer of an environment; of two variables for one key the later counts. Its members are
    listed as the variables come, which says nothing of the order in which they are laid. -/
def layer (env : List (String × String)) : List (String × Tree) :=
  (env.filterMap member?).foldl (fun ms m => Tree.putKey m.1 m.2 ms) []

end Environment

end Invalidation
