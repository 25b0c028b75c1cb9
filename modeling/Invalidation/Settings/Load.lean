import Invalidation.Number.Shortest
import Invalidation.Settings.Basic
import Invalidation.Settings.Environment
import Invalidation.Settings.Files
import Invalidation.Settings.Order
import Invalidation.Store
import Invalidation.Text.Quoted
import Invalidation.Toml.Reader

/-! Settings loaded in layers, each over the one before: the settings so far, a file, the environment.

        settings so far ──▶ file ──▶ environment ──▶ tree ──▶ settings

    A call that loads walks the keys of a source in some order, and keys that lead to the same place
    meet in that order. The keys of the settings so far never meet, so they have none.

    Reading the tree is generous: a truth value may be written as a number or a word, a whole number
    as a truth value, a real number or a word, and each part as an array of its fields. What is missing
    has its default, not the value so far, which is in the tree anyway unless something replaced it.
    If several values do not mean what their keys ask for, nothing fixes which of them is told; here
    it is the first one in the order of the fields. -/

namespace Invalidation

/-- Why settings could not be loaded. -/
inductive LoadError where
  /-- A value so far is greater than a layer can hold. -/
  | tooGreat (value : Nat)
  /-- There is no file of that name. -/
  | noFile (name : String)
  /-- The file is not of a kind that can be read. -/
  | foreignFile
  /-- The file cannot be read. -/
  | malformedFile
  /-- A key names no place in an array. -/
  | noPlace (reason : NoPlace)
  /-- A value does not mean what its key asks for. -/
  | mismatch (found expected key : String) (origin : Option String)
  /-- A single value stands where a part of the settings belongs. -/
  | notRecord (found record : String)
  deriving DecidableEq

namespace LoadError

/-- The error as a sentence; for files that cannot be read there is none. -/
def message? : LoadError → Option String
  | .tooGreat n => some ("value " ++ toString n ++ " is greater than the max 9223372036854775807")
  | .noFile name => some ("configuration file \"" ++ name ++ "\" not found")
  | .foreignFile | .malformedFile => none
  | .noPlace .beforeFirst => some "attempt to subtract with overflow"
  | .noPlace .tooLong => some "capacity overflow"
  | .mismatch found expected key origin =>
    some ("invalid type: " ++ found ++ ", expected " ++ expected ++ " for key `" ++ key ++ "`" ++
      (match origin with | some o => " in " ++ o | none => ""))
  | .notRecord found record => some ("invalid type: " ++ found ++ ", expected struct " ++ record)

end LoadError

namespace Scalar

/-- What a single value is, in the words of an error message. -/
def described : Scalar → String
  | .nil => "unit value"
  | .bool b => "boolean `" ++ (if b then "true" else "false") ++ "`"
  | .int i => "integer `" ++ toString i ++ "`"
  | .real x => "floating point `" ++ x.text ++ "`"
  | .text s => "string " ++ Text.quoted s

/-- A word that stands for a truth value. -/
def truth? (word : String) : Option Bool :=
  match word with
  | "1" | "true" | "on" | "yes" => some true
  | "0" | "false" | "off" | "no" => some false
  | _ => none

/-- A word that stands for one or zero. -/
def unit? (word : String) : Option UInt64 :=
  match word with
  | "true" | "on" | "yes" => some 1
  | "false" | "off" | "no" => some 0
  | _ => none

/-- The truth value that a single value means, or what it is instead. -/
def asBool : Scalar → Except String Bool
  | .nil => .error "unit value"
  | .bool b => .ok b
  | .int i => .ok (i ≠ 0)
  | .real x => .ok (!x.isZero)
  | .text s =>
    match truth? (Text.lowercase s) with
    | some b => .ok b
    | none => .error ("string " ++ Text.quoted (Text.lowercase s))

/-- The whole number that a single value means, or what it is and what is expected instead. -/
def asUInt64 : Scalar → Except (String × String) UInt64
  | .nil => .error ("unit value", "an integer")
  | .bool b => .ok (if b then 1 else 0)
  | .int i =>
    if i < 0 then .error ("64-bit integer `" ++ toString i ++ "`", "an unsigned 64 bit or less integer")
    else .ok (UInt64.ofNat i.toNat)
  | .real x => .ok x.toUInt64
  | .text s =>
    match unit? (Text.lowercase s), Numeral.uint64? s.toList with
    | some n, _ => .ok n
    | none, some n => .ok n
    | none, none => .error ("string " ++ Text.quoted s, "an integer")

end Scalar

namespace Tree

/-- The truth value at a key. -/
def readBool (key : String) : Tree → Except LoadError Bool
  | .scalar o v =>
    match v.asBool with
    | .ok b => .ok b
    | .error found => .error (.mismatch found "a boolean" key o)
  | .array o _ => .error (.mismatch "sequence" "a boolean" key o)
  | .table o _ => .error (.mismatch "map" "a boolean" key o)

/-- The whole number at a key. -/
def readUInt64 (key : String) : Tree → Except LoadError UInt64
  | .scalar o v =>
    match v.asUInt64 with
    | .ok n => .ok n
    | .error (found, expected) => .error (.mismatch found expected key o)
  | .array o _ => .error (.mismatch "sequence" "an integer" key o)
  | .table o _ => .error (.mismatch "map" "an integer" key o)

/-- The field of a part, by its name in a table or by its place in an array, read by `read` or
    missing. -/
def readField {α : Type} (part field : String) (place : Nat) (read : String → Tree → Except LoadError α)
    (missing : α) : Tree → Except LoadError α
  | .table _ ms =>
    match findKey field ms with
    | some t => read (part ++ "." ++ field) t
    | none => .ok missing
  | .array _ ts =>
    match ts[place]? with
    | some t => read (part ++ "[" ++ toString place ++ "]") t
    | none => .ok missing
  | .scalar _ _ => .ok missing

/-- Makes sure that a part of the settings is not a single value. -/
def checkRecord (record : String) : Tree → Except LoadError Unit
  | .scalar _ v => .error (.notRecord v.described record)
  | _ => .ok ()

end Tree

namespace Firing

/-- The firing settings in a tree. -/
def ofTree (t : Tree) : Except LoadError Firing := do
  t.checkRecord "FiringConfig"
  return { traceRedirects := ← t.readField "firing" "trace_redirects" 0 Tree.readBool false }

end Firing

namespace Linking

/-- The linking settings in a tree. -/
def ofTree (t : Tree) : Except LoadError Linking := do
  t.checkRecord "LinkingConfig"
  return {
    rejectSelfLoops := ← t.readField "linking" "reject_self_loops" 0 Tree.readBool true
    maxJumpDistance := ← t.readField "linking" "max_jump_distance" 1 Tree.readUInt64 2147483647 }

end Linking

namespace Settings

/-- The settings in a tree. -/
def ofTree (t : Tree) : Except LoadError Settings := do
  let firing ← match Tree.findKey "firing" t.members with
    | some u => Firing.ofTree u
    | none => .ok {}
  let linking ← match Tree.findKey "linking" t.members with
    | some u => Linking.ofTree u
    | none => .ok {}
  return ⟨firing, linking⟩

/-- The settings as the tree that layers are laid over; a distance of `2 ^ 63` or more does not fit. -/
def toTree? (s : Settings) : Except LoadError Tree :=
  let n := s.linking.maxJumpDistance.toNat
  if n < Nat.pow 2 63 then
    .ok
      (.table none
        [("firing", .table none [("trace_redirects", .scalar none (.bool s.firing.traceRedirects))]),
          ("linking",
            .table none
              [("reject_self_loops", .scalar none (.bool s.linking.rejectSelfLoops)),
                ("max_jump_distance", .scalar none (.int n))])])
  else .error (.tooGreat n)

/-- Where settings are loaded from. -/
structure Sources where
  files : Files := []
  /-- The environment: its variables with their values. -/
  env : Store String String := {}

/-- The layer of a file. -/
def fileLayer (files : Files) (name : String) : Except LoadError (List (String × Tree)) :=
  match files.search name with
  | .missing => .error (.noFile name)
  | .foreign => .error .foreignFile
  | .found file =>
    match Toml.parse? file.text with
    | some ms => .ok (Tree.ofMembers file.path ms)
    | none => .error .malformedFile

/-- Lays one more layer over a tree. -/
def layOver (t : Tree) (layer : List (String × Tree)) : Except LoadError Tree :=
  (Tree.addLayer layer t).mapError .noPlace

/-- Loads settings over the settings so far: from a file, if one is named, and from the environment. The
    call walks the keys of either in an order of its own. -/
def loadOver (s : Settings) (sources : Sources) (file : Option String) (orders : Orders) :
    Except LoadError Settings := do
  let base ← s.toTree?
  let fromFile ← match file with | some name => fileLayer sources.files name | none => .ok []
  let t ← layOver base (orders.file.layer fromFile)
  let t ← layOver t (orders.environment.layer (Environment.layer sources.env.pairs))
  ofTree t

/-- Loads the settings over these from a file and from the environment. -/
def override (s : Settings) (sources : Sources) (file : String) (orders : Orders) :
    Except LoadError Settings :=
  s.loadOver sources (some file) orders

/-- Loads settings over the default, from the file that the variable `CONFIG_PATH` names, if it is set,
    and from the environment. -/
def load (sources : Sources) (orders : Orders) : Except LoadError Settings :=
  loadOver {} sources (sources.env.get? "CONFIG_PATH") orders

end Settings

end Invalidation
