import Invalidation.Json.Basic
import Invalidation.Number.Shortest
import Invalidation.Settings.Basic
import Invalidation.Text.Quoted

/-! The JSON form of the settings. Each part may be written as an object, whose members go by name and
    may be missing, or as an array, whose elements go in order and may end early.

        { "firing": { "trace_redirects": true }, "linking": { "max_jump_distance": 4096 } }
        [ [true], [true, 4096] ]

    What is missing has its default, what is unknown is passed over, and of several faults the one
    that is met first is reported; the members of an object are met in the order of their names. -/

namespace Invalidation

namespace Json

/-- What a value is, in the words of an error message. -/
def described : Json → String
  | .null => "null"
  | .bool b => "boolean `" ++ (if b then "true" else "false") ++ "`"
  | .int i => "integer `" ++ toString i ++ "`"
  | .real x => "floating point `" ++ x.shortText ++ "`"
  | .text s => "string " ++ Text.quoted s
  | .array _ => "sequence"
  | .object _ => "map"

/-- The complaint about a value of the wrong kind. -/
def unexpected (v : Json) (expected : String) : String :=
  "invalid type: " ++ v.described ++ ", expected " ++ expected

/-- A truth value. -/
def asBool : Json → Except String Bool
  | .bool b => .ok b
  | v => .error (v.unexpected "a boolean")

/-- A whole number of 64 bits. -/
def asUInt64 : Json → Except String UInt64
  | .int i =>
    if i < 0 then .error ("invalid value: integer `" ++ toString i ++ "`, expected u64")
    else .ok (UInt64.ofNat i.toNat)
  | v => .error (v.unexpected "u64")

/-- How a part of some settings is read from its JSON form into the settings. -/
abbrev Field (α : Type) : Type := String × (Json → α → Except String α)

/-- Reads the members of an object, in their order, each into the field of its name. -/
def readMembers {α : Type} (fields : List (Field α)) : List (String × Json) → α → Except String α
  | [], a => .ok a
  | (name, v) :: ms, a =>
    match fields.find? fun f => f.1 == name with
    | some f => do readMembers fields ms (← f.2 v a)
    | none => readMembers fields ms a

/-- Reads the elements of an array, each into the field at its place; `n` is their number. -/
def readElements {α : Type} (n : Nat) : List (Field α) → List Json → α → Except String α
  | _, [], a => .ok a
  | [], _ :: _, _ => .error ("invalid length " ++ toString n ++ ", expected fewer elements in array")
  | f :: fs, v :: vs, a => do readElements n fs vs (← f.2 v a)

/-- Reads a record in either of its forms, starting from its default. -/
def readRecord {α : Type} (name : String) (fields : List (Field α)) (start : α) : Json → Except String α
  | .object ms => readMembers fields ms start
  | .array vs => readElements vs.length fields vs start
  | v => .error (v.unexpected ("struct " ++ name))

end Json

namespace Firing

/-- The fields of the firing settings in JSON. -/
def jsonFields : List (Json.Field Firing) :=
  [("trace_redirects", fun v f => do return { f with traceRedirects := ← v.asBool })]

/-- The firing settings that a JSON value writes. -/
def ofJson (v : Json) : Except String Firing := v.readRecord "FiringConfig" jsonFields {}

/-- The firing settings as a JSON object. -/
def toJson (f : Firing) : Json := .object [("trace_redirects", .bool f.traceRedirects)]

end Firing

namespace Linking

/-- The fields of the linking settings in JSON. -/
def jsonFields : List (Json.Field Linking) :=
  [("reject_self_loops", fun v l => do return { l with rejectSelfLoops := ← v.asBool }),
    ("max_jump_distance", fun v l => do return { l with maxJumpDistance := ← v.asUInt64 })]

/-- The linking settings that a JSON value writes. -/
def ofJson (v : Json) : Except String Linking := v.readRecord "LinkingConfig" jsonFields {}

/-- The linking settings as a JSON object. -/
def toJson (l : Linking) : Json :=
  .object [("max_jump_distance", .nat l.maxJumpDistance.toNat),
    ("reject_self_loops", .bool l.rejectSelfLoops)]

end Linking

namespace Settings

/-- The fields of the settings in JSON. -/
def jsonFields : List (Json.Field Settings) :=
  [("firing", fun v s => do return { s with firing := ← Firing.ofJson v }),
    ("linking", fun v s => do return { s with linking := ← Linking.ofJson v })]

/-- The settings that a JSON value writes. -/
def ofJson (v : Json) : Except String Settings := v.readRecord "WatchpointConfig" jsonFields {}

/-- The settings as a JSON object. -/
def toJson (s : Settings) : Json := .object [("firing", s.firing.toJson), ("linking", s.linking.toJson)]

end Settings

end Invalidation
