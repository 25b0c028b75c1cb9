import Invalidation.Json.Basic
import Invalidation.Number.Shortest

/-! JSON values written as text on one line: no blanks, control characters escaped, everything else as
    it is. The writers append to the text that they are given. -/

namespace Invalidation

namespace Json

/-- A character of a string as it stands between quotes. -/
def escaped (c : Char) : String :=
  if c == '"' then "\\\""
  else if c == '\\' then "\\\\"
  else if c.toNat < 16 then "\\u000" ++ String.ofList (Nat.toDigits 16 c.toNat)
  else if c.toNat < 32 then "\\u00" ++ String.ofList (Nat.toDigits 16 c.toNat)
  else String.singleton c

/-- Appends a string in quotes. -/
def writeString (out s : String) : String :=
  (s.toList.foldl (fun acc c => acc ++ escaped c) (out ++ "\"")) ++ "\""

mutual

/-- Appends a value. -/
def write (out : String) : Json → String
  | .null => out ++ "null"
  | .bool b => out ++ (if b then "true" else "false")
  | .int i => out ++ toString i
  | .real x => out ++ x.shortText
  | .text s => writeString out s
  | .array xs => writeElements (out ++ "[") xs ++ "]"
  | .object ms => writeMembers (out ++ "\x7b") ms ++ "\x7d"

/-- Appends values set apart by commas. -/
def writeElements (out : String) : List Json → String
  | [] => out
  | [x] => write out x
  | x :: xs => writeElements (write out x ++ ",") xs

/-- Appends members set apart by commas. -/
def writeMembers (out : String) : List (String × Json) → String
  | [] => out
  | [m] => writeMember out m
  | m :: ms => writeMembers (writeMember out m ++ ",") ms

/-- Appends one member. -/
def writeMember (out : String) : String × Json → String
  | (name, v) => write (writeString out name ++ ":") v

end

/-- The value as text. -/
def render (v : Json) : String := write "" v

end Json

end Invalidation
