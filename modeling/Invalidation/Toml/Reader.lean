import Invalidation.Toml.Number
import Invalidation.Toml.Tables
import Invalidation.Toml.Time

/-! TOML text read as a table. The text is a sequence of statements, each on a line of its own: a key
    with its value, or a header that names the table for the keys that follow. A text with a fault
    anywhere has no value; what the fault is makes no difference. -/

namespace Invalidation

namespace Toml

/-- A value that begins like a number: a date or time, a real number, or a whole number. -/
def numberOrTime? (cs : List Char) : Option (Toml × List Char) :=
  (time? cs).orElse fun _ => (digitsReal? cs).orElse fun _ => (namedReal? cs).orElse fun _ =>
    integer? cs

mutual

/-- A value in front, inside `depth` others. -/
def value? (depth : Nat) : Nat → Reader Toml
  | 0, _ => none
  | fuel + 1, cs =>
    match cs with
    | '"' :: _ | '\x27' :: _ => (string? cs).map fun (s, rest) => (.text s, rest)
    | '[' :: rest =>
      if depth + 1 < depthLimit then
        match skipLines rest.length.succ rest with
        | ']' :: rest => some (.array [], rest)
        | rest => (elements? (depth + 1) fuel rest).map fun (vs, rest) => (.array vs, rest)
      else none
    | '\x7b' :: rest =>
      if depth + 1 < depthLimit then
        match skipBlanks rest with
        | '\x7d' :: rest => some (.table [], rest)
        | rest => (inlineMembers? (depth + 1) [] fuel rest).map fun (ms, rest) =>
          (.table (finishMembers ms), rest)
      else none
    | 't' :: 'r' :: 'u' :: 'e' :: rest => some (.bool true, rest)
    | 'f' :: 'a' :: 'l' :: 's' :: 'e' :: rest => some (.bool false, rest)
    | _ => numberOrTime? cs

/-- The elements of an array up to its closing bracket; a comma may follow the last. -/
def elements? (depth : Nat) : Nat → Reader (List Toml)
  | 0, _ => none
  | fuel + 1, cs => do
    let (v, rest) ← value? depth fuel cs
    match skipLines rest.length.succ rest with
    | ']' :: rest => return ([v], rest)
    | ',' :: rest =>
      match skipLines rest.length.succ rest with
      | ']' :: rest => return ([v], rest)
      | rest =>
        let (vs, rest) ← elements? depth fuel rest
        return (v :: vs, rest)
    | _ => none

/-- The members of a table within one line, added to those read so far, up to its closing brace. -/
def inlineMembers? (depth : Nat) (ms : Members) : Nat → Reader Members
  | 0, _ => none
  | fuel + 1, cs => do
    let ((path, k), rest) ← key? cs
    match rest with
    | '=' :: rest =>
      let (v, rest) ← value? depth fuel (skipBlanks rest)
      let ms ← addValue path k v ms
      match skipBlanks rest with
      | '\x7d' :: rest => return (ms, rest)
      | ',' :: rest => inlineMembers? depth ms fuel rest
      | _ => none
    | _ => none

end

/-- The text so far: its tables, and the path of the header in force. -/
structure Document where
  members : Members := []
  header : List String := []

/-- A statement in front, with the end of its line. -/
def statement? (d : Document) : Reader Document
  | '[' :: '[' :: cs => do
    let ((path, k), rest) ← key? cs
    match rest with
    | ']' :: ']' :: rest => return (⟨← appendTable path k d.members, path ++ [k]⟩, ← endOfLine? rest)
    | _ => none
  | '[' :: cs => do
    let ((path, k), rest) ← key? cs
    match rest with
    | ']' :: rest => return (⟨← nameTable path k d.members, path ++ [k]⟩, ← endOfLine? rest)
    | _ => none
  | cs => do
    let ((path, k), rest) ← key? cs
    match rest with
    | '=' :: rest =>
      let (v, rest) ← value? 0 rest.length.succ (skipBlanks rest)
      return ({ d with members := ← changeNamed d.header (addValue path k v) d.members },
        ← endOfLine? rest)
    | _ => none

/-- The statements of a text, one after the other. -/
def statements? (d : Document) : Nat → List Char → Option Document
  | 0, _ => none
  | fuel + 1, cs =>
    match skipLines cs.length.succ cs with
    | [] => some d
    | rest => do
      let (d, rest) ← statement? d rest
      statements? d fuel rest

/-- What follows a byte order mark in front. -/
def skipMark : List Char → List Char
  | c :: cs => if c.toNat = 0xFEFF then cs else c :: cs
  | [] => []

/-- The table that a text writes. -/
def parse? (text : String) : Option (List (String × Toml)) := do
  let cs := skipMark text.toList
  let d ← statements? {} cs.length.succ cs
  match ← withTimes? (.table (finishMembers d.members)) with
  | .table ms => some ms
  | _ => none

end Toml

end Invalidation
