import Invalidation.Number.Numeral
import Invalidation.Toml.Basic

/-! The dates and times of TOML, read and written back in one form: `T` between date and time, the
    fraction of a second without needless zeros and of nine digits at most, `Z` or `+hh:mm` for the
    offset.

        1979-05-27    07:32:00.5    1979-05-27T07:32:00    1979-05-27T07:32:00-07:00

    A time may also be written as a table: if the first key of a table is `$__toml_private_datetime`,
    the text at that key is the time, and the other keys say nothing. -/

namespace Invalidation

namespace Toml

/-- Exactly `n` decimal digits in front, as a number. -/
def fixedDigits? (n : Nat) (cs : List Char) : Option (Nat × List Char) :=
  let ds := cs.take n
  if ds.length = n ∧ ds.all Numeral.isDigit then some (Numeral.value ds, cs.drop n) else none

/-- A number of two digits between two bounds. -/
def twoDigits? (least greatest : Nat) (cs : List Char) : Option (Nat × List Char) := do
  let (n, rest) ← fixedDigits? 2 cs
  if least ≤ n ∧ n ≤ greatest then some (n, rest) else none

/-- A character in front. -/
def char? (c : Char) : List Char → Option (List Char)
  | d :: cs => if c = d then some cs else none
  | [] => none

/-- A number written with at least `width` digits. -/
def padded (width n : Nat) : String :=
  let ds := (toString n).toList
  String.ofList (List.replicate (width - ds.length) '0' ++ ds)

/-- Whether a year has a leap day. -/
def isLeapYear (y : Nat) : Bool := y % 4 = 0 && (y % 100 ≠ 0 || y % 400 = 0)

/-- The number of days of a month. -/
def daysOf (year month : Nat) : Nat :=
  if month = 2 then (if isLeapYear year then 29 else 28)
  else if month = 4 ∨ month = 6 ∨ month = 9 ∨ month = 11 then 30
  else 31

/-- A date. -/
def date? (cs : List Char) : Option (String × List Char) := do
  let (y, rest) ← fixedDigits? 4 cs
  let rest ← char? '-' rest
  let (m, rest) ← twoDigits? 1 12 rest
  let rest ← char? '-' rest
  let (d, rest) ← twoDigits? 1 (daysOf y m) rest
  return (padded 4 y ++ "-" ++ padded 2 m ++ "-" ++ padded 2 d, rest)

/-- The fraction of a second in front, or nothing. -/
def secondFraction? : Reader String
  | '.' :: cs =>
    let (ds, rest) := Numeral.digits cs
    let kept := ((ds.take 9).reverse.dropWhile (· == '0')).reverse
    if ds.isEmpty then none else some (if kept.isEmpty then "" else "." ++ String.ofList kept, rest)
  | cs => some ("", cs)

/-- A time of day. -/
def timeOfDay? (cs : List Char) : Option (String × List Char) := do
  let (h, rest) ← twoDigits? 0 23 cs
  let rest ← char? ':' rest
  let (m, rest) ← twoDigits? 0 59 rest
  let rest ← char? ':' rest
  let (s, rest) ← twoDigits? 0 60 rest
  let (fraction, rest) ← secondFraction? rest
  return (padded 2 h ++ ":" ++ padded 2 m ++ ":" ++ padded 2 s ++ fraction, rest)

/-- The offset of a time from the universal time, or nothing; an offset of zero has a plus. -/
def offset? : Reader String
  | 'Z' :: cs | 'z' :: cs => some ("Z", cs)
  | c :: cs =>
    if c == '+' || c == '-' then do
      let (h, rest) ← twoDigits? 0 23 cs
      let rest ← char? ':' rest
      let (m, rest) ← twoDigits? 0 59 rest
      let sign := if c == '-' && h + m > 0 then "-" else "+"
      return (sign ++ padded 2 h ++ ":" ++ padded 2 m, rest)
    else some ("", c :: cs)
  | [] => some ("", [])

/-- The time of day that may follow a date, behind a `T` or a blank. -/
def timeAfterDate? : Reader String
  | c :: cs =>
    if c == 'T' || c == 't' || c == ' ' then do
      let (t, rest) ← timeOfDay? cs
      let (o, rest) ← offset? rest
      return ("T" ++ t ++ o, rest)
    else none
  | [] => none

/-- A date, a time, or both. -/
def time? (cs : List Char) : Option (Toml × List Char) :=
  match date? cs with
  | some (d, rest) =>
    match timeAfterDate? rest with
    | some (t, rest) => some (.time (d ++ t), rest)
    | none => some (.time d, rest)
  | none => (timeOfDay? cs).map fun (t, rest) => (.time t, rest)

/-! ### Times written as tables -/

/-- The first key of a table that is a time. -/
def timeKey : String := "$__toml_private_datetime"

/-- The time that a text writes as a whole. -/
def timeOfText? (s : String) : Option Toml :=
  match time? s.toList with
  | some (t, []) => some t
  | _ => none

/-- What stands at the first key of a table if that key makes it a time. -/
def timeMark? : List (String × Toml) → Option Toml
  | (k, v) :: _ => if k = timeKey then some v else none
  | [] => none

mutual

/-- The value with every table that is a time read as one; it has to be a time that can be read. -/
def withTimes? : Toml → Option Toml
  | .array vs => (elementsWithTimes? vs).map .array
  | .table ms =>
    match timeMark? ms with
    | some (.text s) => timeOfText? s
    | some _ => none
    | none => (membersWithTimes? ms).map .table
  | v => some v

/-- The elements of an array with their times read. -/
def elementsWithTimes? : List Toml → Option (List Toml)
  | [] => some []
  | v :: vs => do return (← withTimes? v) :: (← elementsWithTimes? vs)

/-- The members of a table with their times read. -/
def membersWithTimes? : List (String × Toml) → Option (List (String × Toml))
  | [] => some []
  | m :: ms => do return (← memberWithTimes? m) :: (← membersWithTimes? ms)

/-- One member of a table with its times read. -/
def memberWithTimes? : String × Toml → Option (String × Toml)
  | (k, v) => do return (k, ← withTimes? v)

end

end Toml

end Invalidation
