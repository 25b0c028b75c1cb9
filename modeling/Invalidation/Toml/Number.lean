import Invalidation.Number.Numeral
import Invalidation.Toml.Text

/-! The numbers of TOML. Single underscores may stand between digits. A whole number fits 64 bits with
    its sign, and can be written in hexadecimal, octal or binary as well; a decimal one does not begin
    with a needless zero. A real number has a fraction, an exponent or both; one too great for floating
    point is refused, unless it is negative. -/

namespace Invalidation

namespace Toml

/-- The digits in front, single underscores between them left out; one digit at least. -/
def digitRun? (isDigit : Char → Bool) : Nat → Reader (List Char)
  | 0, _ => none
  | _, [] => none
  | fuel + 1, c :: cs =>
    if isDigit c then
      match cs with
      | '_' :: more => do
        let (ds, rest) ← digitRun? isDigit fuel more
        return (c :: ds, rest)
      | d :: _ =>
        if isDigit d then do
          let (ds, rest) ← digitRun? isDigit fuel cs
          return (c :: ds, rest)
        else some ([c], cs)
      | [] => some ([c], [])
    else none

/-- A run of decimal digits. -/
def decimalRun? (cs : List Char) : Option (List Char × List Char) :=
  digitRun? Numeral.isDigit cs.length cs

/-- A sign in front as text, and what follows it. -/
def signText : List Char → List Char × List Char
  | '+' :: cs => (['+'], cs)
  | '-' :: cs => (['-'], cs)
  | cs => ([], cs)

/-- A decimal whole number without needless zeros, its underscores left out. -/
def decimal? (cs : List Char) : Option (List Char × List Char) :=
  let (sign, rest) := signText cs
  match rest with
  | '0' :: more => some (sign ++ ['0'], more)
  | _ => (decimalRun? rest).map fun (ds, rest) => (sign ++ ds, rest)

/-- A whole number written with digits of another base. -/
def based? (base : Nat) (cs : List Char) : Option (Toml × List Char) := do
  let value (c : Char) : Option Nat := (Text.hexDigit? c).filter (· < base)
  let (ds, rest) ← digitRun? (fun c => (value c).isSome) cs.length cs
  let n := ds.foldl (fun n c => base * n + (value c).getD 0) 0
  if n < Nat.pow 2 63 then some (.int n, rest) else none

/-- A whole number. -/
def integer? : Reader Toml
  | '0' :: 'x' :: cs => based? 16 cs
  | '0' :: 'o' :: cs => based? 8 cs
  | '0' :: 'b' :: cs => based? 2 cs
  | cs => do
    let (ds, rest) ← decimal? cs
    return (.int (← Numeral.int64? ds), rest)

/-- The fraction in front, with its point, or nothing. -/
def fraction? : Reader (List Char)
  | '.' :: cs => (decimalRun? cs).map fun (ds, rest) => ('.' :: ds, rest)
  | cs => some ([], cs)

/-- The exponent in front, with its letter, or nothing. -/
def exponent? : Reader (List Char)
  | c :: cs =>
    if c == 'e' || c == 'E' then
      let (sign, rest) := signText cs
      (decimalRun? rest).map fun (ds, rest) => ('e' :: sign ++ ds, rest)
    else some ([], c :: cs)
  | [] => some ([], [])

/-- A real number written with digits. -/
def digitsReal? (cs : List Char) : Option (Toml × List Char) := do
  let (whole, rest) ← decimal? cs
  let (places, rest) ← fraction? rest
  let (power, rest) ← exponent? rest
  if places.isEmpty && power.isEmpty then none
  let x ← Numeral.real? (whole ++ places ++ power)
  if x = .infinite false then none else some (.real x, rest)

/-- A real number that has a name. -/
def namedReal? (cs : List Char) : Option (Toml × List Char) :=
  let (negative, rest) := Numeral.sign cs
  match rest with
  | 'i' :: 'n' :: 'f' :: more => some (.real (.infinite negative), more)
  | 'n' :: 'a' :: 'n' :: more => some (.real .nan, more)
  | _ => none

end Toml

end Invalidation
