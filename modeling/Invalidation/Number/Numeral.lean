import Invalidation.Number.Binary64

/-! Decimal numerals as people write them, read as whole numbers or as binary floating point.

        whole number:   [+-] digits
        real number:    [+-] ( digits [. digits*] | [digits] . digits ) [ e [+-] digits ]
                        [+-] ( inf | infinity | nan )            in any case

    A numeral has nothing around it: neither blanks nor separators between its digits. -/

namespace Invalidation

namespace Numeral

/-- Whether the character is one of the ten ASCII digits. -/
def isDigit (c : Char) : Bool := '0' ≤ c && c ≤ '9'

/-- The value of an ASCII digit. -/
def digit (c : Char) : Nat := c.toNat - '0'.toNat

/-- The number that a run of digits writes. -/
def value (cs : List Char) : Nat := cs.foldl (fun n c => 10 * n + digit c) 0

/-- The longest run of digits in front, and what follows it. -/
def digits (cs : List Char) : List Char × List Char := (cs.takeWhile isDigit, cs.dropWhile isDigit)

/-- An optional sign in front, true for a minus, and what follows it. -/
def sign : List Char → Bool × List Char
  | '-' :: cs => (true, cs)
  | '+' :: cs => (false, cs)
  | cs => (false, cs)

/-- Digits and nothing else. -/
def natural? (cs : List Char) : Option Nat :=
  if !cs.isEmpty && cs.all isDigit then some (value cs) else none

/-- A whole number with an optional sign. -/
def integer? (cs : List Char) : Option Int := do
  let (negative, rest) := sign cs
  let n ← natural? rest
  return if negative then -(n : Int) else n

/-- A whole number with an optional sign that fits 64 bits. -/
def int64? (cs : List Char) : Option Int := do
  let i ← integer? cs
  if -Int.pow 2 63 ≤ i ∧ i < Int.pow 2 63 then some i else none

/-- A whole number that fits 64 bits without a sign bit; a plus may stand in front of it. -/
def uint64? (cs : List Char) : Option UInt64 := do
  let n ← natural? (match cs with | '+' :: rest => rest | cs => cs)
  if n < UInt64.size then some (UInt64.ofNat n) else none

/-- The exponent that ends a numeral: nothing, or `e` with a whole number. -/
def exponent? : List Char → Option Int
  | [] => some 0
  | c :: cs => if c == 'e' || c == 'E' then integer? cs else none

/-- The digits before and after the point of a numeral, and what follows them; one digit at least. -/
def mantissa? (cs : List Char) : Option (List Char × List Char × List Char) :=
  let (whole, rest) := digits cs
  let (places, rest) := match rest with | '.' :: more => digits more | _ => ([], rest)
  if whole.isEmpty && places.isEmpty then none else some (whole, places, rest)

/-- A numeral of digits, without a sign, as a binary floating point number. -/
def unsigned? (negative : Bool) (cs : List Char) : Option Binary64 := do
  let (whole, places, rest) ← mantissa? cs
  let e ← exponent? rest
  return Binary64.ofDecimal negative (value (whole ++ places)) (e - places.length)

/-- A real number in any of its forms as a binary floating point number. -/
def real? (cs : List Char) : Option Binary64 :=
  let (negative, rest) := sign cs
  match String.ofList (rest.map Char.toLower) with
  | "inf" | "infinity" => some (.infinite negative)
  | "nan" => some .nan
  | _ => unsigned? negative rest

end Numeral

end Invalidation
