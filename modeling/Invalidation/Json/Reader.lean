import Invalidation.Json.Basic
import Invalidation.Text.Escape

/-! JSON text read as a value. A reader takes what it can from the front of the text and answers with
    what follows; the text must hold one value and blanks. Nesting is bounded by the length of the
    text, which is the fuel that the readers of values share.

    A number without point and exponent is whole if it fits; a minus zero is not, as whole numbers
    have no such zero. Of the digits of any other number, only as many are kept as 64 bits hold; the
    number that they write is rounded to floating point, and scaled by its power of ten. -/

namespace Invalidation

namespace Json

/-- What follows the blanks in front. -/
def skipBlanks (cs : List Char) : List Char :=
  cs.dropWhile fun c => c == ' ' || c == '\n' || c == '\r' || c == '\t'

/-! ### Strings -/

/-- The character behind `\u`: four digits, or the two halves of a pair of surrogates. -/
def unicodeEscape? (cs : List Char) : Option (Char × List Char) := do
  let (n, rest) ← Text.hexDigits? 0 4 cs
  if 0xD800 ≤ n ∧ n < 0xDC00 then
    match rest with
    | '\\' :: 'u' :: more =>
      let (m, rest) ← Text.hexDigits? 0 4 more
      if 0xDC00 ≤ m ∧ m < 0xE000 then
        return (← Text.char? (0x10000 + (n - 0xD800) * 0x400 + (m - 0xDC00)), rest)
      else none
    | _ => none
  else return (← Text.char? n, rest)

/-- The rest of a string behind its opening quote; `done` holds its characters so far, last in front. -/
def string? (done : List Char) : Nat → List Char → Option (String × List Char)
  | 0, _ => none
  | _, [] => none
  | fuel + 1, c :: cs =>
    if c == '"' then some (String.ofList done.reverse, cs)
    else if c == '\\' then
      match cs with
      | 'u' :: more =>
        match unicodeEscape? more with
        | some (d, rest) => string? (d :: done) fuel rest
        | none => none
      | e :: rest =>
        if e == '/' then string? (e :: done) fuel rest
        else
          match Text.letterEscape? e with
          | some d => string? (d :: done) fuel rest
          | none => none
      | [] => none
    else if c.toNat < 32 then none
    else string? (c :: done) fuel cs

/-! ### Numbers -/

/-- The digits in front that 64 bits hold, as a number, and the digits that are left. -/
def significand (n : Nat) : List Char → Nat × List Char
  | [] => (n, [])
  | c :: cs =>
    let m := 10 * n + Numeral.digit c; if m < UInt64.size then significand m cs else (n, c :: cs)

/-- The value times `10 ^ e`, in steps of `10 ^ -308` for exponents below that; three steps reach zero.
    A product beyond the range of finite values is refused. -/
def scaled? (x : Binary64) (e : Int) : Nat → Option Binary64
  | 0 => some x
  | steps + 1 =>
    if x.isZero then some x
    else if e > 308 then none
    else if e < -308 then scaled? (x.timesPowerOfTen (-308)) (e + 308) steps
    else
      let y := x.timesPowerOfTen e
      if y.isInfinite then none else some y

/-- The floating point number with these digits before and after the point and this exponent. -/
def realOf? (negative : Bool) (whole places : List Char) (e : Int) : Option Binary64 := do
  let (n, left) := significand 0 (whole ++ places)
  let x ← scaled? (Binary64.ofDecimal false n 0) (e + left.length - places.length) 4
  return if negative then x.negate else x

/-- A number without its sign: whole if it can be. -/
def unsigned? (negative : Bool) (cs : List Char) : Option (Json × List Char) := do
  let (whole, rest) := Numeral.digits cs
  if whole.isEmpty ∨ (whole.length > 1 ∧ whole.head? = some '0') then none
  let (places, rest, pointed) :=
    match rest with
    | '.' :: more => let (p, r) := Numeral.digits more; (p, r, true)
    | _ => ([], rest, false)
  if pointed ∧ places.isEmpty then none
  let (e, rest, scaled) ←
    match rest with
    | c :: more =>
      if c == 'e' || c == 'E' then
        let (minus, more) := Numeral.sign more
        let (ds, r) := Numeral.digits more
        if ds.isEmpty then none
        else some (if minus then -(Numeral.value ds : Int) else (Numeral.value ds : Int), r, true)
      else some (0, rest, false)
    | [] => some (0, [], false)
  let n := Numeral.value whole
  if !pointed && !scaled && (if negative then 0 < n && n ≤ Nat.pow 2 63 else n < UInt64.size) then
    return (.int (if negative then -(n : Int) else n), rest)
  else return (.real (← realOf? negative whole places e), rest)

/-- A number in front. -/
def number? : List Char → Option (Json × List Char)
  | '-' :: cs => unsigned? true cs
  | cs => unsigned? false cs

/-! ### Values -/

mutual

/-- A value in front, behind blanks. -/
def value? : Nat → List Char → Option (Json × List Char)
  | 0, _ => none
  | fuel + 1, cs =>
    match skipBlanks cs with
    | '"' :: rest => do
      let (s, rest) ← string? [] rest.length.succ rest
      return (.text s, rest)
    | '[' :: rest =>
      match skipBlanks rest with
      | ']' :: rest => some (.array [], rest)
      | rest => do
        let (xs, rest) ← elements? fuel rest
        return (.array xs, rest)
    | '\x7b' :: rest =>
      match skipBlanks rest with
      | '\x7d' :: rest => some (.object [], rest)
      | rest => do
        let (ms, rest) ← members? fuel rest
        return (.ofMembers ms, rest)
    | 't' :: 'r' :: 'u' :: 'e' :: rest => some (.bool true, rest)
    | 'f' :: 'a' :: 'l' :: 's' :: 'e' :: rest => some (.bool false, rest)
    | 'n' :: 'u' :: 'l' :: 'l' :: rest => some (.null, rest)
    | rest => number? rest

/-- The elements of an array up to its closing bracket. -/
def elements? : Nat → List Char → Option (List Json × List Char)
  | 0, _ => none
  | fuel + 1, cs => do
    let (x, rest) ← value? fuel cs
    match skipBlanks rest with
    | ']' :: rest => return ([x], rest)
    | ',' :: rest =>
      let (xs, rest) ← elements? fuel rest
      return (x :: xs, rest)
    | _ => none

/-- The members of an object up to its closing brace. -/
def members? : Nat → List Char → Option (List (String × Json) × List Char)
  | 0, _ => none
  | fuel + 1, cs => do
    match skipBlanks cs with
    | '"' :: rest =>
      let (name, rest) ← string? [] rest.length.succ rest
      match skipBlanks rest with
      | ':' :: rest =>
        let (v, rest) ← value? fuel rest
        match skipBlanks rest with
        | '\x7d' :: rest => return ([(name, v)], rest)
        | ',' :: rest =>
          let (ms, rest) ← members? fuel rest
          return ((name, v) :: ms, rest)
        | _ => none
      | _ => none
    | _ => none

end

/-- The value that a text holds. -/
def parse? (s : String) : Option Json := do
  let cs := s.toList
  let (v, rest) ← value? (2 * cs.length + 1) cs
  if (skipBlanks rest).isEmpty then some v else none

end Json

end Invalidation
