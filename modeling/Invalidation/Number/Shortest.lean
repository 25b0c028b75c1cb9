import Invalidation.Number.Binary64

/-! The shortest decimal text of a binary floating point number: the fewest digits that still read
    back as the same value, and of those the nearest to it. Where two are equally near, the way of
    writing decides which.

    A finite value `m · 2 ^ q` is what every real number strictly between its two midpoints rounds
    to; the midpoints themselves do so if and only if `m` is even. For one digit, two digits and so
    on, the two neighbours of the value on the grid of that many digits are tried; the first grid
    with a neighbour in the interval decides, and seventeen digits always suffice. -/

namespace Invalidation

namespace Binary64

/-- The reals that round to a finite value, all over one denominator. -/
structure Interval where
  low : Nat
  value : Nat
  high : Nat
  denominator : Nat
  /-- The two ends belong to the interval. -/
  closed : Bool

/-- The interval of `m · 2 ^ q`. Below a power of two the neighbour is only half as far away. -/
def interval (m : Nat) (q : Int) : Interval :=
  let (n, d) := ratio m q
  let (u, _) := ratio 1 q
  let below := if m = Nat.pow 2 52 ∧ q > leastExponent then u else 2 * u
  { low := 4 * n - below, value := 4 * n, high := 4 * n + 2 * u, denominator := 4 * d,
    closed := m % 2 = 0 }

/-- Whether `g · 10 ^ k` rounds to the value of the interval. -/
def Interval.holds (i : Interval) (g : Nat) (k : Int) : Bool :=
  let x := g * Nat.pow 10 k.toNat * i.denominator
  let s := Nat.pow 10 (-k).toNat
  if i.closed then i.low * s ≤ x && x ≤ i.high * s else i.low * s < x && x < i.high * s

/-- Which of two equally near decimals is taken: the greater, or the one with an even last digit. -/
inductive Tie where
  | up
  | even
  deriving DecidableEq

/-- Whether `below + 1` is taken rather than `below` for `below + r / d`. -/
def Tie.roundsUp (tie : Tie) (below r d : Nat) : Bool :=
  match compare (2 * r) d, tie with
  | .lt, _ => false
  | .gt, _ => true
  | .eq, .up => true
  | .eq, .even => below % 2 = 1

/-- The point of the grid `10 ^ k` that stands for the value, if one of its two neighbours can. -/
def Interval.onGrid (i : Interval) (tie : Tie) (k : Int) : Option Nat :=
  let n := i.value * Nat.pow 10 (-k).toNat
  let d := i.denominator * Nat.pow 10 k.toNat
  let below := n / d
  match i.holds below k, i.holds (below + 1) k with
  | true, true => some (if tie.roundsUp below (n % d) d then below + 1 else below)
  | true, false => some below
  | false, true => some (below + 1)
  | false, false => none

/-- The number of digits of `n / d` before the point, less one: `10 ^ e ≤ n / d < 10 ^ (e + 1)`. -/
def decimalExponent (n d : Nat) : Int :=
  let guess : Int := ((toString n).length : Int) - (toString d).length
  if n * Nat.pow 10 (-guess).toNat < d * Nat.pow 10 guess.toNat then guess - 1 else guess

/-- The first of the grids with `17 - fuel`, `18 - fuel`, … digits that has a point for the value. -/
def search (i : Interval) (tie : Tie) (e : Int) : Nat → Nat × Int
  | 0 => (0, 0)
  | fuel + 1 =>
    let k := e + 1 - (17 - fuel : Nat)
    match i.onGrid tie k with
    | some g => (g, k)
    | none => search i tie e fuel

/-- The shortest digits `g` and their exponent `k`, so that `g · 10 ^ k` reads back as `m · 2 ^ q`. -/
def shortest (tie : Tie) (m : Nat) (q : Int) : Nat × Int :=
  let (n, d) := ratio m q
  search (interval m q) tie (decimalExponent n d) 17

/-- The decimal `g · 10 ^ k` written out in full, with `.0` if it is whole. -/
def positional (g : Nat) (k : Int) : String :=
  if k ≥ 0 then toString (g * Nat.pow 10 k.toNat) ++ ".0"
  else
    let places := (-k).toNat
    let digits := (toString g).toList
    let padded := List.replicate (places + 1 - digits.length) '0' ++ digits
    let (whole, rest) := padded.splitAt (padded.length - places)
    let rest := (rest.reverse.dropWhile (· == '0')).reverse
    String.ofList whole ++ "." ++ (if rest.isEmpty then "0" else String.ofList rest)

/-- An exponent, which always has a sign. -/
def exponentText (e : Int) : String := (if e < 0 then "e-" else "e+") ++ toString e.natAbs

/-- The decimal `g · 10 ^ k` written with one digit before the point and the exponent behind it. -/
def scientific (g : Nat) (k : Int) : String :=
  let digits := ((toString g).toList.reverse.dropWhile (· == '0')).reverse
  let e := k + (toString g).length - 1
  match digits with
  | [] => "0"
  | [d] => String.ofList [d] ++ exponentText e
  | d :: ds => String.ofList (d :: '.' :: ds) ++ exponentText e

/-- A finite magnitude as text by one of the two ways of writing a decimal. -/
def textBy (tie : Tie) (write : Nat → Int → String) : Binary64 → String
  | .nan => "NaN"
  | .infinite s => if s then "-inf" else "inf"
  | .finite s m q =>
    let (g, k) := shortest tie m q
    (if s then "-" else "") ++ (if m = 0 then "0.0" else write g k)

/-- The value as text: never with an exponent, always with a point if it is finite; a tie goes up. -/
def text (x : Binary64) : String := x.textBy .up positional

/-- The value as text that is never long: from `10 ^ 16` on and below `10 ^ -5` it has an exponent; a
    tie goes to the even digit. -/
def shortText (x : Binary64) : String :=
  x.textBy .even fun g k =>
    let point := k + (toString g).length
    if -5 < point ∧ point ≤ 16 then positional g k else scientific g k

end Binary64

end Invalidation
