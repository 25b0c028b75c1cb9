/-! Binary floating point numbers of 64 bits as exact values: a magnitude `m · 2 ^ q` with
    `m < 2 ^ 53` and `q ≥ -1074`, a sign that zero has too, two infinities, and one value that is no
    number. A quotient of naturals is rounded to the nearest such value, a half to the even
    magnitude; everything is computed on naturals.

        quotient ──▶ exponent of its leading 53 bits ──▶ whole part, rounded ──▶ m · 2 ^ q -/

namespace Invalidation

/-- A binary floating point number of 64 bits. -/
inductive Binary64 where
  | nan
  | infinite (negative : Bool)
  | finite (negative : Bool) (mantissa : Nat) (exponent : Int)
  deriving DecidableEq

namespace Binary64

/-- The least exponent of a magnitude. -/
def leastExponent : Int := -1074

/-- The greatest exponent of a magnitude. -/
def greatestExponent : Int := 971

/-- Zero with a sign. -/
def zero (negative : Bool) : Binary64 := .finite negative 0 leastExponent

/-- The quotient `n / d` divided by `2 ^ q`, as numerator and denominator. -/
def scale (n d : Nat) (q : Int) : Nat × Nat := (n * Nat.pow 2 (-q).toNat, d * Nat.pow 2 q.toNat)

/-- The natural number nearest to `n / d`, a half going to the even one. -/
def roundToEven (n d : Nat) : Nat :=
  let whole := n / d
  let twice := 2 * (n % d)
  if twice > d || (twice == d && whole % 2 == 1) then whole + 1 else whole

/-- The exponent at which `n / d` has 53 bits before the point, or the least exponent if that is
    greater. -/
def exponentOf (n d : Nat) : Int :=
  let q : Int := (Nat.log2 n : Int) - (Nat.log2 d : Int) - 52
  let (a, b) := scale n d q
  max (if a < b * Nat.pow 2 52 then q - 1 else q) leastExponent

/-- The value nearest to `n / d`, with the sign given. -/
def ofRatio (negative : Bool) (n d : Nat) : Binary64 :=
  if n = 0 || d = 0 then zero negative
  else
    let q := exponentOf n d
    let (a, b) := scale n d q
    let m := roundToEven a b
    let (m, q) := if m = Nat.pow 2 53 then (Nat.pow 2 52, q + 1) else (m, q)
    if q > greatestExponent then .infinite negative else .finite negative m q

/-- The value nearest to `digits · 10 ^ k`, with the sign given. Far outside the range of finite
    values the power of ten is not computed. -/
def ofDecimal (negative : Bool) (digits : Nat) (k : Int) : Binary64 :=
  let magnitude : Int := (toString digits).length + k
  if digits = 0 || magnitude < -400 then zero negative
  else if magnitude > 400 then .infinite negative
  else ofRatio negative (digits * Nat.pow 10 k.toNat) (Nat.pow 10 (-k).toNat)

/-- The value with the opposite sign. -/
def negate : Binary64 → Binary64
  | .nan => .nan
  | .infinite s => .infinite (!s)
  | .finite s m q => .finite (!s) m q

/-- Whether the value is a zero. -/
def isZero : Binary64 → Bool
  | .finite _ 0 _ => true
  | _ => false

/-- Whether the value is an infinity. -/
def isInfinite : Binary64 → Bool
  | .infinite _ => true
  | _ => false

/-- The magnitude `m · 2 ^ q` as numerator and denominator. -/
def ratio (m : Nat) (q : Int) : Nat × Nat := (m * Nat.pow 2 q.toNat, Nat.pow 2 (-q).toNat)

/-- The value times `10 ^ k`, for a power of ten with a finite value: the power is rounded first and
    the product, or for a negative `k` the quotient, is rounded again. -/
def timesPowerOfTen (k : Int) : Binary64 → Binary64
  | .finite s m q =>
    match ofDecimal false 1 k.natAbs with
    | .finite _ n r =>
      let (a, b) := ratio m q
      let (c, d) := ratio n r
      if k < 0 then ofRatio s (a * d) (b * c) else ofRatio s (a * c) (b * d)
    | x => x
  | x => x

/-- The natural number nearest to the value, a half going up, kept within 64 bits; what is below
    zero or no number gives zero. -/
def toUInt64 : Binary64 → UInt64
  | .nan => 0
  | .infinite s => if s then 0 else UInt64.ofNat (UInt64.size - 1)
  | .finite true _ _ => 0
  | .finite false m q =>
    let (a, b) := ratio m q
    UInt64.ofNat (min ((2 * a + b) / (2 * b)) (UInt64.size - 1))

end Binary64

end Invalidation
