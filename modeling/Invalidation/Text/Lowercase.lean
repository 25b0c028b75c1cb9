import Invalidation.Text.CaseTable

/-! Text in small letters. Every capital becomes its small form, whatever its script. One letter has
    two small forms: a sigma that ends a word becomes `ς`, any other `σ`; it ends a word if a letter
    stands before it and none after it, marks and the like not counted. -/

namespace Invalidation

namespace Text

/-- Whether a number is in one of the ranges. -/
def inRanges (ranges : List (Nat × Nat)) (n : Nat) : Bool := ranges.any fun r => r.1 ≤ n && n ≤ r.2

/-- Whether the run has the letter with that number. -/
def CaseRun.contains (r : CaseRun) (n : Nat) : Bool :=
  r.first ≤ n && n ≤ r.last && (n - r.first) % r.step == 0

/-- The small form of a character by itself; only the dotted capital I has one of two characters. -/
def lowerChar (c : Char) : List Char :=
  if c.toNat < 128 then [c.toLower]
  else if c.toNat = 0x130 then ['i', Char.ofNat 0x307]
  else
    match caseRuns.find? (·.contains c.toNat) with
    | some r => [Char.ofNat (c.toNat + r.shift).toNat]
    | none => [c]

/-- Whether the first character that counts is a letter with a case. -/
def meetsCased (cs : List Char) : Bool :=
  match cs.dropWhile fun c => inRanges ignorableRanges c.toNat with
  | c :: _ => inRanges casedRanges c.toNat
  | [] => false

/-- The small forms of characters that come after `before`, the nearest of which is in front. -/
def lowerAfter (before : List Char) : List Char → List Char
  | [] => []
  | c :: cs =>
    let small :=
      if c.toNat =
        0x3A3 then [Char.ofNat (if meetsCased before && !meetsCased cs then 0x3C2 else 0x3C3)]
      else lowerChar c
    small ++ lowerAfter (c :: before) cs

/-- The text in small letters. -/
def lowercase (s : String) : String := String.ofList (lowerAfter [] s.toList)

end Text

end Invalidation
