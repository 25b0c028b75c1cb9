import Invalidation.Text.HiddenTable
import Invalidation.Text.Lowercase

/-! Text between quotes, so that every character of it can be seen: a quote and a backslash stand
    behind a backslash, the common controls have letters of their own, and what does not show by
    itself is written as its number, `\u{200b}`. -/

namespace Invalidation

namespace Text

/-- A character as it stands between quotes. -/
def quotedChar (c : Char) : String :=
  match c.toNat with
  | 0 => "\\0"
  | 9 => "\\t"
  | 10 => "\\n"
  | 13 => "\\r"
  | 34 => "\\\""
  | 92 => "\\\\"
  | n =>
    if inRanges hiddenRanges n then "\\u\x7b" ++ String.ofList (Nat.toDigits 16 n) ++ "\x7d"
    else String.singleton c

/-- The text between quotes. -/
def quoted (s : String) : String := "\"" ++ String.join (s.toList.map quotedChar) ++ "\""

end Text

end Invalidation
