import Invalidation.Text.Escape
import Invalidation.Toml.Basic

/-! The texts of TOML: blanks, comments and line ends between the words, bare keys, and the four kinds
    of strings. A line ends with a line feed, which a carriage return may precede; inside a string over
    several lines both endings read as a line feed. -/

namespace Invalidation

namespace Toml

/-- Whether the character is a blank inside a line. -/
def isBlank (c : Char) : Bool := c == ' ' || c == '\t'

/-- Whether the character may stand in a comment: anything but a control other than the tab. -/
def isPrintable (c : Char) : Bool := c == '\t' || (c.toNat ≥ 32 && c.toNat ≠ 127)

/-- What follows the blanks in front. -/
def skipBlanks (cs : List Char) : List Char := cs.dropWhile isBlank

/-- A line end in front. -/
def lineEnd? : List Char → Option (List Char)
  | '\n' :: cs => some cs
  | '\r' :: '\n' :: cs => some cs
  | _ => none

/-- What follows a comment in front, or the text itself if there is none. -/
def skipComment : List Char → List Char
  | '#' :: cs => cs.dropWhile isPrintable
  | cs => cs

/-- The end of a statement: blanks, perhaps a comment, and the end of the line or of the text. -/
def endOfLine? (cs : List Char) : Option (List Char) :=
  match skipComment (skipBlanks cs) with
  | [] => some []
  | rest => lineEnd? rest

/-- What follows blanks, comments and line ends in any number; `fuel` is at least their number. -/
def skipLines : Nat → List Char → List Char
  | 0, cs => cs
  | fuel + 1, cs =>
    match skipBlanks cs with
    | '#' :: rest => skipLines fuel (rest.dropWhile isPrintable)
    | rest =>
      match lineEnd? rest with
      | some more => skipLines fuel more
      | none => rest

/-- What follows blanks and line ends in any number; `fuel` is at least the number of lines. -/
def skipBlankLines : Nat → List Char → List Char
  | 0, cs => cs
  | fuel + 1, cs =>
    match lineEnd? (skipBlanks cs) with
    | some rest => skipBlankLines fuel rest
    | none => skipBlanks cs

/-- Whether the character may stand in a bare key. -/
def isBare (c : Char) : Bool := c.isAlphanum || c == '_' || c == '-'

/-! ### Strings -/

/-- The character that stands behind a backslash. -/
def escape? : Reader Char
  | 'u' :: cs => do
    let (n, rest) ← Text.hexDigits? 0 4 cs
    return (← Text.char? n, rest)
  | 'U' :: cs => do
    let (n, rest) ← Text.hexDigits? 0 8 cs
    return (← Text.char? n, rest)
  | c :: cs => (Text.letterEscape? c).map fun d => (d, cs)
  | [] => none

/-- The rest of a string in double quotes; `done` holds its characters so far, last in front. -/
def basic? (done : List Char) : Nat → Reader String
  | 0, _ => none
  | _, [] => none
  | fuel + 1, c :: cs =>
    if c == '"' then some (String.ofList done.reverse, cs)
    else if c == '\\' then
      match escape? cs with
      | some (d, rest) => basic? (d :: done) fuel rest
      | none => none
    else if isPrintable c then basic? (c :: done) fuel cs
    else none

/-- The rest of a string in single quotes, which has no escapes. -/
def literal? (cs : List Char) : Option (String × List Char) :=
  let body := cs.takeWhile fun c => isPrintable c && c ≠ '\x27'
  match cs.dropWhile fun c => isPrintable c && c ≠ '\x27' with
  | '\x27' :: rest => some (String.ofList body, rest)
  | _ => none

/-- What follows a run of the quote `q`, and how long the run is. -/
def quoteRun (q : Char) (cs : List Char) : Nat × List Char :=
  ((cs.takeWhile (· == q)).length, cs.dropWhile (· == q))

/-- A backslash that ends a line takes with it all blanks and line ends up to the next word. -/
def lineContinuation? (cs : List Char) : Option (List Char) :=
  (lineEnd? (skipBlanks cs)).map fun rest => skipBlankLines rest.length.succ rest

/-- The rest of a string over several lines, between three quotes `q` on either side. Up to two more
    quotes may stand before the closing three. Escapes are read if `q` is the double quote. -/
def longString? (q : Char) (done : List Char) : Nat → Reader String
  | 0, _ => none
  | _, [] => none
  | fuel + 1, c :: cs =>
    if c == q then
      let (n, rest) := quoteRun q (c :: cs)
      if n < 3 then longString? q (List.replicate n q ++ done) fuel rest
      else if n > 5 then none
      else some (String.ofList (List.replicate (n - 3) q ++ done).reverse, rest)
    else if c == '\\' && q == '"' then
      match lineContinuation? cs with
      | some rest => longString? q done fuel rest
      | none =>
        match escape? cs with
        | some (d, rest) => longString? q (d :: done) fuel rest
        | none => none
    else
      match lineEnd? (c :: cs) with
      | some rest => longString? q ('\n' :: done) fuel rest
      | none => if isPrintable c then longString? q (c :: done) fuel cs else none

/-- A string over several lines behind its opening quotes; a line end right behind them is dropped. -/
def long? (q : Char) (cs : List Char) : Option (String × List Char) :=
  let body := (lineEnd? cs).getD cs
  longString? q [] body.length.succ body

/-- A string of any kind. -/
def string? : Reader String
  | '"' :: '"' :: '"' :: cs => long? '"' cs
  | '"' :: cs => basic? [] cs.length.succ cs
  | '\x27' :: '\x27' :: '\x27' :: cs => long? '\x27' cs
  | '\x27' :: cs => literal? cs
  | _ => none

/-! ### Keys -/

/-- One part of a key: bare, or a string within one line. -/
def keyPart? : Reader String
  | '"' :: cs => basic? [] cs.length.succ cs
  | '\x27' :: cs => literal? cs
  | cs =>
    let word := cs.takeWhile isBare
    if word.isEmpty then none else some (String.ofList word, cs.dropWhile isBare)

/-- The most parts that a key may have, and one more than values may be nested. -/
def depthLimit : Nat := 80

/-- The parts of a key, set apart by points, with blanks around each. -/
def keyParts? : Nat → Reader (List String)
  | 0, _ => none
  | fuel + 1, cs => do
    let (part, rest) ← keyPart? (skipBlanks cs)
    match skipBlanks rest with
    | '.' :: more =>
      let (parts, rest) ← keyParts? fuel more
      return (part :: parts, rest)
    | rest => return ([part], rest)

/-- A key: the parts that lead to it, and the last one. -/
def key? (cs : List Char) : Option ((List String × String) × List Char) := do
  let (parts, rest) ← keyParts? (depthLimit - 1) cs
  let last ← parts.getLast?
  return ((parts.dropLast, last), rest)

end Toml

end Invalidation
