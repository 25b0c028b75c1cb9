import Invalidation.Code.Location

/-! Values laid out as text in one of two ways: on one line, or one field a line with four more
    blanks for every level.

        Point { x: 1, y: Some(2) }          Point {
                                                x: 1,
                                                y: Some(
                                                    2,
                                                ),
                                            }

    A value is first turned into a small tree, `Shown`; the two layouts are functions of the tree, so
    that they can only differ in blanks, line ends and trailing commas. -/

namespace Invalidation

/-- What there is to show of a value: plain text, named fields, positional arguments or a list. -/
inductive Shown where
  | atom (text : String)
  | record (name : String) (fields : List (String × Shown))
  | tuple (name : String) (arguments : List Shown)
  | list (items : List Shown)

namespace Shown

/-- A number is shown by its decimal digits. -/
def nat (n : Nat) : Shown := .atom (toString n)

/-- A truth value is shown as `true` or `false`. -/
def bool (b : Bool) : Shown := .atom (if b then "true" else "false")

/-! ### On one line -/

mutual

/-- The value on one line. -/
def compact : Shown → String
  | .atom t => t
  | .record n fs => n ++ " \x7b " ++ compactFields fs ++ " \x7d"
  | .tuple n xs => n ++ "(" ++ compactItems xs ++ ")"
  | .list xs => "[" ++ compactItems xs ++ "]"

/-- Fields as `name: value`, set apart by commas. -/
def compactFields : List (String × Shown) → String
  | [] => ""
  | [f] => compactField f
  | f :: fs => compactField f ++ ", " ++ compactFields fs

/-- One field as `name: value`. -/
def compactField : String × Shown → String
  | (n, v) => n ++ ": " ++ compact v

/-- Values set apart by commas. -/
def compactItems : List Shown → String
  | [] => ""
  | [x] => compact x
  | x :: xs => compact x ++ ", " ++ compactItems xs

end

/-! ### One field a line -/

/-- The blanks that open a line at a depth. -/
def indentation (depth : Nat) : String := String.ofList (List.replicate (4 * depth) ' ')

mutual

/-- The value over several lines, its first line already indented to `depth`. -/
def indentedAt (depth : Nat) : Shown → String
  | .atom t => t
  | .record n fs => n ++ " \x7b\n" ++ indentedFields (depth + 1) fs ++ indentation depth ++ "\x7d"
  | .tuple n xs => n ++ "(\n" ++ indentedItems (depth + 1) xs ++ indentation depth ++ ")"
  | .list [] => "[]"
  | .list (x :: xs) => "[\n" ++ indentedItems (depth + 1) (x :: xs) ++ indentation depth ++ "]"

/-- Every field on lines of its own, closed by a comma. -/
def indentedFields (depth : Nat) : List (String × Shown) → String
  | [] => ""
  | f :: fs => indentation depth ++ indentedField depth f ++ ",\n" ++ indentedFields depth fs

/-- One field as `name: value`. -/
def indentedField (depth : Nat) : String × Shown → String
  | (n, v) => n ++ ": " ++ indentedAt depth v

/-- Every value on lines of its own, closed by a comma. -/
def indentedItems (depth : Nat) : List Shown → String
  | [] => ""
  | x :: xs => indentation depth ++ indentedAt depth x ++ ",\n" ++ indentedItems depth xs

end

/-- The value over several lines. -/
def indented (v : Shown) : String := v.indentedAt 0

/-- The value in the layout asked for. -/
def render (pretty : Bool) (v : Shown) : String := if pretty then v.indented else v.compact

end Shown

namespace Label

/-- A label is shown with its type named. -/
def shown (l : Label) : Shown := .tuple "LabelOffset" [.nat l.offset.toNat]

end Label

namespace Address

/-- An address is shown with its type named. -/
def shown (a : Address) : Shown := .tuple "CodeAddress" [.nat a.toNat]

end Address

namespace Location

/-- A location is shown with the names of its form and type. -/
def shown : Location → Shown
  | .label l => .tuple "Label" [l.shown]
  | .address a => .tuple "Address" [a.shown]

end Location

end Invalidation
