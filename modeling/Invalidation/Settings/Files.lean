/-! The files that settings may be read from, and how one is found by its name. A name is a path from
    the current directory, in which `.` and empty parts go without saying; a path from the root leads
    to none of them.

        a regular file of exactly that name      its extension must be toml
        the name with .toml at its end           otherwise
        nothing                                  not found -/

namespace Invalidation

/-- The files below the current directory, by their paths, with their texts. -/
abbrev Files : Type := List (String × String)

namespace Files

/-- The pieces of a text between the places where a character stands. -/
def pieces (c : Char) (text : String) : List String := (text.toList.splitOn c).map String.ofList

/-- The parts of a path, those left out that go without saying. -/
def parts (path : String) : List String := (pieces '/' path).filter fun p => p ≠ "" && p ≠ "."

/-- The text of the file at some parts. -/
def textAt? (files : Files) (ps : List String) : Option String :=
  (files.find? fun f => parts f.1 == ps).map Prod.snd

/-- Whether there is a directory at some parts. -/
def isDirectory (files : Files) (ps : List String) : Bool :=
  ps.isEmpty || files.any fun f => (parts f.1).length > ps.length && (parts f.1).take ps.length == ps

/-- Where a path leads. Every step starts from a directory; a step back from the current one leads
    nowhere. -/
def resolve? (files : Files) (here : List String) : List String → Option (List String)
  | [] => some here
  | p :: ps =>
    if !isDirectory files here then none
    else if p ≠ ".." then resolve? files (here ++ [p]) ps
    else if here.isEmpty then none
    else resolve? files here.dropLast ps

/-- The text of the regular file that a path leads to. -/
def read? (files : Files) (path : List String) : Option String := do
  let ps ← resolve? files [] path
  textAt? files ps

/-- The extension of the last part of a path: what follows its last point, unless nothing stands
    before. -/
def extension? (part : String) : Option String :=
  match (pieces '.' part).reverse with
  | [_] => none
  | [_, ""] => none
  | last :: _ => some last
  | [] => none

/-- A file that was found: its path, which is its origin in messages, and its text. -/
structure Found where
  path : String
  text : String

/-- What a search for a file comes to. -/
inductive Search where
  | found (file : Found)
  /-- There is such a file, but its extension is none that can be read. -/
  | foreign
  | missing

/-- The path whose last part has `.toml` at its end; a path that ends nowhere in particular has none. -/
def withExtension? (path : List String) : Option (List String) :=
  match path.getLast? with
  | some last => if last = ".." then none else some (path.dropLast ++ [last ++ ".toml"])
  | none => none

/-- Whether a name can only be that of a directory. -/
def namesDirectory (name : String) : Bool :=
  match (pieces '/' name).getLast? with
  | some last => last == "" || last == "."
  | none => true

/-- Whether a name is a path from the root. -/
def isAbsolute (name : String) : Bool := name.toList.head? == some '/'

/-- Finds a file by its path from the current directory. -/
def searchHere (files : Files) (name : String) : Search :=
  let path := parts name
  match if namesDirectory name then none else read? files path with
  | some text =>
    if (path.getLast?.bind extension?) =
      some "toml" then .found ⟨"/".intercalate path, text⟩ else .foreign
  | none =>
    match withExtension? path with
    | none => .missing
    | some path =>
      match read? files path with
      | some text => .found ⟨"/".intercalate path, text⟩
      | none => .missing

/-- Finds a file by its name. -/
def search (files : Files) (name : String) : Search :=
  if isAbsolute name then .missing else searchHere files name

end Files

end Invalidation
