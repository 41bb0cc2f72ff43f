/-!
# Host paths

A path is a row of names between slashes; empty names and single dots mean nothing.
-/

namespace AtariDisk.Text

/-- The pieces of `text` between the characters `mark`. -/
def splitAt (mark : Char) : List Char → List (List Char)
  | [] => [[]]
  | c :: rest =>
    match splitAt mark rest with
    | piece :: pieces => if c = mark then [] :: piece :: pieces else (c :: piece) :: pieces
    | [] => [[c]]

/-- The names a path consists of. -/
def pathNames (path : String) : List (List Char) :=
  (splitAt '/' path.toList).filter fun name => name ≠ [] && name ≠ ['.']

/-- The last name of a path, unless it leads upwards. -/
def fileNameOf (path : String) : Option String :=
  match (pathNames path).getLast? with
  | some name => if name = ['.', '.'] then none else some (String.ofList name)
  | none => none

/-- The part of the last name behind its last dot; a dot at its start does not count. -/
def extensionOf (path : String) : Option String :=
  match fileNameOf path with
  | none => none
  | some name =>
    let backwards := name.toList.reverse
    let after := backwards.takeWhile (· ≠ '.')
    let before := (backwards.dropWhile (· ≠ '.')).drop 1
    if before = [] then none else some (String.ofList after.reverse)

end AtariDisk.Text
