import AtariDisk.Failure
import AtariDisk.Text.Case

/-!
# Completing commands

Only the first word of a line is completed, to the commands that start with it.
-/

namespace AtariDisk.Console

/-- The commands that are offered, in alphabetical order. -/
def commandNames : List String :=
  ["boot", "convert", "create", "delete", "dir", "exit", "export", "format", "help", "import",
    "info", "ls", "map", "open", "quit", "read", "read-sector", "rm", "save", "vtoc"]

/-- The characters that fill exactly the first `count` bytes of a text. -/
def firstBytes? : (count : Nat) → List Char → Option (List Char)
  | 0, _ => some []
  | _ + 1, [] => none
  | count + 1, c :: rest =>
    if c.utf8Size ≤ count + 1 then (firstBytes? (count + 1 - c.utf8Size) rest).map (c :: ·)
    else none
termination_by _ text => text.length

/-- What may stand in place of the start of a line up to byte `position`, and from which byte
on. -/
def complete (line : String) (position : Nat) : Outcome (Nat × List String) :=
  match firstBytes? position line.toList with
  | none => trap .outOfBounds
  | some start =>
    if start.contains ' ' then .ok (position, [])
    else
      let typed := (Text.lower (String.ofList start)).toList
      .ok (0, commandNames.filter fun name => typed.isPrefixOf name.toList)

end AtariDisk.Console
