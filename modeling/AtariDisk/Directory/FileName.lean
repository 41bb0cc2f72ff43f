import AtariDisk.Failure
import AtariDisk.Text.Blank

/-!
# File names

DOS 2 names have up to eight characters and an extension of up to three. `FileName.parse` reads
the names a user may give to a file; names found on a disk can hold other characters as well.
-/

namespace AtariDisk

structure FileName where
  base : String
  ext : String
deriving DecidableEq, Repr

namespace FileName

/-- The name as it is written, without a dot if there is no extension. -/
def text (name : FileName) : String :=
  if name.ext = "" then name.base else name.base ++ "." ++ name.ext

/-- Letters and digits a user may put into a name. -/
def isNameChar (c : Char) : Bool :=
  c.isUpper || c.isDigit

/-- Spelling does not depend on blanks around a name, nor on the case of ASCII letters. -/
def normalize (typed : String) : List Char :=
  (Text.trim typed.toList).map Char.toUpper

/-- The parts before and after the first dot. -/
def splitAtDot (chars : List Char) : List Char × List Char :=
  (chars.takeWhile (· ≠ '.'), (chars.dropWhile (· ≠ '.')).drop 1)

/-- Starts with a letter, goes on with letters and digits, and is short enough. -/
def isValid (base ext : List Char) : Bool :=
  base.length ≤ 8 && ext.length ≤ 3 && (base.head?.any Char.isUpper)
    && base.all isNameChar && ext.all isNameChar

/-- The name a user typed. -/
def parse (typed : String) : Outcome FileName :=
  let (base, ext) := splitAtDot (normalize typed)
  if isValid base ext then .ok ⟨String.ofList base, String.ofList ext⟩
  else refuse (.nameInvalid typed)

end FileName

end AtariDisk
