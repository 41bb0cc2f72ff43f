import AtariDisk.Directory.FileName
import AtariDisk.Text.Path

/-!
# Names for host files

A file of the host gets the name on disk that its own name suggests.
-/

namespace AtariDisk.FileName

/-- The first `width` ASCII letters and digits, in upper case. -/
def clean (width : Nat) (chars : List Char) : String :=
  String.ofList (((chars.filter Char.isAlphanum).take width).map Char.toUpper)

/-- The name for a file of the host; it need not be one that can be given to a file. -/
def ofHostPath (path : String) : FileName :=
  let (base, ext) := splitAtDot ((Text.fileNameOf path).getD path).toList
  ⟨clean 8 base, clean 3 ext⟩

end AtariDisk.FileName
