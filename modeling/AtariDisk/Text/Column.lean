/-!
# Columns

Numbers and texts brought to a width. Widths count characters.
-/

namespace AtariDisk.Text

/-- `text` with blanks behind it up to `width` characters. -/
def padEnd (width : Nat) (text : String) : String :=
  text ++ String.ofList (List.replicate (width - text.length) ' ')

/-- `text` with blanks before it up to `width` characters. -/
def padStart (width : Nat) (text : String) : String :=
  String.ofList (List.replicate (width - text.length) ' ') ++ text

/-- Upper-case hexadecimal digits of `n`, with leading zeros up to `width`. -/
def hex (width n : Nat) : String :=
  let digits := (Nat.toDigits 16 n).map Char.toUpper
  String.ofList (List.replicate (width - digits.length) '0' ++ digits)

end AtariDisk.Text
