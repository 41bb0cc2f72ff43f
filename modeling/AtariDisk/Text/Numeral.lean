import AtariDisk.Word

/-!
# Numbers a user types

Digits of some base, perhaps behind a plus sign, for a number that fits into a machine word.
-/

namespace AtariDisk.Text

/-- The value of a digit; letters stand for the digits from ten on. -/
def digitValue? (c : Char) : Option Nat :=
  if c.isDigit then some (c.toNat - '0'.toNat)
  else if c.isLower then some (c.toNat - 'a'.toNat + 10)
  else if c.isUpper then some (c.toNat - 'A'.toNat + 10)
  else none

/-- The number of `value` followed by more digits, as long as it fits into a machine word. -/
def digitsValue? (base value : Nat) : List Char → Option Nat
  | [] => some value
  | c :: rest =>
    match digitValue? c with
    | some d =>
      if d < base ∧ value * base + d < Word.bound then digitsValue? base (value * base + d) rest
      else none
    | none => none

/-- The number written in `base`. -/
def readBase? (base : Nat) (text : List Char) : Option Nat :=
  let digits := match text with
    | '+' :: rest => rest
    | _ => text
  if digits = [] then none else digitsValue? base 0 digits

/-- A number in decimal, or in hexadecimal behind a dollar sign or `0x`. -/
def readNumber? (text : String) : Option Nat :=
  match text.toList with
  | '$' :: digits => readBase? 16 digits
  | '0' :: 'x' :: digits => readBase? 16 digits
  | digits => readBase? 10 digits

end AtariDisk.Text
