import AtariDisk.Bytes

/-!
# Text in bytes

Characters are written in UTF-8. Reading never fails: every longest piece that could start a
character but does not complete one is read as the replacement character.
-/

namespace AtariDisk.Text

/-- U+FFFD, standing for bytes that are no text. -/
def replacement : Char := '\uFFFD'

def encode (text : List Char) : Bytes :=
  text.flatMap String.utf8EncodeChar

/-- Bytes that continue a character. -/
def isTail (b : UInt8) : Bool :=
  0x80 ≤ b && b ≤ 0xBF

/-- Whether `b` may follow the first byte `a` of a character of three bytes. -/
def isSecondOfThree (a b : UInt8) : Bool :=
  if a = 0xE0 then 0xA0 ≤ b && b ≤ 0xBF
  else if a = 0xED then 0x80 ≤ b && b ≤ 0x9F
  else isTail b

/-- Whether `b` may follow the first byte `a` of a character of four bytes. -/
def isSecondOfFour (a b : UInt8) : Bool :=
  if a = 0xF0 then 0x90 ≤ b && b ≤ 0xBF
  else if a = 0xF4 then 0x80 ≤ b && b ≤ 0x8F
  else isTail b

/-- The character whose payload bits are those of `lead` and six from each byte of `tails`. -/
def join (lead : Nat) (tails : Bytes) : Char :=
  Char.ofNat (tails.foldl (fun n b => n * 64 + b.toNat % 64) lead)

/-- The character that starts with byte `a`, and how many of the bytes behind `a` belong to it. -/
def leading (a : UInt8) (rest : Bytes) : Char × Nat :=
  if a < 0x80 then (Char.ofNat a.toNat, 0)
  else if 0xC2 ≤ a && a ≤ 0xDF then
    match rest with
    | b :: _ => if isTail b then (join (a.toNat % 32) [b], 1) else (replacement, 0)
    | [] => (replacement, 0)
  else if 0xE0 ≤ a && a ≤ 0xEF then
    match rest with
    | b :: c :: _ =>
      if isSecondOfThree a b then
        if isTail c then (join (a.toNat % 16) [b, c], 2) else (replacement, 1)
      else (replacement, 0)
    | [b] => (replacement, if isSecondOfThree a b then 1 else 0)
    | [] => (replacement, 0)
  else if 0xF0 ≤ a && a ≤ 0xF4 then
    match rest with
    | b :: c :: d :: _ =>
      if isSecondOfFour a b then
        if isTail c then
          if isTail d then (join (a.toNat % 8) [b, c, d], 3) else (replacement, 2)
        else (replacement, 1)
      else (replacement, 0)
    | [b, c] => (replacement, if isSecondOfFour a b then if isTail c then 2 else 1 else 0)
    | [b] => (replacement, if isSecondOfFour a b then 1 else 0)
    | [] => (replacement, 0)
  else (replacement, 0)

/-- Reads the text behind the first `skip` bytes. -/
def decodeFrom : (skip : Nat) → Bytes → List Char
  | _, [] => []
  | skip + 1, _ :: rest => decodeFrom skip rest
  | 0, a :: rest =>
    let (c, tails) := leading a rest
    c :: decodeFrom tails rest

/-- Reads bytes as text. -/
def decode (bytes : Bytes) : List Char :=
  decodeFrom 0 bytes

end AtariDisk.Text
