import AtariDisk.Bytes
import AtariDisk.Text.Column

/-!
# Hex dumps

Sixteen bytes a line, in two groups of eight, and as text behind them.
-/

namespace AtariDisk.Console

/-- A column of a line, with a gap behind the first group. -/
def dumpColumn (place : Nat) (text : String) : String :=
  text ++ (if place = 7 then "  " else " ")

/-- The character that stands for a byte. -/
def dumpChar (b : UInt8) : Char :=
  if 32 ≤ b && b < 127 then Char.ofNat b.toNat else '.'

/-- The line of the bytes from `position` on. -/
def dumpLine (position : Nat) (bytes : Bytes) : String :=
  let columns := (List.range 16).map fun place =>
    dumpColumn place (match bytes[place]? with
      | some b => Text.hex 2 b.toNat
      | none => "  ")
  s!"{Text.hex 4 position}: " ++ String.join columns
    ++ s!" |{String.ofList (bytes.map dumpChar)}|"

/-- The lines of the first `most` bytes, and a line that counts the others. -/
def hexDump (bytes : Bytes) (most : Nat) : List String :=
  (chunks 16 (bytes.take most)).mapIdx (fun i line => dumpLine (16 * i) line)
    ++ (if most < bytes.length then [s!"... ({bytes.length - most} more bytes)"] else [])

end AtariDisk.Console
