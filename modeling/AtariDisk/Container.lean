import AtariDisk.Bytes

/-!
# Container formats

An image file is either an ATR file, with a header of 16 bytes in front of the sectors, or an XFD
file, which is the sectors alone. Only the ATR signature tells them apart.
-/

namespace AtariDisk

inductive Container where
  | atr
  | xfd
deriving DecidableEq, Repr

namespace Container

/-- The ATR signature as a number. -/
def signatureValue : Nat := 0x0296

/-- Bytes every file of the format starts with. -/
def signature : Container → Bytes
  | atr => Bytes.little 2 signatureValue
  | xfd => []

def name : Container → String
  | atr => "ATR"
  | xfd => "XFD"

/-- Bytes in front of the first sector. -/
def headerLength : Container → Nat
  | atr => 16
  | xfd => 0

/-- The format a user names; letter case does not matter. -/
def ofName? (name : String) : Option Container :=
  let lower := String.ofList (name.toList.map Char.toLower)
  if lower = "atr" then some atr
  else if lower = "xfd" then some xfd
  else none

/-- The format of a file with these leading bytes: XFD unless a whole ATR header can follow the
ATR signature. -/
def detect (lead : Bytes) : Container :=
  if atr.headerLength ≤ lead.length ∧ lead.take 2 = atr.signature then atr else xfd

end Container

end AtariDisk
