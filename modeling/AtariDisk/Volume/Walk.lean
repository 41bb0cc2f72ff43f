import AtariDisk.Directory.Basic
import AtariDisk.Image.Sectors

/-!
# Following chains

The chain of a file starts at the sector its entry names. Every sector on the way has to exist and
to belong to the file, and the chain has to end after as many sectors as the entry says.
-/

namespace AtariDisk.Image

/-- The chain from `sector` on, behind `found` sectors of the file. Of its sectors `remaining` are
still expected. -/
def followFrom (image : Image) (e : Entry) : (found remaining sector : Nat) → Outcome Chain
  | _, 0, sector =>
    if sector = 0 then .ok [] else refuse (.chainTooLong e.fileName e.sectorCount)
  | found, remaining + 1, sector =>
    if sector = 0 then refuse (.chainTooShort e.fileName found e.sectorCount)
    else do
      if ← image.header.hasSector sector then
        let raw ← image.readSector sector
        let s ← DataSector.decode sector raw
        if s.owner = e.slot then
          return s :: (← image.followFrom e (found + 1) remaining s.next)
        else refuse (.chainForeign e.fileName sector s.owner e.slot)
      else refuse (.chainLeavesDisk e.fileName sector)

/-- No chain has more sectors. A chain that ends has no sector twice, and all but the first of its
sectors are named by links. -/
def longestChain : Nat := DataSector.maxNext + 1

/-- The chain of a file. One that is too long for any disk is followed only until it has to have
come to a sector for the second time. -/
def follow (image : Image) (e : Entry) : Outcome Chain :=
  if e.sectorCount ≤ longestChain then image.followFrom e 0 e.sectorCount e.firstSector
  else do
    let _ ← image.followFrom e 0 (longestChain + 1) e.firstSector
    refuse (.chainTooLong e.fileName e.sectorCount)

end AtariDisk.Image
