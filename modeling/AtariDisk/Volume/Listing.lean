import AtariDisk.Volume.Basic

/-!
# Listings

What a volume says about its files and about itself.
-/

namespace AtariDisk

/-- A line of a listing. -/
structure ListedFile where
  name : String
  slot : Nat
  sectors : Nat
  firstSector : Nat
  size : Nat
  locked : Bool
  dos2 : Bool
  openForOutput : Bool
  /-- Why the file cannot be read. -/
  error : Option String
deriving DecidableEq, Repr

namespace ListedFile

def ofEntry (e : Entry) : ListedFile where
  name := e.fileName
  slot := e.slot
  sectors := e.sectorCount
  firstSector := e.firstSector
  size := e.length
  locked := e.flags.isLocked
  dos2 := e.flags.isDos2
  openForOutput := e.flags.isOpen
  error := none

/-- The line of a file that cannot be read. -/
def unreadable (e : Entry) (why : String) : ListedFile :=
  { ofEntry e with size := 0, error := some why }

def isReadable (file : ListedFile) : Bool :=
  file.error.isNone

end ListedFile

/-- What a volume says about itself. -/
structure VolumeSummary where
  filesystem : String
  totalSectors : Nat
  freeSectors : Nat
  sectorSize : Nat
  payload : Nat
  files : Nat
  capacity : Nat
deriving DecidableEq, Repr

/-- Bytes of files for which there is room. -/
def VolumeSummary.freeBytes (summary : VolumeSummary) : Outcome Nat :=
  Word.mul summary.freeSectors summary.payload

namespace Volume

/-- The files in the order of their slots. -/
def list (v : Volume) : List ListedFile :=
  v.directory.files.map fun e =>
    match v.damage.lookup e.slot with
    | some cause => .unreadable e cause.message
    | none => .ofEntry e

def summary (v : Volume) : Outcome VolumeSummary := do
  return {
    filesystem := filesystemName
    totalSectors := v.map.total
    freeSectors := v.map.freeCount
    sectorSize := v.image.header.sectorSize
    payload := ← v.payloadCapacity
    files := v.directory.files.length
    capacity := Directory.capacity }

end Volume

end AtariDisk
