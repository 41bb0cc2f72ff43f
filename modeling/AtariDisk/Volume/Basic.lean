import AtariDisk.Image.Transaction
import AtariDisk.SectorMap
import AtariDisk.Volume.Walk

/-!
# DOS 2 volumes

A volume is an image together with what was read from it: the sector map, the directory with the
lengths of the files, and the files whose chains are damaged.
-/

namespace AtariDisk

structure Volume where
  image : Image
  map : SectorMap
  directory : Directory
  /-- Slots of the files that cannot be read, and why. -/
  damage : List (Nat × DiskError)
deriving DecidableEq

namespace Volume

/-- What is written on the label of the filesystem. -/
def filesystemName : String := "Atari DOS 2"

/-- The last sector that the filesystem needs for itself. -/
def lastSystemSector : Nat := Directory.home + Directory.sectorCount - 1

/-- The disk has to reach behind the directory. -/
def checkExtent (image : Image) : Outcome Unit := do
  let last ← image.header.lastSector
  if last < lastSystemSector then refuse (.volumeTooSmall image.header.sectorCount) else return ()

def readMap (image : Image) : Outcome SectorMap := do
  SectorMap.unpack (← image.readSector SectorMap.home)

def readDirectory (image : Image) : Outcome Directory := do
  let region ← image.header.region Directory.home Directory.sectorCount
  let stop ← Word.add region.offset region.length
  if image.data.size < stop then trap .outOfBounds
  else
    Directory.decode image.header.sectorSize
      (Buffer.slice image.data region.offset region.length)

/-- What following the chain of each file comes to: its length, or why that cannot be done. -/
def survey (image : Image) : List Entry → Outcome (List (Nat × Except DiskError Nat))
  | [] => .ok []
  | e :: rest => do
    let finding ← match image.follow e with
      | .ok chain => pure (.ok chain.fileLength)
      | .error (.refused cause) => pure (.error cause)
      | .error (.trapped cause) => trap cause
    return (e.slot, finding) :: (← survey image rest)

/-- The length that was found for a file, zero for a damaged one. -/
def lengthIn (findings : List (Nat × Except DiskError Nat)) (slot : Nat) : Nat :=
  match findings.lookup slot with
  | some (.ok length) => length
  | _ => 0

def damageIn (findings : List (Nat × Except DiskError Nat)) : List (Nat × DiskError) :=
  findings.filterMap fun
    | (slot, .error cause) => some (slot, cause)
    | (_, .ok _) => none

/-- The directory with the lengths that were found. -/
def measure (d : Directory) (findings : List (Nat × Except DiskError Nat)) : Directory :=
  { d with
    entries := d.entries.map fun e => { e with length := lengthIn findings e.slot }
    ordered := List.pairwise_map.2 d.ordered }

/-- Reads everything there is to know about a volume from its image. -/
def load (image : Image) : Outcome Volume := do
  let map ← readMap image
  let map ← map.restrict (← image.header.lastSector)
  let directory ← readDirectory image
  let findings ← survey image directory.files
  return { image, map, directory := measure directory findings, damage := damageIn findings }

/-- The volume on an image. -/
def mount (image : Image) : Outcome Volume := do
  checkExtent image
  let map ← readMap image
  if map.code = SectorMap.dos2 then load image else refuse (.volumeForeign map.code.toNat)

/-- The volume in the bytes of a file. -/
def ofBuffer (data : Buffer) : Outcome Volume := do
  mount (← Image.ofBuffer data)

/-- Whether an image looks like a volume. -/
def probe (image : Image) : Outcome Bool :=
  match checkExtent image with
  | .error (.trapped cause) => trap cause
  | .error (.refused _) => .ok false
  | .ok () =>
    match image.readSector SectorMap.home with
    | .error (.trapped cause) => trap cause
    | .error (.refused _) => .ok false
    | .ok [] => trap .outOfBounds
    | .ok (code :: _) => .ok (decide (code = SectorMap.dos2))

/-- Fills sectors with zeros. -/
def clearSectors : List Nat → Edit Unit
  | [] => pure ()
  | sector :: rest => do
    let span ← Call.ofOutcome ((← get).header.locate sector)
    Call.ofOutcome (Word.allocate span.length)
    Image.writeSized sector span.length fun _ => Bytes.zeros span.length
    clearSectors rest

/-- Lays an empty volume over an image and mounts it. Sectors outside of map and directory keep
their bytes. -/
def format (image : Image) : Outcome Volume := do
  checkExtent image
  let span ← image.header.locate SectorMap.home
  Word.allocate span.length
  let _ ← image.span SectorMap.home 1
  let map ← SectorMap.formatted span.length (← image.header.lastSector)
  let lay : Edit Unit := do
    Image.writeSector SectorMap.home map.pack
    clearSectors (List.range' Directory.home Directory.sectorCount)
  match Transaction.run lay image with
  | .ok () image => mount image
  | .error e _ => .error e

/-- Bytes of a file that go into one sector. -/
def payloadCapacity (v : Volume) : Outcome Nat :=
  Word.sub v.image.header.sectorSize DataSector.linkSize

/-- No file is damaged. -/
def isSound (v : Volume) : Bool :=
  v.damage.isEmpty

end Volume

end AtariDisk
