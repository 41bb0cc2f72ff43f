import AtariDisk.Chain
import AtariDisk.Directory.FileName
import AtariDisk.Text.Lossy

/-!
# Directory entries

An entry takes 16 bytes: flags, number of sectors, first sector, name and extension. The slot of
an entry is its position in the directory and the number by which data sectors name their file.
-/

namespace AtariDisk

/-- Kinds of files that can be written. -/
inductive FileKind where
  | normal
  | locked
deriving DecidableEq, Repr

/-- The first byte of an entry. -/
structure EntryFlags where
  byte : UInt8
deriving DecidableEq, Repr

namespace EntryFlags

def has (flags : EntryFlags) (mask : UInt8) : Bool :=
  flags.byte &&& mask != 0

def isUnused (flags : EntryFlags) : Bool :=
  flags.byte = 0

def isDeleted (flags : EntryFlags) : Bool :=
  flags.has 0x80

def isInUse (flags : EntryFlags) : Bool :=
  flags.has 0x40 && !flags.isDeleted

def isLocked (flags : EntryFlags) : Bool :=
  flags.has 0x20

/-- Written by DOS 2 rather than by DOS 1. -/
def isDos2 (flags : EntryFlags) : Bool :=
  flags.has 0x02

/-- Left open for output. -/
def isOpen (flags : EntryFlags) : Bool :=
  flags.has 0x01

/-- The flags of a new file. -/
def ofKind : FileKind → EntryFlags
  | .normal => ⟨0x42⟩
  | .locked => ⟨0x62⟩

/-- The flags of a deleted file. -/
def deleted : EntryFlags :=
  ⟨0x80⟩

def lock (flags : EntryFlags) : EntryFlags :=
  ⟨flags.byte ||| 0x20⟩

end EntryFlags

structure Entry where
  slot : Nat
  flags : EntryFlags
  sectorCount : Nat
  firstSector : Nat
  name : FileName
  /-- Bytes in the file, zero until its chain was followed. -/
  length : Nat
deriving DecidableEq, Repr

namespace Entry

/-- Bytes an entry takes on disk. -/
def size : Nat := 16

/-- The entry of a new file without sectors. -/
def create (slot : Nat) (typed : String) (kind : FileKind) : Outcome Entry := do
  let name ← FileName.parse typed
  return { slot, flags := .ofKind kind, sectorCount := 0, firstSector := 0, name, length := 0 }

/-- A name read from disk, without the blanks and zeros that fill it up. -/
def readText (bytes : Bytes) : String :=
  String.ofList (Text.trimEndBy (fun c => c = ' ' || c = '\x00') (Text.decode bytes))

/-- A text as it is written to disk, cut or filled up with blanks to `width` bytes. -/
def writeText (width : Nat) (text : String) : Bytes :=
  Bytes.resize width 0x20 (Text.encode text.toList)

/-- Reads the record in a slot; there is none in a slot that was never used. -/
def parse (slot : Nat) : Bytes → Option Entry
  | flags :: c₀ :: c₁ :: s₀ :: s₁ :: names =>
    if names.length < 11 ∨ flags = 0 then none
    else some {
      slot
      flags := ⟨flags⟩
      sectorCount := Bytes.littleValue [c₀, c₁]
      firstSector := Bytes.littleValue [s₀, s₁]
      name := ⟨readText (names.take 8), readText ((names.drop 8).take 3)⟩
      length := 0 }
  | _ => none

/-- The record of an entry. -/
def encode (e : Entry) : Bytes :=
  e.flags.byte :: Bytes.little 2 e.sectorCount ++ Bytes.little 2 e.firstSector
    ++ writeText 8 e.name.base ++ writeText 3 e.name.ext

@[simp]
theorem length_encode (e : Entry) : e.encode.length = size := by
  simp [encode, writeText, size]

/-- The record of a slot that was never used. -/
def unusedRecord : Bytes :=
  Bytes.zeros size

def fileName (e : Entry) : String :=
  e.name.text

def isInUse (e : Entry) : Bool :=
  e.flags.isInUse

/-- Short words for what the flags say. -/
def status (e : Entry) : String :=
  " ".intercalate
    ((if e.flags.isDeleted then ["DEL"] else [])
      ++ (if e.flags.isLocked then ["LOCK"] else [])
      ++ (if e.flags.isOpen then ["OUT"] else [])
      ++ (if e.flags.isDos2 then [] else ["DOS1"]))

/-- The entry of a file that lies on `chain`. -/
def withChain (e : Entry) (chain : Chain) : Entry :=
  { e with
    sectorCount := chain.length
    firstSector := chain.firstSector
    length := chain.fileLength }

/-- The entry after its file is deleted; name and chain stay. -/
def markDeleted (e : Entry) : Entry :=
  { e with flags := .deleted }

def describe (e : Entry) : String :=
  let status := if e.status = "" then "" else s!"({e.status}) "
  s!"File #{Text.padEnd 2 (toString e.slot)} {status}{Text.padEnd 12 e.fileName} "
    ++ s!"{Text.padStart 3 (toString e.sectorCount)} sectors"

end Entry

end AtariDisk
