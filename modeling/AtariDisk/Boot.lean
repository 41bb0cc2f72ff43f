import AtariDisk.Image.Sectors

/-!
# Boot records

The first six bytes of sector 1 tell how many sectors a machine loads when it starts from the
disk, to which address, and where it goes on from there.
-/

namespace AtariDisk

structure BootRecord where
  flag : UInt8
  sectorCount : UInt8
  loadAddress : Nat
  initAddress : Nat
deriving DecidableEq, Repr

namespace BootRecord

/-- Sectors cannot be loaded from this address on. -/
def ramEnd : Nat := 0xC000

/-- Below this address lies what the machine needs for itself. -/
def lowestLoad : Nat := 0x0200

def parse (bytes : Bytes) : Outcome BootRecord :=
  match bytes with
  | flag :: sectorCount :: l₀ :: l₁ :: i₀ :: i₁ :: _ =>
    .ok {
      flag, sectorCount
      loadAddress := Bytes.littleValue [l₀, l₁]
      initAddress := Bytes.littleValue [i₀, i₁] }
  | _ => refuse (.bootTooShort bytes.length)

def ofImage (image : Image) : Outcome BootRecord := do
  parse (← image.readSector 1)

/-- The first two bytes are the signature of a program file. -/
def isExecutable (r : BootRecord) : Bool :=
  r.flag = 0xFF && r.sectorCount = 0xFF

/-- Accepts records with which a machine could start from sectors of `sectorSize` bytes. -/
def check (r : BootRecord) (sectorSize : Nat) : Outcome Unit := do
  let count := r.sectorCount.toNat
  if r.isExecutable then refuse .bootExecutable
  else if count < 1 ∨ (ramEnd - r.loadAddress) / max sectorSize 1 < count then
    refuse (.bootCount count)
  else if r.loadAddress < lowestLoad then refuse (.bootAddress r.loadAddress)
  else
    let length ← Word.mul count sectorSize
    let stop ← Word.add r.loadAddress length
    if ramEnd < stop then refuse (.bootAddress r.loadAddress) else return ()

/-- Bytes in the sectors to load. -/
def bootLength (r : BootRecord) (sectorSize : Nat) : Outcome Nat :=
  Word.mul r.sectorCount.toNat sectorSize

/-- The record of a disk from which a machine could start. -/
def detect (image : Image) : Outcome BootRecord := do
  let r ← ofImage image
  let span ← image.header.locate 1
  r.check span.length
  return r

/-- The bytes the record makes a machine load. -/
def readCode (image : Image) (r : BootRecord) : Outcome Bytes :=
  image.readRun 1 (max r.sectorCount.toNat 1)

def describe (r : BootRecord) : String :=
  s!"flag ${Text.hex 2 r.flag.toNat}, {r.sectorCount} sectors, "
    ++ s!"load ${Text.hex 4 r.loadAddress}, init ${Text.hex 4 r.initAddress}"

end BootRecord

end AtariDisk
