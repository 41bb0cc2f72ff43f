import AtariDisk.Image.Basic

/-!
# Plans for new disks

What is to be decided before a blank disk can be made: container, sector size, number of sectors,
and whether the boot sectors are short.
-/

namespace AtariDisk

structure DiskPlan where
  container : Container := .atr
  sectorSize : Nat := Geometry.singleDensitySize
  sectorCount : Nat := 720
  /-- Boot sectors have single density size if all others have double density size. -/
  shortBoot : Bool := false
deriving DecidableEq, Repr

namespace DiskPlan

/-- 720 sectors of 128 bytes. -/
def singleDensity (plan : DiskPlan) : DiskPlan :=
  { plan with sectorSize := Geometry.singleDensitySize, sectorCount := 720 }

/-- 1040 sectors of 128 bytes. -/
def enhancedDensity (plan : DiskPlan) : DiskPlan :=
  { plan with sectorSize := Geometry.singleDensitySize, sectorCount := 1040 }

/-- 720 sectors of 256 bytes, the first three stored in 128 bytes. -/
def doubleDensity (plan : DiskPlan) : DiskPlan :=
  { plan with sectorSize := Geometry.doubleDensitySize, sectorCount := 720, shortBoot := true }

/-- Bytes in all sectors. -/
def dataLength (plan : DiskPlan) : Outcome Nat := do
  if plan.shortBoot ∧ plan.sectorSize = Geometry.doubleDensitySize then
    let short := min Geometry.shortBootSectors plan.sectorCount
    let boot ← Word.mul short Geometry.singleDensitySize
    let behind ← Word.mul (plan.sectorCount - short) plan.sectorSize
    Word.add boot behind
  else Word.mul plan.sectorCount plan.sectorSize

def header (plan : DiskPlan) : Outcome Header := do
  Header.ofSize plan.container (← plan.dataLength) plan.sectorSize

/-- The blank image that the plan asks for. -/
def image (plan : DiskPlan) : Outcome Image := do
  Image.blank (← plan.header)

end DiskPlan

end AtariDisk
