import AtariDisk.Word

/-!
# Disk geometry

A disk is a row of numbered sectors. All have the same size, except that the boot sectors at its
start may be shorter. `Geometry.fit` derives the geometry from the number of bytes on the disk.
-/

namespace AtariDisk

/-- A stretch of bytes. -/
structure Span where
  offset : Nat
  length : Nat
deriving DecidableEq, Repr

structure Geometry where
  /-- Bytes in all sectors together. -/
  imageSize : Nat
  sectorSize : Nat
  bootSectorSize : Nat
  /-- Number of sectors that have the size of a boot sector. -/
  bootSectors : Nat
  /-- Number of the first sector. -/
  firstSector : Nat
  sectorCount : Nat
  sectorsPerTrack : Nat
deriving DecidableEq, Repr

namespace Geometry

def singleDensitySize : Nat := 128

def doubleDensitySize : Nat := 256

/-- Boot sectors of a double density disk that may have single density size. -/
def shortBootSectors : Nat := 3

/-- Bytes in the short boot sectors of a double density disk. -/
def shortBootBytes : Nat := shortBootSectors * singleDensitySize

/-- 720 sectors of 128 bytes. -/
def singleDensityBytes : Nat := 92160

/-- 1040 sectors of 128 bytes. -/
def enhancedDensityBytes : Nat := 133120

/-- 720 sectors of 256 bytes. -/
def doubleDensityBytes : Nat := 184320

/-- 3 sectors of 128 bytes and 717 sectors of 256 bytes. -/
def shortBootDensityBytes : Nat := 183936

/-- Sizes of the disks that the common drives write. -/
def commonSizes : List Nat :=
  [singleDensityBytes, enhancedDensityBytes, shortBootDensityBytes, doubleDensityBytes]

/-- A disk without sectors, as a place to start from. -/
def empty (sectorSize : Nat) : Geometry where
  imageSize := 0
  sectorSize := sectorSize
  bootSectorSize := 0
  bootSectors := 0
  firstSector := 1
  sectorCount := 0
  sectorsPerTrack := 18

/-- Sector sizes and number of boot sectors of a disk. -/
structure Layout where
  sectorSize : Nat
  bootSectorSize : Nat
  bootSectors : Nat
deriving DecidableEq, Repr

/-- All sectors have the same size. -/
def Layout.uniform (sectorSize : Nat) : Layout :=
  ⟨sectorSize, 0, 0⟩

/-- Double density behind short boot sectors. -/
def Layout.shortBoot : Layout :=
  ⟨doubleDensitySize, singleDensitySize, shortBootSectors⟩

/-- The layout of `size` bytes. The sizes of common disks decide for themselves; otherwise the
sector size `hint` counts, with short boot sectors where they make double density come out even. -/
def Layout.ofSize (hint size : Nat) : Layout :=
  if size = singleDensityBytes then .uniform singleDensitySize
  else if size = doubleDensityBytes then .uniform doubleDensitySize
  else if size = shortBootDensityBytes then .shortBoot
  else if hint = doubleDensitySize ∧ shortBootBytes < size
      ∧ (size - shortBootBytes) % doubleDensitySize = 0 then .shortBoot
  else .uniform hint

def Layout.bootBytes (layout : Layout) : Nat :=
  layout.bootSectorSize * layout.bootSectors

/-- The disk with as many sectors as `size` bytes hold; its sector size is a hint. -/
def fit (g : Geometry) (size : Nat) : Outcome Geometry :=
  let layout := Layout.ofSize g.sectorSize size
  if size < layout.bootBytes ∨ layout.sectorSize = 0 then refuse (.imageTooSmall size)
  else
    let count := (size - layout.bootBytes) / layout.sectorSize + layout.bootSectors
    .ok { g with
      imageSize := size
      sectorSize := layout.sectorSize
      bootSectorSize := layout.bootSectorSize
      bootSectors := layout.bootSectors
      sectorCount := count
      sectorsPerTrack := if count = enhancedDensityBytes / singleDensitySize then 26 else 18 }

/-- Number of the last sector. -/
def lastSector (g : Geometry) : Outcome Nat := do
  let stop ← Word.add g.firstSector g.sectorCount
  return stop - 1

/-- Whether the disk has a sector of this number. -/
def hasSector (g : Geometry) (sector : Nat) : Outcome Bool :=
  if sector < g.firstSector then .ok false
  else do
    let stop ← Word.add g.firstSector g.sectorCount
    return decide (sector < stop)

def outOfRange {α : Type} (g : Geometry) (sector : Nat) : Outcome α := do
  let last ← g.lastSector
  refuse (.sectorOutOfRange sector g.firstSector last)

/-- Where the sector lies behind the start of the first sector. -/
def locate (g : Geometry) (sector : Nat) : Outcome Span := do
  if ← g.hasSector sector then
    let index := sector - g.firstSector
    if index < g.bootSectors then
      return ⟨← Word.mul index g.bootSectorSize, g.bootSectorSize⟩
    else
      let boot ← Word.mul g.bootSectors g.bootSectorSize
      let behind ← Word.mul (index - g.bootSectors) g.sectorSize
      return ⟨← Word.add boot behind, g.sectorSize⟩
  else g.outOfRange sector

/-- The sector at a place within a track; tracks and places count from zero. -/
def sectorAt (g : Geometry) (track place : Nat) : Outcome Nat := do
  let start ← Word.mul track g.sectorsPerTrack
  let index ← Word.add start place
  Word.add index g.firstSector

/-- Track of the sector, and its place within the track. -/
def trackOf (g : Geometry) (sector : Nat) : Outcome (Nat × Nat) :=
  Word.divMod (sector - g.firstSector) g.sectorsPerTrack

end Geometry

end AtariDisk
