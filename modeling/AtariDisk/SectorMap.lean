import AtariDisk.Bytes
import AtariDisk.Word

/-!
# The sector map

One sector of a DOS 2 disk tells which sectors are free. It starts with a code for the DOS, the
number of usable and of free sectors, and has from byte 10 on one bit for each of the sectors 0 to
719, the highest bit of a byte first. A set bit means that the sector is free.
-/

namespace AtariDisk

structure SectorMap where
  /-- The bytes the map was read from; those the map does not interpret are kept. -/
  raw : Bytes
  free : Vector Bool 720
  /-- Sectors from here on are never given out. -/
  limit : Nat
  raw_long : 100 ≤ raw.length
  limit_le : limit ≤ 720
deriving DecidableEq

namespace SectorMap

/-- Position of the 90 bytes that hold the bits. -/
def bitmapOffset : Nat := 10

/-- The code of DOS 2. -/
def dos2 : UInt8 := 2

/-- Number of boot sectors, which no file may use. -/
def bootSectors : Nat := 3

/-- The sector that holds the map. -/
def home : Nat := 360

/-- The sectors of the map and of the directory. -/
def isSystem (sector : Nat) : Bool :=
  home ≤ sector && sector < home + 9

def isFree (map : SectorMap) (sector : Nat) : Bool :=
  if h : sector < 720 then map.free.get ⟨sector, h⟩ else false

/-- The free sectors that may be given out, in ascending order. There is no sector 0. -/
def freeSectors (map : SectorMap) : List Nat :=
  (List.range' 1 (map.limit - 1)).filter map.isFree

def freeCount (map : SectorMap) : Nat :=
  map.freeSectors.length

/-- Number of set bits. -/
def bitCount (map : SectorMap) : Nat :=
  map.free.count true

/-- Eight bits as a byte, the highest first. -/
def byteOfBits (bit : Nat → Bool) : UInt8 :=
  UInt8.ofNat ((List.range 8).foldl (fun n k => 2 * n + (bit k).toNat) 0)

def bitmap (map : SectorMap) : Bytes :=
  (List.range 90).map fun j => byteOfBits fun k => map.isFree (8 * j + k)

/-- The bytes of the sector that holds the map. -/
def pack (map : SectorMap) : Bytes :=
  Bytes.splice (Bytes.splice map.raw 3 (Bytes.little 2 map.bitCount)) bitmapOffset map.bitmap

theorem length_pack (map : SectorMap) : map.pack.length = map.raw.length := by
  have := map.raw_long
  have inner : (Bytes.splice map.raw 3 (Bytes.little 2 map.bitCount)).length = map.raw.length :=
    Bytes.length_splice (by simp; omega)
  rw [pack, Bytes.length_splice, inner]
  simp [inner, bitmap, bitmapOffset]
  omega

/-- Reads the sector that holds the map. -/
def unpack (raw : Bytes) : Outcome SectorMap :=
  if long : 100 ≤ raw.length then
    let bits := (raw.drop bitmapOffset).toArray
    .ok {
      raw
      free := Vector.ofFn fun s => (bits.getD (s / 8) 0).toNat.testBit (7 - s % 8)
      limit := 720
      raw_long := long
      limit_le := Nat.le_refl 720 }
  else refuse (.mapTooShort raw.length)

/-- Number of bytes of the map of a disk with sectors of `sectorSize` bytes. -/
def rawLength (sectorSize : Nat) : Nat :=
  max sectorSize 128

theorem le_rawLength (sectorSize : Nat) : 100 ≤ rawLength sectorSize := by
  unfold rawLength
  omega

/-- A map without free sectors. -/
def full (sectorSize : Nat) : SectorMap where
  raw := Bytes.splice (Bytes.zeros (rawLength sectorSize)) 0 [dos2]
  free := Vector.replicate 720 false
  limit := 720
  raw_long := by
    have := le_rawLength sectorSize
    rw [Bytes.length_splice] <;> simp <;> omega
  limit_le := Nat.le_refl 720

/-- A map without free sectors, unless its sector is too large to be held in memory. -/
def create (sectorSize : Nat) : Outcome SectorMap := do
  Word.allocate (rawLength sectorSize)
  return full sectorSize

/-- Stores the packed form in the bytes the map carries along. -/
def settle (map : SectorMap) : SectorMap :=
  { map with raw := map.pack, raw_long := by rw [map.length_pack]; exact map.raw_long }

/-- Stores the number of usable sectors. -/
def withTotal (map : SectorMap) (total : Nat) : SectorMap :=
  { map with
    raw := Bytes.splice map.raw 1 (Bytes.little 2 total)
    raw_long := by
      have := map.raw_long
      rw [Bytes.length_splice] <;> simp <;> omega }

/-- Gives out no sector behind `last`. -/
def restrict (map : SectorMap) (last : Nat) : Outcome SectorMap := do
  let stop ← Word.add last 1
  return { map with limit := min stop 720, limit_le := Nat.min_le_right stop 720 }

/-- The map of a disk without files whose last sector is `last`. -/
def formatted (sectorSize last : Nat) : Outcome SectorMap := do
  let blank ← create sectorSize
  let map ← blank.restrict last
  let map := { map with
    free := Vector.ofFn fun s =>
      decide (bootSectors < s.val) && decide (s.val < map.limit) && !isSystem s.val }
  return (map.withTotal map.freeCount).settle

def code (map : SectorMap) : UInt8 :=
  map.raw.headD 0

/-- Number of usable sectors, as stored. -/
def total (map : SectorMap) : Nat :=
  Bytes.littleValue ((map.raw.drop 1).take 2)

/-- Number of free sectors, as stored. -/
def recorded (map : SectorMap) : Nat :=
  Bytes.littleValue ((map.raw.drop 3).take 2)

/-- Sets the bits of some sectors; those that have no bit are passed over. -/
def mark (map : SectorMap) (sectors : List Nat) (free : Bool) : SectorMap :=
  { map with free := sectors.foldl (fun bits s => bits.setIfInBounds s free) map.free }

/-- Takes the lowest `count` free sectors, all of them or none. -/
def reserve (count : Nat) : Call SectorMap (List Nat) := do
  let order := (← get).freeSectors.take count
  if order.length < count then throw (.refused (.notEnoughSpace count order.length))
  else
    modify fun map => map.mark order false
    return order

def release (map : SectorMap) (sectors : List Nat) : SectorMap :=
  map.mark sectors true

/-- The bits of the sectors from 1 on, track by track. -/
def trackRows (map : SectorMap) (sectorsPerTrack : Nat) : List (List Bool) :=
  chunks (max sectorsPerTrack 1) (map.free.toList.drop 1)

end SectorMap

end AtariDisk
