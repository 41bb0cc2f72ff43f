import AtariDisk.Bytes
import AtariDisk.Word

/-!
# Data sectors

A sector of a file holds a piece of the file and, in its last three bytes, the number of the file,
the number of the next sector and the length of the piece.
-/

namespace AtariDisk

structure DataSector where
  /-- Number of the sector, zero as long as it has no place on a disk. -/
  number : Nat
  /-- Number of the file it belongs to. -/
  owner : Nat
  /-- Number of the sector with the next piece, zero behind the last piece. -/
  next : Nat
  payload : Bytes
deriving DecidableEq, Repr

namespace DataSector

/-- Bytes at the end of a sector that hold the link. -/
def linkSize : Nat := 3

/-- Largest number of a file that a link can hold. -/
def maxOwner : Nat := 63

/-- Largest number of a next sector that a link can hold. -/
def maxNext : Nat := 1023

/-- A piece of a file that has no place yet. -/
def unplaced (payload : Bytes) : DataSector :=
  ⟨0, 0, 0, payload⟩

/-- Six bits of owner and ten bits of next sector, then the length of the payload. -/
def link (s : DataSector) : Bytes :=
  [UInt8.ofNat (s.owner * 4 + s.next / 256), UInt8.ofNat s.next, UInt8.ofNat s.payload.length]

/-- Accepts what can be written to a sector of `size` bytes. -/
def check (s : DataSector) (size : Nat) : Outcome Unit := do
  let capacity ← Word.sub size linkSize
  if capacity < s.payload.length then
    refuse (.payloadTooLong s.number s.payload.length capacity)
  else if maxOwner < s.owner ∨ maxNext < s.next then refuse (.linkOutOfRange s.owner s.next)
  else Word.allocate size

/-- The payload, zeros up to the link, and the link. -/
def bytes (s : DataSector) (size : Nat) : Bytes :=
  s.payload ++ Bytes.zeros (size - linkSize - s.payload.length) ++ s.link

theorem length_bytes {s : DataSector} {size : Nat} (fits : s.payload.length + linkSize ≤ size) :
    (s.bytes size).length = size := by
  simp only [bytes, link, linkSize, List.length_append, Bytes.length_zeros, List.length_cons,
    List.length_nil] at fits ⊢
  omega

/-- The bytes of a sector of `size` bytes. -/
def encode (s : DataSector) (size : Nat) : Outcome Bytes := do
  s.check size
  return s.bytes size

/-- Reads the bytes of sector `number`. -/
def decode (number : Nat) (raw : Bytes) : Outcome DataSector :=
  let capacity := raw.length - linkSize
  if capacity = 0 then refuse (.sectorTooSmall number)
  else
    match raw.drop capacity with
    | [high, low, used] =>
      if capacity < used.toNat then refuse (.usedTooLarge number used.toNat capacity)
      else .ok {
        number
        owner := high.toNat / 4
        next := high.toNat % 4 * 256 + low.toNat
        payload := raw.take used.toNat }
    | _ => refuse (.sectorTooSmall number)

def describe (s : DataSector) : String :=
  s!"sector {s.number} (file {s.owner}, {s.payload.length} bytes, next {s.next})"

end DataSector

end AtariDisk
