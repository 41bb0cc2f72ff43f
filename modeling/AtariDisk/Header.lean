import AtariDisk.Container
import AtariDisk.Geometry

/-!
# Image headers

A header is the geometry of a disk together with its container format and the fields that only an
ATR file stores. In an ATR file it takes 16 bytes: signature, size in paragraphs of 16 bytes (low
word), sector size, size (high byte), checksum, unused, flags.
-/

namespace AtariDisk

structure Header extends Geometry where
  container : Container
  crc : UInt32
  unused : UInt32
  flags : UInt8
deriving DecidableEq, Repr

namespace Header

/-- Bytes in a paragraph, the unit in which an ATR header counts the size. -/
def paragraph : Nat := 16

/-- The header of `size` bytes of sectors. -/
def ofSize (container : Container) (size sectorSize : Nat) : Outcome Header := do
  if sectorSize ≠ Geometry.singleDensitySize ∧ sectorSize ≠ Geometry.doubleDensitySize then
    refuse (.sectorSizeUnsupported sectorSize)
  else
    let geometry ← (Geometry.empty sectorSize).fit size
    return { geometry with container, crc := 0, unused := 0, flags := 0 }

/-- The header with its geometry fitted to `size` bytes. -/
def fit (h : Header) (size : Nat) : Outcome Header := do
  let geometry ← h.toGeometry.fit size
  return { h with toGeometry := geometry }

/-- Reads the header of an ATR file. -/
def decode (bytes : Bytes) : Outcome Header :=
  match bytes with
  | s₀ :: s₁ :: p₀ :: p₁ :: z₀ :: z₁ :: p₂ :: c₀ :: c₁ :: c₂ :: c₃
      :: u₀ :: u₁ :: u₂ :: u₃ :: flags :: _ =>
    let found := Bytes.littleValue [s₀, s₁]
    if found ≠ Container.signatureValue then refuse (.signatureMismatch found)
    else do
      let size := Bytes.littleValue [p₀, p₁, p₂] * paragraph
      let h ← ofSize .atr size (Bytes.littleValue [z₀, z₁])
      return { h with
        crc := UInt32.ofNat (Bytes.littleValue [c₀, c₁, c₂, c₃])
        unused := UInt32.ofNat (Bytes.littleValue [u₀, u₁, u₂, u₃])
        flags := flags }
  | _ => refuse (.headerTooShort bytes.length)

/-- The bytes in front of the first sector. -/
def encode (h : Header) : Bytes :=
  match h.container with
  | .xfd => []
  | .atr =>
    let paragraphs := h.imageSize / paragraph
    Container.atr.signature ++ Bytes.little 2 paragraphs ++ Bytes.little 2 h.sectorSize
      ++ [UInt8.ofNat (paragraphs / 0x10000)] ++ Bytes.little 4 h.crc.toNat
      ++ Bytes.little 4 h.unused.toNat ++ [h.flags]

def length (h : Header) : Nat :=
  h.container.headerLength

/-- Refuses XFD files of a size that no common drive writes. -/
def checkCommon (h : Header) : Outcome Unit :=
  if h.container = .xfd ∧ h.imageSize ∉ Geometry.commonSizes then
    refuse (.sizeUncommon h.imageSize)
  else .ok ()

/-- Where the sector lies in the file. -/
def locate (h : Header) (sector : Nat) : Outcome Span := do
  let span ← h.toGeometry.locate sector
  return ⟨← Word.add span.offset h.length, span.length⟩

/-- `total` bytes and those of `count` sectors from `sector` on. -/
def addLengths (h : Header) : (sector count total : Nat) → Outcome Nat
  | _, 0, total => .ok total
  | sector, count + 1, total => do
    let span ← h.locate sector
    let total ← Word.add total span.length
    h.addLengths (sector + 1) count total

/-- Where `count` sectors from `sector` on lie in the file. -/
def region (h : Header) (sector count : Nat) : Outcome Span := do
  let first ← h.locate sector
  let _ ← Word.add sector count
  return ⟨first.offset, ← h.addLengths sector count 0⟩

theorem sector_lt_of_locate {h : Header} {sector : Nat} {span : Span}
    (located : h.locate sector = .ok span) : sector < h.firstSector + h.sectorCount := by
  by_cases inside : sector < h.firstSector + h.sectorCount
  · exact inside
  · have unknown : h.toGeometry.hasSector sector ≠ .ok true := by
      unfold Geometry.hasSector
      split
      · simp
      · cases stop : Word.add h.firstSector h.sectorCount with
        | error e => simp [bind, Except.bind]
        | ok n =>
          have := (Word.add_eq_ok_iff.1 stop).2
          simp [bind, Except.bind, pure, Except.pure, this, inside]
    have outside : ∀ span, h.toGeometry.locate sector ≠ .ok span := by
      intro span
      unfold Geometry.locate
      cases known : h.toGeometry.hasSector sector with
      | error e => simp [bind, Except.bind]
      | ok b =>
        cases b with
        | true => exact absurd known unknown
        | false =>
          cases last : h.toGeometry.lastSector <;>
            simp [bind, Except.bind, Geometry.outOfRange, last, refuse]
    unfold locate at located
    cases found : h.toGeometry.locate sector with
    | error e => simp [found, bind, Except.bind] at located
    | ok span => exact absurd found (outside span)

/-- Number of sectors, from `sector` on, that hold what `wanted` bytes leave over `covered`. -/
def countCovering (h : Header) (wanted sector covered : Nat) : Outcome Nat :=
  if wanted ≤ covered then .ok 0
  else
    match _located : h.locate sector with
    | .error e => .error e
    | .ok span => do
      let covered ← Word.add covered span.length
      let rest ← h.countCovering wanted (sector + 1) covered
      return rest + 1
termination_by h.firstSector + h.sectorCount - sector
decreasing_by
  have := sector_lt_of_locate _located
  omega

/-- One line about the image. -/
def describe (h : Header) : String :=
  let extent := s!"size={h.imageSize} ({h.sectorCount}x{h.sectorSize}b)"
  match h.container with
  | .atr => s!"ATR Disk Image ({extent}, crc={h.crc} flags={h.flags} unused={h.unused})"
  | .xfd => s!"XFD Disk Image ({extent})"

end Header

end AtariDisk
