import AtariDisk.Header
import AtariDisk.Text.Path

/-!
# Disk images

An image is the bytes of an image file with the header that gives them their geometry. It knows
whether it was changed since it was read or saved, and which phase of a transaction it is in.
-/

namespace AtariDisk

/-- Stages of a transaction on an image. -/
inductive Phase where
  | idle
  | snapshotted
  | mutating
  | committed
  | rolledBack
deriving DecidableEq, Repr

structure Image where
  /-- The file: header bytes and sectors. -/
  data : Buffer
  header : Header
  changed : Bool
  /-- Name of the file it was read from. -/
  fileName : Option String
  phase : Phase
deriving DecidableEq, Repr

namespace Image

/-- The image in the bytes of a file. Where an ATR header declares another size than the file
has, the file counts. -/
def ofBuffer (data : Buffer) : Outcome Image := do
  let lead := Buffer.slice data 0 Container.atr.headerLength
  let header ← match Container.detect lead with
    | .atr => do
      let declared ← Header.decode lead
      let actual := data.size - declared.length
      if actual = declared.imageSize then pure declared else declared.fit actual
    | .xfd =>
      if data.isEmpty then refuse .imageEmpty
      else Header.ofSize .xfd data.size Geometry.singleDensitySize
  return { data, header, changed := false, fileName := none, phase := .idle }

/-- The image in the file at `path`, given what the host answers when it is to read the file. -/
def ofFile (path : String) (answer : Except HostError Buffer) : Outcome Image := do
  let data ← match answer with
    | .ok data => pure data
    | .error cause => refuse (.host cause)
  let image ← ofBuffer data
  return { image with fileName := Text.fileNameOf path }

/-- A new image whose sectors are all zero. -/
def blank (header : Header) : Outcome Image := do
  let size ← Word.add header.length header.imageSize
  Word.allocate size
  let data := header.encode.toArray ++ Array.replicate header.imageSize 0
  return { data, header, changed := true, fileName := none, phase := .idle }

/-- The same sectors in another container. -/
def convert (image : Image) (container : Container) : Outcome Image := do
  let sectors := image.data.extract image.header.length image.data.size
  let fresh ← Header.ofSize container sectors.size image.header.sectorSize
  let header := { fresh with crc := image.header.crc, flags := image.header.flags }
  return {
    data := header.encode.toArray ++ sectors
    header, changed := true, fileName := none, phase := .idle }

/-- The image once its bytes are safely in a file. -/
def saved (image : Image) : Image :=
  { image with changed := false }

end Image

end AtariDisk
