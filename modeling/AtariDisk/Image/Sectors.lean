import AtariDisk.Image.Basic

/-!
# Sectors of an image

Reading and writing whole sectors, one or several in a row. A write that is refused leaves the
image as it was.
-/

namespace AtariDisk

/-- Work on an image that may fail half way. -/
abbrev Edit := Call Image

namespace Image

/-- Where `count` sectors from `sector` on lie in the file, all of them inside it. -/
def span (image : Image) (sector count : Nat) : Outcome Span := do
  let region ← image.header.region sector count
  let stop ← Word.add region.offset region.length
  if image.data.size < stop then
    let last ← Word.add sector (count - 1)
    image.header.outOfRange last
  else return region

/-- The bytes of the sectors `start` to `stop`. -/
def readRun (image : Image) (start stop : Nat) : Outcome Bytes := do
  if stop < start then image.header.outOfRange stop
  else
    let count ← Word.add (stop - start) 1
    let span ← image.span start count
    return Buffer.slice image.data span.offset span.length

def readSector (image : Image) (sector : Nat) : Outcome Bytes :=
  image.readRun sector sector

/-- The image with `bytes` written from `position` on. -/
def patch (image : Image) (position : Nat) (bytes : Bytes) : Image :=
  match image with
  | ⟨data, header, _, fileName, phase⟩ =>
    ⟨Buffer.overlay data position bytes, header, true, fileName, phase⟩

/-- Writes `bytes` over `count` sectors from `sector` on, which they have to fill exactly. -/
def writeCount (sector count : Nat) (bytes : Bytes) : Edit Unit := fun image =>
  match image.span sector count with
  | .error e => .error e image
  | .ok span =>
    if span.length = bytes.length then .ok () (image.patch span.offset bytes)
    else .error (.refused (.sizeMismatch sector span.length bytes.length)) image

def writeSector (sector : Nat) (bytes : Bytes) : Edit Unit :=
  writeCount sector 1 bytes

/-- Writes the `size` bytes that `make` gives over a sector. They are made only if they fill it. -/
def writeSized (sector size : Nat) (make : Unit → Bytes) : Edit Unit := fun image =>
  match image.span sector 1 with
  | .error e => .error e image
  | .ok span =>
    if span.length = size then .ok () (image.patch span.offset (make ()))
    else .error (.refused (.sizeMismatch sector span.length size)) image

theorem writeSized_eq {sector size : Nat} {make : Unit → Bytes} (sized : (make ()).length = size) :
    writeSized sector size make = writeSector sector (make ()) := by
  subst sized
  rfl

/-- Writes `bytes` over as many sectors from `sector` on as they take up. -/
def writeRun (sector : Nat) (bytes : Bytes) : Edit Unit := fun image =>
  if bytes.isEmpty then .ok () image
  else
    match image.header.countCovering bytes.length sector 0 with
    | .error e => .error e image
    | .ok count => writeCount sector count bytes image

/-- Places of the given sectors, leaving out those the disk does not have. -/
def locateAll (image : Image) : List Nat → Outcome (List (Nat × Span))
  | [] => .ok []
  | sector :: rest =>
    match image.header.locate sector with
    | .ok span => do return (sector, span) :: (← image.locateAll rest)
    | .error (.refused _) => image.locateAll rest
    | .error (.trapped cause) => trap cause

/-- Every sector with its place in the file. -/
def sectors (image : Image) : Outcome (List (Nat × Span)) := do
  let _ ← Word.add image.header.firstSector image.header.sectorCount
  image.locateAll (List.range' image.header.firstSector image.header.sectorCount)

end Image

end AtariDisk
