import AtariDisk.Volume.Basic

/-!
# Files of a volume

Reading, writing and deleting files. Writing and deleting happen inside a transaction, after which
the volume is read again from its image.
-/

namespace AtariDisk.Volume

/-- The contents of a file. -/
def contentsOf (v : Volume) (typed : String) : Outcome Bytes := do
  let e ← v.directory.find typed
  let chain ← v.image.follow e
  return chain.contents

def storeChain : Chain → Edit Unit
  | [] => pure ()
  | s :: rest => do
    let span ← Call.ofOutcome ((← get).header.locate s.number)
    Call.ofOutcome (s.check span.length)
    Image.writeSized s.number span.length fun _ => s.bytes span.length
    storeChain rest

/-- Writes each group of records to a sector of its own, from `sector` on. -/
def storeGroups (directory : Directory) : (sector : Nat) → List Bytes → Edit Unit
  | _, [] => pure ()
  | sector, group :: rest => do
    Image.writeSized sector directory.sectorLength fun _ => directory.fill group
    storeGroups directory (sector + 1) rest

def storeSystem (map : SectorMap) (directory : Directory) : Edit Unit := do
  Image.writeSector SectorMap.home map.pack
  Call.ofOutcome (Word.allocate directory.sectorSize)
  storeGroups directory Directory.home directory.groups

/-- Takes a slot and sectors for a new file, and writes them, the map and the directory. -/
def storeFile (map : SectorMap) (directory : Directory) (capacity : Nat) (typed : String)
    (kind : FileKind) (contents : Bytes) : Edit Entry := do
  let (e, directory) ← Call.ofOutcome (Call.onCopy directory (Directory.add typed kind))
  let pieces := Chain.split capacity contents
  let (order, map) ← Call.ofOutcome (Call.onCopy map (SectorMap.reserve pieces.length))
  let chain ← Call.ofOutcome (pieces.place order e.slot)
  let e := e.withChain chain
  storeChain chain
  storeSystem map (directory.set e)
  return e

/-- Gives the sectors of a file free and marks its entry as deleted. -/
def dropFile (map : SectorMap) (directory : Directory) (slot : Nat) (chain : Chain) :
    Edit Unit := do
  let (_, directory) ← Call.ofOutcome (Call.onCopy directory (Directory.remove slot))
  storeSystem (map.release chain.numbers) directory

/-- Works on the image inside a transaction and reads the volume again. -/
def update {α : Type} (edit : Edit α) : Call Volume α := fun v =>
  match v with
  | ⟨image, map, directory, damage⟩ =>
    match Transaction.run edit image with
    | .error e image => .error e ⟨image, map, directory, damage⟩
    | .ok a image =>
      match load image with
      | .error e => .error e ⟨image, map, directory, damage⟩
      | .ok v => .ok a v

/-- Writes a new file and answers its entry. -/
def writeFile (typed : String) (kind : FileKind) (contents : Bytes) :
    Call Volume Entry := fun v =>
  match v.payloadCapacity with
  | .error e => .error e v
  | .ok capacity => update (storeFile v.map v.directory capacity typed kind contents) v

/-- What there is to know of a file before it can be deleted. -/
def prepareDelete (v : Volume) (typed : String) : Outcome (Entry × Chain) := do
  let e ← v.directory.find typed
  if e.flags.isLocked then refuse (.fileLocked e.fileName)
  else return (e, ← v.image.follow e)

/-- Deletes a file; its sectors keep their contents. -/
def deleteFile (typed : String) : Call Volume Unit := fun v =>
  match v.prepareDelete typed with
  | .error e => .error e v
  | .ok (e, chain) => update (dropFile v.map v.directory e.slot chain) v

end AtariDisk.Volume
