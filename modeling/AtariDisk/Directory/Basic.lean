import AtariDisk.Directory.Entry

/-!
# The directory

The directory has a slot for each of 64 files. Slots that were never used have no entry. On disk
it fills eight sectors; each holds eight records in its first 128 bytes.
-/

namespace AtariDisk

structure Directory where
  /-- The entries by ascending slot. -/
  entries : List Entry
  sectorSize : Nat
  ordered : entries.Pairwise fun a b => a.slot < b.slot
deriving DecidableEq

namespace Directory

/-- Number of files a directory holds. -/
def capacity : Nat := 64

/-- The first sector of the directory on a disk. -/
def home : Nat := 361

/-- Number of sectors of the directory on a disk. -/
def sectorCount : Nat := 8

/-- Bytes of a sector that hold records. -/
def recordArea : Nat := 128

/-- Records in a sector. -/
def recordsPerSector : Nat := recordArea / Entry.size

def empty (sectorSize : Nat) : Directory where
  entries := []
  sectorSize := sectorSize
  ordered := List.Pairwise.nil

/-- The records in the sectors of a directory, in the order of their slots. -/
def records (sectorSize : Nat) (raw : Bytes) : List Bytes :=
  ((chunks sectorSize raw).take sectorCount).flatMap fun sector =>
    chunks Entry.size (sector.take recordArea)

/-- The entries in `records`, the first of which is the record of slot `slot`. -/
def entriesFrom : (slot : Nat) → List Bytes → List Entry
  | _, [] => []
  | slot, record :: rest => (Entry.parse slot record).toList ++ entriesFrom (slot + 1) rest

theorem slot_of_parse {slot : Nat} {record : Bytes} {e : Entry}
    (parsed : Entry.parse slot record = some e) : e.slot = slot := by
  unfold Entry.parse at parsed
  split at parsed
  · split at parsed
    · simp at parsed
    · cases parsed
      rfl
  · simp at parsed

theorem le_slot_of_mem_entriesFrom {slot : Nat} {records : List Bytes} {e : Entry}
    (member : e ∈ entriesFrom slot records) : slot ≤ e.slot := by
  induction records generalizing slot with
  | nil => simp [entriesFrom] at member
  | cons record rest ih =>
    rw [entriesFrom, List.mem_append] at member
    cases member with
    | inl here =>
      have := slot_of_parse (Option.mem_toList.1 here)
      omega
    | inr later =>
      have := ih later
      omega

theorem ordered_entriesFrom (slot : Nat) (records : List Bytes) :
    (entriesFrom slot records).Pairwise fun a b => a.slot < b.slot := by
  induction records generalizing slot with
  | nil => exact List.Pairwise.nil
  | cons record rest ih =>
    rw [entriesFrom, List.pairwise_append]
    refine ⟨?_, ih (slot + 1), ?_⟩
    · cases Entry.parse slot record <;> simp
    · intro a here b later
      have first := slot_of_parse (Option.mem_toList.1 here)
      have second := le_slot_of_mem_entriesFrom later
      omega

/-- Reads the sectors of a directory. -/
def decode (sectorSize : Nat) (raw : Bytes) : Outcome Directory :=
  if sectorSize = 0 then trap .emptyChunk
  else .ok {
    entries := entriesFrom 0 (records sectorSize raw)
    sectorSize
    ordered := ordered_entriesFrom 0 _ }

def get? (d : Directory) (slot : Nat) : Option Entry :=
  d.entries.find? fun e => e.slot = slot

/-- The entries of the files that exist. -/
def files (d : Directory) : List Entry :=
  d.entries.filter (·.isInUse)

/-- Whether the slot belongs to a file that exists. -/
def isTaken (d : Directory) (slot : Nat) : Bool :=
  (d.get? slot).any (·.isInUse)

/-- The lowest slot that no file has. -/
def freeSlot (d : Directory) : Outcome Nat :=
  match (List.range capacity).find? fun slot => !d.isTaken slot with
  | some slot => .ok slot
  | none => refuse (.directoryFull capacity)

/-- `entries` with `e` in its slot. -/
def insertEntry (e : Entry) : List Entry → List Entry
  | [] => [e]
  | a :: rest =>
    if e.slot < a.slot then e :: a :: rest
    else if e.slot = a.slot then e :: rest
    else a :: insertEntry e rest

theorem mem_insertEntry {e x : Entry} {entries : List Entry} (member : x ∈ insertEntry e entries) :
    x = e ∨ x ∈ entries := by
  induction entries with
  | nil => simpa [insertEntry] using member
  | cons a rest ih =>
    unfold insertEntry at member
    split at member
    · simpa using member
    · split at member
      · simp only [List.mem_cons] at member
        rcases member with here | later
        · exact .inl here
        · exact .inr (List.mem_cons_of_mem a later)
      · rcases List.mem_cons.1 member with here | later
        · exact .inr (here ▸ List.mem_cons_self)
        · exact (ih later).imp_right (List.mem_cons_of_mem a)

theorem ordered_insertEntry (e : Entry) {entries : List Entry}
    (ordered : entries.Pairwise fun a b => a.slot < b.slot) :
    (insertEntry e entries).Pairwise fun a b => a.slot < b.slot := by
  induction entries with
  | nil => simp [insertEntry]
  | cons a rest ih =>
    obtain ⟨first, tail⟩ := List.pairwise_cons.1 ordered
    unfold insertEntry
    split
    · refine List.pairwise_cons.2 ⟨?_, ordered⟩
      intro x member
      rcases List.mem_cons.1 member with rfl | later
      · assumption
      · have := first x later
        omega
    · split
      · refine List.pairwise_cons.2 ⟨?_, tail⟩
        intro x later
        have := first x later
        omega
      · refine List.pairwise_cons.2 ⟨?_, ih tail⟩
        intro x member
        rcases mem_insertEntry member with rfl | later
        · omega
        · exact first x later

/-- Puts the entry into its slot. -/
def set (d : Directory) (e : Entry) : Directory :=
  { d with
    entries := insertEntry e d.entries
    ordered := ordered_insertEntry e d.ordered }

/-- Takes a slot for a new file. -/
def add (typed : String) (kind : FileKind) : Call Directory Entry := do
  let name ← Call.ofOutcome (FileName.parse typed)
  if (← get).files.any (·.name = name) then throw (.refused (.nameTaken typed))
  else
    let slot ← Call.ofOutcome (← get).freeSlot
    let e ← Call.ofOutcome (Entry.create slot typed kind)
    modify fun d => d.set e
    return e

/-- The file a user names. A name that no user could give to a file has to be spelled as it is
listed. -/
def find (d : Directory) (typed : String) : Outcome Entry :=
  let found :=
    match FileName.parse typed with
    | .ok name => d.files.find? (·.name = name)
    | .error _ => d.files.find? (·.fileName = String.ofList (FileName.normalize typed))
  match found with
  | some e => .ok e
  | none => refuse (.fileNotFound typed)

/-- Marks the file in a slot as deleted. -/
def remove (slot : Nat) : Call Directory Unit := do
  match (← get).get? slot with
  | some e =>
    if e.isInUse then modify fun d => d.set e.markDeleted
    else throw (.refused (.fileNotFound s!"#{slot}"))
  | none => throw (.refused (.fileNotFound s!"#{slot}"))

/-- The record of a slot. -/
def record (d : Directory) (slot : Nat) : Bytes :=
  match d.get? slot with
  | some e => e.encode
  | none => Entry.unusedRecord

/-- Number of slots up to the last that has an entry. -/
def extent (d : Directory) : Nat :=
  match d.entries.getLast? with
  | some e => e.slot + 1
  | none => 0

/-- The records up to the last that has an entry, as many together as a sector holds. -/
def groups (d : Directory) : List Bytes :=
  (chunks recordsPerSector ((List.range d.extent).map d.record)).map List.flatten

/-- Number of bytes of a sector of the directory. -/
def sectorLength (d : Directory) : Nat :=
  max d.sectorSize recordArea

/-- The sector that holds a group of records. -/
def fill (d : Directory) (group : Bytes) : Bytes :=
  Bytes.resize d.sectorLength 0 group

/-- The sectors of the directory on disk, up to the last that has an entry. -/
def sectors (d : Directory) : List Bytes :=
  d.groups.map d.fill

/-- The sectors of the directory, unless they are too large to be held in memory. -/
def serialize (d : Directory) : Outcome (List Bytes) := do
  Word.allocate d.sectorSize
  return d.sectors

end Directory

end AtariDisk
