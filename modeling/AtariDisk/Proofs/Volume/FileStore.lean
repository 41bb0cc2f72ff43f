import AtariDisk.Volume.Listing
import AtariDisk.Proofs.Directory.Entry
import AtariDisk.Proofs.Volume.Update
import Mathlib.Algebra.BigOperators.Fin
import Mathlib.Algebra.Order.Floor.Div

/-!
# An ideal store for files

What a volume is to its users: a table with a slot for each file and room for so many sectors. The
store knows nothing of sector numbers, of chains or of the bytes on a disk.
-/

namespace AtariDisk

/-- A file as a user knows it. -/
structure StoredFile where
  name : FileName
  kind : FileKind
  contents : Bytes
deriving DecidableEq, Repr

structure FileStore where
  /-- Bytes of a file that go into one sector. -/
  payload : Nat
  /-- Number of sectors for files. -/
  room : Nat
  table : Fin Directory.capacity → Option StoredFile

namespace FileStore

def empty (payload room : Nat) : FileStore :=
  ⟨payload, room, fun _ => none⟩

def sectorsFor (s : FileStore) (contents : Bytes) : Nat :=
  contents.length ⌈/⌉ s.payload

/-- Number of sectors that the files take. -/
def used (s : FileStore) : Nat :=
  ∑ slot, (s.table slot).elim 0 fun f => s.sectorsFor f.contents

def free (s : FileStore) : Nat :=
  s.room - s.used

/-- The lowest empty slot. -/
def emptySlot (s : FileStore) : Outcome (Fin Directory.capacity) :=
  match Fin.find? fun slot => (s.table slot).isNone with
  | some slot => .ok slot
  | none => refuse (.directoryFull Directory.capacity)

/-- The file that a user names, and its slot. -/
def find (s : FileStore) (typed : String) : Outcome (Fin Directory.capacity × StoredFile) :=
  let named (slot : Fin Directory.capacity) : Option (Fin Directory.capacity × StoredFile) :=
    ((s.table slot).filter fun f => FileName.parse typed = .ok f.name).map fun f => (slot, f)
  match Fin.findSome? named with
  | some found => .ok found
  | none => refuse (.fileNotFound typed)

/-- Whether a file has the name. -/
def hasName (s : FileStore) (name : FileName) : Bool :=
  decide (∃ slot, (s.table slot).any (·.name = name))

def put (s : FileStore) (slot : Fin Directory.capacity) (f : Option StoredFile) : FileStore :=
  { s with table := Function.update s.table slot f }

/-- The name and the slot of a new file. -/
def choose (s : FileStore) (typed : String) (contents : Bytes) :
    Outcome (FileName × Fin Directory.capacity) := do
  let name ← FileName.parse typed
  if s.hasName name then refuse (.nameTaken typed)
  else
    let slot ← s.emptySlot
    if s.free < s.sectorsFor contents then
      refuse (.notEnoughSpace (s.sectorsFor contents) s.free)
    else return (name, slot)

def write (s : FileStore) (typed : String) (kind : FileKind) (contents : Bytes) :
    Outcome FileStore := do
  let (name, slot) ← s.choose typed contents
  return s.put slot (some ⟨name, kind, contents⟩)

def delete (s : FileStore) (typed : String) : Outcome FileStore := do
  let (slot, f) ← s.find typed
  if f.kind = .locked then refuse (.fileLocked f.name.text) else return s.put slot none

def attempt (s : FileStore) : Volume.Action → Outcome FileStore
  | .write typed kind contents => s.write typed kind contents
  | .delete typed => s.delete typed

/-- The store after an action, and why the action failed if it did. -/
def perform (s : FileStore) (action : Volume.Action) : Option Failure × FileStore :=
  match s.attempt action with
  | .ok next => (none, next)
  | .error e => (some e, s)

def performAll (s : FileStore) : List Volume.Action → List (Option Failure) × FileStore
  | [] => ([], s)
  | action :: rest =>
    let (answer, s) := s.perform action
    let (answers, s) := s.performAll rest
    (answer :: answers, s)

/-- The files in the order of their slots. A store does not know where a file starts. -/
def list (s : FileStore) : List ListedFile :=
  (List.finRange Directory.capacity).filterMap fun slot => (s.table slot).map fun f =>
    { name := f.name.text, slot, sectors := s.sectorsFor f.contents, firstSector := 0
      size := f.contents.length, locked := f.kind = .locked, dos2 := true, openForOutput := false
      error := none }

variable {s : FileStore} {typed : String}

theorem perform_of_ok {action : Volume.Action} {next : FileStore}
    (hok : s.attempt action = .ok next) : s.perform action = (none, next) := by
  unfold perform
  rw [hok]

theorem perform_of_error {action : Volume.Action} {e : Failure}
    (herror : s.attempt action = .error e) : s.perform action = (some e, s) := by
  unfold perform
  rw [herror]

theorem find_of_named
    (hdistinct : ∀ i j f g, s.table i = some f → s.table j = some g → f.name = g.name → i = j)
    {slot : Fin Directory.capacity} {f : StoredFile} (hf : s.table slot = some f)
    (hname : FileName.parse typed = .ok f.name) : s.find typed = .ok (slot, f) := by
  have hfound : Fin.findSome? (fun slot => ((s.table slot).filter fun f =>
      FileName.parse typed = .ok f.name).map fun f => (slot, f)) = some (slot, f) := by
    refine Fin.findSome?_eq_some_iff.2 ⟨slot, by simp [hf, hname], ?_⟩
    intro j hj
    rw [Option.map_eq_none_iff, Option.filter_eq_none_iff]
    intro g hg hsame
    rw [decide_eq_true_eq, hname, Except.ok.injEq] at hsame
    exact absurd (hdistinct slot j f g hf hg hsame) (Fin.ne_of_gt hj)
  unfold find
  simp only [hfound]

theorem find_of_unnamed
    (hnone : ∀ slot f, s.table slot = some f → FileName.parse typed ≠ .ok f.name) :
    s.find typed = refuse (.fileNotFound typed) := by
  have hfound : Fin.findSome? (fun slot => ((s.table slot).filter fun f =>
      FileName.parse typed = .ok f.name).map fun f => (slot, f)) = none := by
    refine Fin.findSome?_eq_none_iff.2 fun slot => ?_
    rw [Option.map_eq_none_iff, Option.filter_eq_none_iff]
    intro f hf hsame
    exact hnone slot f hf (of_decide_eq_true hsame)
  unfold find
  simp only [hfound]

end FileStore

end AtariDisk
