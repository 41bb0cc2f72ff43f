import AtariDisk.Image.Sectors

/-!
# Transactions

A transaction keeps the bytes that an image had when it began. Unless it is committed, they are
put back when it ends, whichever way it ends. Transactions do not nest.
-/

namespace AtariDisk

/-- What is put back when a transaction is given up. -/
structure Snapshot where
  data : Buffer
  changed : Bool
deriving DecidableEq, Repr

structure Transaction where
  image : Image
  snapshot : Option Snapshot
deriving DecidableEq, Repr

namespace Transaction

def start (image : Image) : Outcome Transaction :=
  if image.phase = .idle then
    .ok {
      image := { image with phase := .snapshotted }
      snapshot := some ⟨image.data, image.changed⟩ }
  else trap .nestedTransaction

/-- Hands the image out for some work. -/
def work {α : Type} (edit : Edit α) : Call Transaction α := fun t =>
  match edit { t.image with phase := .mutating } with
  | .ok a image => .ok a ⟨image, t.snapshot⟩
  | .error e image => .error e ⟨image, t.snapshot⟩

/-- Puts the snapshot back. -/
def restore (t : Transaction) : Transaction :=
  match t.snapshot with
  | some s =>
    ⟨{ t.image with data := s.data, changed := s.changed, phase := .rolledBack }, none⟩
  | none => ⟨{ t.image with phase := .rolledBack }, none⟩

/-- The end of every transaction: what was neither committed nor rolled back is restored. -/
def close (t : Transaction) : Image :=
  let t := if t.image.phase = .snapshotted ∨ t.image.phase = .mutating then t.restore else t
  { t.image with phase := .idle }

def commit (t : Transaction) : Image :=
  close ⟨{ t.image with phase := .committed }, none⟩

def rollback (t : Transaction) : Image :=
  t.restore.close

/-- Does the work inside a transaction that is committed if the work succeeds. -/
def run {α : Type} (edit : Edit α) : Edit α := fun image =>
  match start image with
  | .error e => .error e image
  | .ok t =>
    match t.work edit with
    | .ok a t => .ok a t.commit
    | .error (.refused cause) t => .error (.refused cause) t.rollback
    | .error (.trapped cause) t => .error (.trapped cause) t.close

end Transaction

end AtariDisk
