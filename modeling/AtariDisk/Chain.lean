import AtariDisk.DataSector

/-!
# Chains

The data sectors of a file, in the order in which they are linked.
-/

namespace AtariDisk

abbrev Chain := List DataSector

namespace Chain

def numbers (chain : Chain) : List Nat :=
  chain.map (·.number)

/-- The bytes of the file. -/
def contents (chain : Chain) : Bytes :=
  chain.flatMap (·.payload)

/-- Number of bytes of the file. -/
def fileLength : Chain → Nat
  | [] => 0
  | s :: rest => s.payload.length + fileLength rest

/-- Number of the first sector, zero for a file without sectors. -/
def firstSector (chain : Chain) : Nat :=
  (chain.numbers).headD 0

/-- Bytes that `capacity` asks a sector to hold, at least one. -/
def effective (capacity : Nat) : Nat :=
  max capacity 1

/-- Number of sectors for `length` bytes. -/
def sectorsNeeded (capacity length : Nat) : Nat :=
  length / effective capacity + (if length % effective capacity = 0 then 0 else 1)

/-- `contents` cut into pieces that have no place yet. -/
def split (capacity : Nat) (contents : Bytes) : Chain :=
  (chunks (effective capacity) contents).map DataSector.unplaced

/-- Gives each sector its number and the number of the one behind it. -/
def assign (owner : Nat) : Chain → List Nat → Chain
  | s :: rest, n :: numbers =>
    { s with number := n, owner, next := numbers.headD 0 } :: assign owner rest numbers
  | _, _ => []

/-- Places the chain on the sectors of the given numbers. -/
def place (chain : Chain) (numbers : List Nat) (owner : Nat) : Outcome Chain :=
  if numbers.length = chain.length then .ok (chain.assign owner numbers)
  else refuse (.notEnoughSpace chain.length numbers.length)

/-- Places a chain where it stands; one that cannot be placed stays as it is. -/
def link (numbers : List Nat) (owner : Nat) : Call Chain Unit := do
  match (← get).place numbers owner with
  | .ok placed => set placed
  | .error e => throw e

end Chain

end AtariDisk
