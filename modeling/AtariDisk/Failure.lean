import AtariDisk.Text.Column

/-!
# Failures

An operation on a disk either answers, is refused for a stated cause (`DiskError`), or traps: it
would have to compute a number that does not fit into 64 bits, or to touch bytes that are not
there. `DiskError.message` is the only place where causes are put into words.
-/

namespace AtariDisk

/-- Why the host could not read or write one of its own files. -/
inductive HostError where
  | missing
  | isDirectory
  | nulInPath
  | other (code : Nat) (text : String)
deriving DecidableEq, Repr

/-- The host's wording, with the number of the system error if the system was asked at all. -/
def HostError.message : HostError → String
  | missing => "No such file or directory (os error 2)"
  | isDirectory => "Is a directory (os error 21)"
  | nulInPath => "file name contained an unexpected NUL byte"
  | other code text => s!"{text} (os error {code})"

/-- Causes for which a disk operation is refused. -/
inductive DiskError where
  | host (cause : HostError)
  | sectorSizeUnsupported (size : Nat)
  | headerTooShort (length : Nat)
  | signatureMismatch (found : Nat)
  | imageTooSmall (size : Nat)
  | imageEmpty
  | sizeUncommon (size : Nat)
  | mapTooShort (length : Nat)
  | volumeTooSmall (sectors : Nat)
  | volumeForeign (code : Nat)
  | filesystemUnknown
  | bootTooShort (length : Nat)
  | bootExecutable
  | bootCount (count : Nat)
  | bootAddress (address : Nat)
  | sectorOutOfRange (sector first last : Nat)
  | sizeMismatch (sector expected actual : Nat)
  | notEnoughSpace (needed available : Nat)
  | directoryFull (capacity : Nat)
  | nameTaken (name : String)
  | fileNotFound (name : String)
  | fileLocked (name : String)
  | nameInvalid (name : String)
  | payloadTooLong (sector length capacity : Nat)
  | linkOutOfRange (owner next : Nat)
  | sectorTooSmall (sector : Nat)
  | usedTooLarge (sector used capacity : Nat)
  | chainTooLong (name : String) (expected : Nat)
  | chainLeavesDisk (name : String) (sector : Nat)
  | chainForeign (name : String) (sector owner expected : Nat)
  | chainTooShort (name : String) (found expected : Nat)
deriving DecidableEq, Repr

/-- The family a cause belongs to. -/
inductive ErrorKind where
  | host
  | format
  | sectorRange
  | size
  | space
  | directorySpace
  | nameTaken
  | notFound
  | locked
  | damaged
  | nameInvalid
deriving DecidableEq, Repr

namespace DiskError

def kind : DiskError → ErrorKind
  | host _ => .host
  | sectorSizeUnsupported _ | headerTooShort _ | signatureMismatch _ | imageTooSmall _
  | imageEmpty | sizeUncommon _ | mapTooShort _ | volumeTooSmall _ | volumeForeign _
  | filesystemUnknown | bootTooShort _ | bootExecutable | bootCount _ | bootAddress _ => .format
  | sectorOutOfRange .. => .sectorRange
  | sizeMismatch .. => .size
  | notEnoughSpace .. => .space
  | directoryFull _ => .directorySpace
  | nameTaken _ => .nameTaken
  | fileNotFound _ => .notFound
  | fileLocked _ => .locked
  | nameInvalid _ => .nameInvalid
  | payloadTooLong .. | linkOutOfRange .. | sectorTooSmall _ | usedTooLarge .. | chainTooLong ..
  | chainLeavesDisk .. | chainForeign .. | chainTooShort .. => .damaged

/-- The disk has no room, in its sectors or in its directory. -/
def isOutOfSpace (e : DiskError) : Bool :=
  e.kind = .space || e.kind = .directorySpace

/-- The cause in words, without the words of its family. -/
def detail : DiskError → String
  | host cause => cause.message
  | sectorSizeUnsupported size => s!"Unsupported sector size {size}"
  | headerTooShort length => s!"ATR header needs 16 bytes, got {length}"
  | signatureMismatch found => s!"Bad ATR signature 0x{Text.hex 4 found}"
  | imageTooSmall size => s!"Image size {size} too small"
  | imageEmpty => "Empty image"
  | sizeUncommon size => s!"Uncommon size of XFD file: {size}"
  | mapTooShort length => s!"VTOC needs 100 bytes, got {length}"
  | volumeTooSmall sectors => s!"{sectors} sectors is too small for DOS 2 (needs 368)"
  | volumeForeign code => s!"VTOC DOS code {code} is not DOS 2"
  | filesystemUnknown => "No recognized filesystem"
  | bootTooShort length => s!"Boot record needs 6 bytes, got {length}"
  | bootExecutable => "Appears to be an executable"
  | bootCount count => s!"Number of boot sectors out of range: {count}"
  | bootAddress address => s!"Bad boot load address: ${Text.hex 4 address}"
  | sectorOutOfRange sector first last => s!"Sector {sector} out of range ({first}-{last})"
  | sizeMismatch sector expected actual =>
    s!"Sector {sector} run expects {expected} bytes, got {actual}"
  | notEnoughSpace needed available =>
    s!"Not enough space on disk: need {needed} sectors, {available} available"
  | directoryFull capacity => s!"No space in directory (capacity {capacity})"
  | nameTaken name => name
  | fileNotFound name => name
  | fileLocked name => name
  | nameInvalid name => name
  | payloadTooLong sector length capacity =>
    s!"Sector {sector} payload of {length} bytes exceeds {capacity}"
  | linkOutOfRange owner next => s!"Sector link out of range (file {owner}, next {next})"
  | sectorTooSmall sector => s!"Sector {sector} too small for a link"
  | usedTooLarge sector used capacity =>
    s!"Sector {sector} claims {used} bytes used, max {capacity}"
  | chainTooLong name expected => s!"{name}: chain longer than {expected} sectors"
  | chainLeavesDisk name sector =>
    s!"{name}: chain points at sector {sector} outside the image"
  | chainForeign name sector owner expected =>
    s!"{name}: sector {sector} belongs to file {owner}, expected {expected}"
  | chainTooShort name found expected =>
    s!"{name}: chain has {found} sectors, directory says {expected}"

/-- Words put in front of the detail of a cause of each family. -/
def lead : ErrorKind → String
  | .host => "I/O error: "
  | .format => "Invalid format: "
  | .nameTaken => "File already exists: "
  | .notFound => "File not found: "
  | .locked => "File locked: "
  | .damaged => "Invalid file: "
  | .nameInvalid => "Invalid filename: "
  | .sectorRange | .size | .space | .directorySpace => ""

def message (e : DiskError) : String :=
  lead e.kind ++ e.detail

end DiskError

/-- Computations that have no answer. -/
inductive Trap where
  | overflow
  | divisionByZero
  | outOfBounds
  | emptyChunk
  | tooLarge
  | nestedTransaction
deriving DecidableEq, Repr

/-- How an operation fails. -/
inductive Failure where
  | refused (cause : DiskError)
  | trapped (cause : Trap)
deriving DecidableEq, Repr

/-- An answer, a refusal or a trap. -/
abbrev Outcome := Except Failure

def refuse {α : Type} (cause : DiskError) : Outcome α :=
  .error (.refused cause)

def trap {α : Type} (cause : Trap) : Outcome α :=
  .error (.trapped cause)

/-- An operation on a state. Whether it answers or fails, there is a state that it leaves behind. -/
abbrev Call (σ : Type) := EStateM Failure σ

namespace Call

variable {σ α : Type}

/-- An answer that does not depend on the state. -/
def ofOutcome : Outcome α → Call σ α
  | .ok a => fun s => .ok a s
  | .error e => fun s => .error e s

/-- Makes the call on a copy of a state. The copy is lost if the call fails. -/
def onCopy (s : σ) (call : Call σ α) : Outcome (α × σ) :=
  match call s with
  | .ok a copy => .ok (a, copy)
  | .error e _ => .error e

end Call

end AtariDisk
