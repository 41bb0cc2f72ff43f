import AtariDisk.Console.Execute
import AtariDisk.Proofs.Console.Commands

/-!
# What a command is to come to

`attempt` says for each command which session comes after it, if everything that it does succeeds,
or which problem comes first. It is told by the operations on disks and host files alone; what the
console prints, and how it gets from one operation to the next, does not matter here.
-/

namespace AtariDisk.Console

/-- What the host says if it is asked to read or to write a file. -/
structure HostAnswer where
  read : Except HostError Buffer
  write : Except HostError Unit

/-- The bytes that are read can be held in memory. -/
def HostAnswer.InMemory (host : HostAnswer) : Prop :=
  ∀ data, host.read = .ok data → data.size < Word.memoryBound

/-- The reply to a command, once the host has given its answer. -/
def HostCall.answered (host : HostAnswer) : HostCall → Reply
  | .done reply => reply
  | .read _ resume => resume host.read
  | .write _ _ resume => resume host.write

/-- Why a command comes to nothing. -/
inductive Problem where
  | words
  | noImage
  | noVolume
  | host (cause : HostError)
  | disk (cause : Failure)

namespace Problem

variable {α : Type}

def ofHost : Except HostError α → Except Problem α
  | .ok a => .ok a
  | .error cause => .error (.host cause)

def ofDisk : Outcome α → Except Problem α
  | .ok a => .ok a
  | .error cause => .error (.disk cause)

/-- The volume after a change. -/
def ofChange : EStateM.Result Failure Volume α → Except Problem Volume
  | .ok _ v => .ok v
  | .error cause _ => .error (.disk cause)

/-- What there has to be. -/
def demand (problem : Problem) : Option α → Except Problem α
  | some a => .ok a
  | none => .error problem

theorem ofHost_eq_ok_iff {answer : Except HostError α} {a : α} :
    ofHost answer = .ok a ↔ answer = .ok a := by
  cases answer with
  | ok b => simp [ofHost]
  | error cause => simp [ofHost]

theorem ofDisk_eq_ok_iff {outcome : Outcome α} {a : α} :
    ofDisk outcome = .ok a ↔ outcome = .ok a := by
  cases outcome with
  | ok b => simp [ofDisk]
  | error cause => simp [ofDisk]

theorem ofChange_eq_ok {result : EStateM.Result Failure Volume α} {v : Volume}
    (hok : ofChange result = .ok v) : ∃ a, result = .ok a v := by
  cases result with
  | ok a u =>
    cases hok
    exact ⟨a, rfl⟩
  | error cause u => cases hok

theorem demand_eq_ok_iff {problem : Problem} {x : Option α} {a : α} :
    demand problem x = .ok a ↔ x = some a := by
  cases x with
  | none => simp [demand]
  | some b => simp [demand]

theorem demand_some_bind {β : Type} (problem : Problem) (a : α) (next : α → Except Problem β) :
    (demand problem (some a) >>= next) = next a := rfl

end Problem

open Problem

/-- The session of an image; finding no volume on it is no problem. -/
def Session.around (image : Image) : Session :=
  match Volume.mount image with
  | .ok v => .mounted v
  | .error _ => .raw image

/-- The session after a command that succeeds in all it does. -/
def attempt (session : Option Session) (host : HostAnswer) :
    Command → Except Problem (Option Session)
  | .help | .quit => return session
  | .openImage path => do
    let data ← ofHost host.read
    let image ← ofDisk (Image.ofBuffer data)
    return some (.around { image with fileName := Text.fileNameOf path })
  | .create plan => do
    let v ← ofDisk (plan.image >>= Volume.format)
    return some (.mounted v)
  | .format => do
    let s ← demand .noImage session
    let v ← ofDisk (Volume.format s.image)
    return some (.mounted v)
  | .info => do
    let s ← demand .noImage session
    let _ ← ofDisk (infoLines s)
    return session
  | .list => do
    let v ← demand .noVolume (session.bind Session.volume?)
    let _ ← ofDisk (listLines v)
    return session
  | .read name => do
    let v ← demand .noVolume (session.bind Session.volume?)
    let _ ← ofDisk (v.contentsOf name)
    return session
  | .exportFile name _ => do
    let v ← demand .noVolume (session.bind Session.volume?)
    let _ ← ofDisk (v.contentsOf name)
    ofHost host.write
    return session
  | .importFile _ name kind => do
    let data ← ofHost host.read
    let v ← demand .noVolume (session.bind Session.volume?)
    let v ← ofChange (v.writeFile name kind data.toList)
    return some (.mounted v)
  | .delete name => do
    let v ← demand .noVolume (session.bind Session.volume?)
    let v ← ofChange (v.deleteFile name)
    return some (.mounted v)
  | .map => do
    let s ← demand .noImage session
    let _ ← ofDisk (mapText s.image)
    return session
  | .boot => do
    let s ← demand .noImage session
    let _ ← ofDisk (bootLines s.image)
    return session
  | .readSector sector => do
    let s ← demand .noImage session
    let n ← demand .words sector
    let _ ← ofDisk (s.image.readSector n)
    return session
  | .convert container => do
    let s ← demand .noImage session
    let image ← ofDisk (s.image.convert container)
    return some (.around image)
  | .save path => do
    let s ← demand .noImage session
    let _ ← demand .words (path <|> s.image.fileName)
    ofHost host.write
    return some (s.withImage s.image.saved)
  | .rejected _ => .error .words

/-- The session to go on with. -/
def goOn (session : Option Session) : Except Problem (Option Session) → Option Session
  | .ok fresh => fresh
  | .error _ => session

/-- What comes out of an attempt has the property. -/
def Yields {α : Type} (result : Except Problem α) (P : α → Prop) : Prop :=
  ∀ a, result = .ok a → P a

theorem yields_pure {α : Type} {a : α} {P : α → Prop} (ha : P a) :
    Yields (pure a : Except Problem α) P := by
  intro b hb
  rw [← Except.ok.inj hb]
  exact ha

theorem yields_bind {α β : Type} {x : Except Problem α} {next : α → Except Problem β}
    {P : β → Prop} (hnext : ∀ a, x = .ok a → Yields (next a) P) : Yields (x >>= next) P := by
  cases x with
  | error problem =>
    intro b hb
    cases hb
  | ok a => exact hnext a rfl

/-- A command that only asks comes to the session there is. -/
theorem attempt_asking {session : Option Session} {host : HostAnswer} {command : Command}
    (hasks : command.asks = true) : Yields (attempt session host command) (· = session) := by
  have hkept : Yields (pure session) (· = session) := yields_pure rfl
  cases command
  case help => exact hkept
  case quit => exact hkept
  case rejected line =>
    intro fresh hfresh
    cases hfresh
  case info => exact yields_bind fun _ _ => yields_bind fun _ _ => hkept
  case list => exact yields_bind fun _ _ => yields_bind fun _ _ => hkept
  case read name => exact yields_bind fun _ _ => yields_bind fun _ _ => hkept
  case exportFile name output =>
    exact yields_bind fun _ _ => yields_bind fun _ _ => yields_bind fun _ _ => hkept
  case map => exact yields_bind fun _ _ => yields_bind fun _ _ => hkept
  case boot => exact yields_bind fun _ _ => yields_bind fun _ _ => hkept
  case readSector sector =>
    exact yields_bind fun _ _ => yields_bind fun _ _ => yields_bind fun _ _ => hkept
  all_goals cases hasks

end AtariDisk.Console
