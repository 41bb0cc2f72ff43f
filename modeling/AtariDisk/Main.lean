import AtariDisk.Console.Loop

/-!
# The program

Serves the console from standard input, with the files of the host.
-/

namespace AtariDisk.Program

/-- The host's own account of an error. -/
def hostError : IO.Error → AtariDisk.HostError
  | .noFileOrDirectory .. => .missing
  | .inappropriateType _ 21 _ => .isDirectory
  | .inappropriateType _ code details
  | .permissionDenied _ code details
  | .resourceExhausted _ code details
  | .invalidArgument _ code details
  | .otherError code details => .other code.toNat details
  | e => .other 5 (toString e)

def attempt {α : Type} (path : String) (action : String → IO α) :
    IO (Except AtariDisk.HostError α) := do
  if path.toList.contains '\x00' then return .error .nulInPath
  try
    return .ok (← action path)
  catch e =>
    return .error (hostError e)

/-- Gives a command what it asks for. -/
def serve : AtariDisk.Console.HostCall → IO AtariDisk.Console.Reply
  | .done reply => return reply
  | .read path resume => do
    let answer ← attempt path fun path => IO.FS.readBinFile path
    return resume (answer.map (·.data))
  | .write path data resume => do
    let answer ← attempt path fun path => IO.FS.writeBinFile path ⟨data⟩
    return resume answer

/-- Answers the lines of standard input and gives the exit code. -/
partial def loop (session : Option AtariDisk.Console.Session) : IO UInt32 := do
  let line ← (← IO.getStdin).getLine
  if line.isEmpty then
    IO.print AtariDisk.Console.farewell
    return 0
  else
    let reply ← serve (AtariDisk.Console.answer session line)
    IO.print reply.output
    match reply.continuation with
    | .proceed => loop reply.session
    | .stop =>
      IO.print AtariDisk.Console.farewell
      return 0
    | .trapped _ => return UInt32.ofNat AtariDisk.Console.trapCode

end AtariDisk.Program

def main : IO UInt32 := do
  IO.print AtariDisk.Console.greeting
  AtariDisk.Program.loop none
