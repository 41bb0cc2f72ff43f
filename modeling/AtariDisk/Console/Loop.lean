import AtariDisk.Console.HostFiles
import AtariDisk.Console.Words
import AtariDisk.Text.Blank

/-!
# The console

Answers lines, as they were read, until one of them ends the console or there are no more. `run`
answers them with a directory of files in memory for a host.
-/

namespace AtariDisk.Console

/-- What is printed before the first line is read. -/
def greeting : String :=
  printed ["=== ATRManager ===",
    "Interactive console for exploring Atari ATR and XFD disk images.",
    "Type 'help' for available commands", ""]

/-- What is printed at the end. -/
def farewell : String :=
  printed ["Goodbye!"]

/-- Answers a line. -/
def answer (session : Option Session) (line : String) : HostCall :=
  match words (String.ofList (Text.trim line.toList)) with
  | [] => .done (.say session [])
  | word :: arguments => execute session (.ofWords word arguments)

/-- How the console ended. -/
structure Transcript where
  output : String
  host : HostFiles
  exitCode : Nat
deriving DecidableEq

/-- Exit code after a trap. -/
def trapCode : Nat := 101

/-- Goes through the lines of a session, with `output` printed so far. -/
def runFrom (output : String) (session : Option Session) (host : HostFiles) :
    List String → Transcript
  | [] => ⟨output ++ farewell, host, 0⟩
  | line :: rest =>
    let (reply, host) := host.serve (answer session line)
    let output := output ++ reply.output
    match reply.continuation with
    | .proceed => runFrom output reply.session host rest
    | .stop => ⟨output ++ farewell, host, 0⟩
    | .trapped _ => ⟨output, host, trapCode⟩

def run (host : HostFiles) (lines : List String) : Transcript :=
  runFrom greeting none host lines

end AtariDisk.Console
