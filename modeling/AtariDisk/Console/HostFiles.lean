import AtariDisk.Console.Execute
import AtariDisk.Text.Path

/-!
# Host files in memory

A host with a single directory, in which there are only files. Paths are followed from that
directory.
-/

namespace AtariDisk.Console

/-- The files of a directory by name. -/
structure HostFiles where
  files : List (String × Buffer)
deriving DecidableEq

namespace HostFiles

/-- What a path leads to. -/
inductive Target where
  | file (name : String)
  | directory
  | nowhere (cause : HostError)
deriving DecidableEq

/-- Bytes of the longest name. -/
def longestName : Nat := 255

/-- Bytes of the longest path. -/
def longestPath : Nat := 4095

def tooLong : HostError :=
  .other 36 "File name too long"

def notDirectory : HostError :=
  .other 20 "Not a directory"

/-- Why there is no directory of that name. -/
def whyNoDirectory (host : HostFiles) (name : String) : HostError :=
  if longestName < name.utf8ByteSize then tooLong
  else if (host.files.lookup name).isSome then notDirectory
  else .missing

/-- Follows the names of a path. Behind the last of them the path may end in a slash; then it asks
for a directory. -/
def walk (host : HostFiles) (slash creating : Bool) : List (List Char) → Target
  | [] => .directory
  | ['.'] :: rest => host.walk slash creating rest
  | [['.', '.']] => .directory
  | [name] =>
    let name := String.ofList name
    if slash then
      if creating then .directory else .nowhere (host.whyNoDirectory name)
    else if longestName < name.utf8ByteSize then .nowhere tooLong
    else .file name
  | name :: _ => .nowhere (host.whyNoDirectory (String.ofList name))

/-- What a path leads to, if a missing file at its end is to be created or not. -/
def resolve (host : HostFiles) (path : String) (creating : Bool) : Target :=
  let pieces := Text.splitAt '/' path.toList
  if path.toList.contains '\x00' then .nowhere .nulInPath
  else if path = "" then .nowhere .missing
  else if longestPath < path.utf8ByteSize then .nowhere tooLong
  else
    match pieces.filter (· ≠ []), pieces.head? with
    | [], _ => .directory
    | _, some [] => .nowhere .missing
    | names, _ => host.walk (pieces.getLast? = some []) creating names

def read (host : HostFiles) (path : String) : Except HostError Buffer :=
  match host.resolve path false with
  | .directory => .error .isDirectory
  | .nowhere cause => .error cause
  | .file name =>
    match host.files.lookup name with
    | some data => .ok data
    | none => .error .missing

/-- The files with one of them written anew. -/
def put (name : String) (data : Buffer) : List (String × Buffer) → List (String × Buffer)
  | [] => [(name, data)]
  | file :: rest => if file.1 = name then (name, data) :: rest else file :: put name data rest

def write (host : HostFiles) (path : String) (data : Buffer) : Except HostError HostFiles :=
  match host.resolve path true with
  | .directory => .error .isDirectory
  | .nowhere cause => .error cause
  | .file name => .ok ⟨put name data host.files⟩

/-- Gives a command what it asks for. -/
def serve (host : HostFiles) : HostCall → Reply × HostFiles
  | .done reply => (reply, host)
  | .read path resume => (resume (host.read path), host)
  | .write path data resume =>
    match host.write path data with
    | .ok host => (resume (.ok ()), host)
    | .error cause => (resume (.error cause), host)

end HostFiles

end AtariDisk.Console
