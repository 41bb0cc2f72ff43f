import AtariDisk.Container
import AtariDisk.DiskPlan
import AtariDisk.Directory.Entry
import AtariDisk.Directory.HostName
import AtariDisk.Text.Case
import AtariDisk.Text.Numeral

/-!
# Commands

What a user can ask for. `Command.ofWords` reads the words of a line; words it cannot make sense
of become the line that tells the user so.
-/

namespace AtariDisk.Console

inductive Command where
  | help
  | quit
  | openImage (path : String)
  | create (plan : DiskPlan)
  | format
  | info
  | list
  | read (name : String)
  | exportFile (name output : String)
  | importFile (path name : String) (kind : FileKind)
  | delete (name : String)
  | map
  | boot
  | readSector (sector : Option Nat)
  | convert (container : Container)
  | save (path : Option String)
  | rejected (line : String)
deriving DecidableEq

namespace Command

/-- Words that compare without regard to the case of ASCII letters. -/
def sameWord (a b : String) : Bool :=
  a.toList.map Char.toLower = b.toList.map Char.toLower

/-- The plan for the density a user names. -/
def densityPlan? (density : String) (plan : DiskPlan) : Option DiskPlan :=
  if density = "sd" then some plan.singleDensity
  else if density = "ed" then some plan.enhancedDensity
  else if density = "dd" then some plan.doubleDensity
  else none

/-- A new disk in the given container, of single density unless another is named. -/
def createIn (container : Container) (density : Option String) : Command :=
  let density := (density.map Text.lower).getD "sd"
  match densityPlan? density { container } with
  | some plan => create plan
  | none => rejected s!"Unknown density '{density}', expected sd, ed or dd"

def ofCreateWords : List String → Command
  | density :: name :: _ =>
    match Container.ofName? name with
    | some container => createIn container (some density)
    | none => rejected s!"Unknown format '{name}', expected atr or xfd"
  | arguments => createIn .atr arguments.head?

def ofImportWords : List String → Command
  | [] => rejected "Usage: import <host_path> [disk_name] [locked]"
  | path :: options =>
    let name := (options[0]?).getD (FileName.ofHostPath path).text
    let kind := if (options.drop 1).any (sameWord · "locked") then .locked else .normal
    importFile path name kind

/-- The command of a line with the given words. -/
def ofWords (word : String) (arguments : List String) : Command :=
  let command := Text.lower word
  match command, arguments with
  | "help", _ => help
  | "quit", _ | "exit", _ => quit
  | "open", [] => rejected "Usage: open <path>"
  | "open", path :: _ => openImage path
  | "create", _ => ofCreateWords arguments
  | "format", _ => format
  | "info", _ => info
  | "dir", _ | "ls", _ => list
  | "read", [] => rejected "Usage: read <filename>"
  | "read", name :: _ => read name
  | "export", [] => rejected "Usage: export <filename> [output_path]"
  | "export", name :: options => exportFile name (options.headD name)
  | "import", _ => ofImportWords arguments
  | "delete", [] | "rm", [] => rejected "Usage: delete <filename>"
  | "delete", name :: _ | "rm", name :: _ => delete name
  | "vtoc", _ | "map", _ => map
  | "boot", _ => boot
  | "read-sector", _ => readSector (arguments.head?.bind Text.readNumber?)
  | "convert", _ =>
    match arguments.head?.bind Container.ofName? with
    | some container => convert container
    | none => rejected "Usage: convert <atr|xfd>"
  | "save", _ => save arguments.head?
  | _, _ => rejected s!"Unknown command: {command}. Type 'help' for available commands."

end Command

end AtariDisk.Console
