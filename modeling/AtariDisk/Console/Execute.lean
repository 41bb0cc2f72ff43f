import AtariDisk.Boot
import AtariDisk.Console.Command
import AtariDisk.Console.HexDump
import AtariDisk.Console.Session
import AtariDisk.SectorMap.Drawing
import AtariDisk.Volume.Files
import AtariDisk.Volume.Listing

/-!
# Carrying out commands

A command is answered with some text and the session to go on with. A command that has to read or
write a file of the host asks for that and says how it goes on with each answer.
-/

namespace AtariDisk.Console

/-- Whether the console waits for another line. -/
inductive Continuation where
  | proceed
  | stop
  | trapped (cause : Trap)
deriving DecidableEq, Repr

structure Reply where
  output : String
  session : Option Session
  continuation : Continuation := .proceed
deriving DecidableEq

/-- What a command needs from the host before it can be answered. -/
inductive HostCall where
  | done (reply : Reply)
  | read (path : String) (resume : Except HostError Buffer → Reply)
  | write (path : String) (data : Buffer) (resume : Except HostError Unit → Reply)

/-- Lines as they are printed. -/
def printed (lines : List String) : String :=
  String.join (lines.map (· ++ "\n"))

namespace Reply

/-- Prints some lines and keeps the session. -/
def say (session : Option Session) (lines : List String) : Reply :=
  { output := printed lines, session }

def crash (session : Option Session) (cause : Trap) : Reply :=
  { output := "", session, continuation := .trapped cause }

/-- Goes on with an answer, or prints why there is none. -/
def ofOutcome {α : Type} (session : Option Session) (outcome : Outcome α) (reply : α → Reply) :
    Reply :=
  match outcome with
  | .ok a => reply a
  | .error (.refused cause) => say session [s!"Error: {cause.message}"]
  | .error (.trapped cause) => crash session cause

def noImage : Reply :=
  say none ["No image loaded"]

/-- Goes on with the image, if there is one. -/
def onSession (session : Option Session) (reply : Session → Reply) : Reply :=
  match session with
  | some s => reply s
  | none => noImage

/-- Goes on with the volume, if there is one. -/
def onVolume (session : Option Session) (reply : Volume → Reply) : Reply :=
  match session.bind Session.volume? with
  | some v => reply v
  | none => say session ["No filesystem mounted"]

/-- Starts a session with an image, after some lines. -/
def enter (session : Option Session) (lines : List String) (image : Image) : Reply :=
  match Session.ofImage image with
  | .ok (fresh, line) => say (some fresh) (lines ++ [line])
  | .error cause => { crash session cause with output := printed lines }

end Reply

def helpLines : List String :=
  ["Available commands:",
    "  open <path>                     - Open an ATR or XFD image (use quotes for paths with spaces)",
    "  create [sd|ed|dd] [atr|xfd]     - Create a new DOS 2 formatted image",
    "  format                          - Lay down an empty DOS 2 filesystem",
    "  info                            - Show image and filesystem information",
    "  dir, ls                         - List files on disk",
    "  read <filename>                 - Hex dump a file",
    "  export <filename> [output_path] - Export a file to the host filesystem",
    "  import <host_path> [name] [locked] - Import a host file",
    "  delete, rm <filename>           - Delete a file",
    "  vtoc, map                       - Visual map of the free sector table",
    "  boot                            - Show the boot record",
    "  read-sector <sector>            - Hex dump a sector (decimal, $hex or 0xhex)",
    "  convert <atr|xfd>               - Change the container format",
    "  save [path]                     - Save image to file",
    "  help                            - Show this help",
    "  quit, exit                      - Exit"]

def imageLines (image : Image) : List String :=
  let h := image.header
  [s!"Format:       {h.container.name}"]
    ++ (image.fileName.toList.map fun name => s!"Filename:     {name}")
    ++ [s!"Sectors:      {h.sectorCount}", s!"Sector size:  {h.sectorSize}"]
    ++ (if 0 < h.bootSectors then
        [s!"Boot sectors: {h.bootSectors} x {h.bootSectorSize} bytes"] else [])
    ++ [s!"Image size:   {h.imageSize} bytes",
      "Modified:     " ++ (if image.changed then "yes" else "no")]

def volumeLines (v : Volume) : Outcome (List String) := do
  let summary ← v.summary
  let bytes ← summary.freeBytes
  return ["",
    s!"Filesystem:   {summary.filesystem}",
    s!"Files:        {summary.files} of {summary.capacity}",
    s!"Total:        {summary.totalSectors} sectors",
    s!"Free:         {summary.freeSectors} sectors ({bytes} bytes)"]

def infoLines : Session → Outcome (List String)
  | .raw image => .ok (imageLines image)
  | .mounted v => do return imageLines v.image ++ (← volumeLines v)

def listColumns (slot name sectors size start flags : String) : String :=
  s!"{Text.padEnd 3 slot} {Text.padEnd 12 name} {Text.padStart 7 sectors} "
    ++ s!"{Text.padStart 8 size} {Text.padStart 6 start}  {flags}"

def listedFlags (file : ListedFile) : String :=
  " ".intercalate
    ((if file.locked then ["locked"] else [])
      ++ (if file.dos2 then [] else ["dos1"])
      ++ (if file.openForOutput then ["open"] else []))

def listedLines (file : ListedFile) : List String :=
  listColumns (toString file.slot) file.name (toString file.sectors) (toString file.size)
      (toString file.firstSector) (listedFlags file)
    :: file.error.toList.map fun why => s!"      ! {why}"

def listLines (v : Volume) : Outcome (List String) := do
  if v.list.isEmpty then return ["No files"]
  else
    let summary ← v.summary
    return listColumns "#" "Name" "Sectors" "Size" "Start" "Flags"
      :: v.list.flatMap listedLines ++ [s!"{summary.freeSectors} free sectors"]

def bootLines (image : Image) : Outcome (List String) := do
  let record ← BootRecord.ofImage image
  let verdict ← match BootRecord.detect image with
    | .ok _ => pure "Looks bootable"
    | .error (.refused cause) => pure s!"Not bootable: {cause.message}"
    | .error (.trapped cause) => trap cause
  return [s!"Boot record: {record.describe}", verdict]

def mapText (image : Image) : Outcome String := do
  let map ← Volume.readMap image
  return map.draw image.header.sectorsPerTrack true

/-- Works on the volume of a session, which goes on with the volume as the work leaves it. -/
def changeVolume {α : Type} (v : Volume) (change : Call Volume α) (line : String) :
    Reply :=
  match change v with
  | .ok _ v => .say (some (.mounted v)) [line]
  | .error (.refused cause) v => .say (some (.mounted v)) [s!"Error: {cause.message}"]
  | .error (.trapped cause) v => .crash (some (.mounted v)) cause

/-- Starts a session with a disk that was just made. -/
def createDisk (session : Option Session) (plan : DiskPlan) : Reply :=
  .ofOutcome session (plan.image >>= Volume.format) fun v =>
    .say (some (.mounted v))
      [s!"Created new {v.image.header.container.name} image ({v.image.header.sectorCount} sectors), "
        ++ "formatted for DOS 2"]

def formatDisk (session : Option Session) : Reply :=
  .onSession session fun s =>
    .ofOutcome session (Volume.format s.image) fun v =>
      .say (some (.mounted v)) [s!"Formatted: {v.map.freeCount} free sectors"]

def dumpFile (session : Option Session) (name : String) : Reply :=
  .onVolume session fun v =>
    .ofOutcome session (v.contentsOf name) fun contents =>
      .say session (s!"{Text.upper name} ({contents.length} bytes):" :: hexDump contents 512)

def dumpSector (session : Option Session) (sector : Option Nat) : Reply :=
  .onSession session fun s =>
    match sector with
    | none => .say session ["Usage: read-sector <sector>"]
    | some n =>
      .ofOutcome session (s.image.readSector n) fun bytes =>
        .say session (s!"Sector {n} ({bytes.length} bytes):" :: hexDump bytes bytes.length)

def convertImage (session : Option Session) (container : Container) : Reply :=
  .onSession session fun s =>
    .ofOutcome session (s.image.convert container) fun image =>
      .enter session [s!"Converted to {container.name}"] image

/-- Opens the file whose bytes the host has read. -/
def openImage (session : Option Session) (path : String) (answer : Except HostError Buffer) :
    Reply :=
  .ofOutcome session (Image.ofFile path answer) fun image =>
    .enter session [s!"Opened: {path}"] image

/-- Puts the file whose bytes the host has read on the volume. -/
def importFile (session : Option Session) (path name : String) (kind : FileKind)
    (answer : Except HostError Buffer) : Reply :=
  match answer with
  | .error cause => .say session [s!"Error reading {path}: {cause.message}"]
  | .ok data =>
    .onVolume session fun v =>
      changeVolume v (Volume.writeFile name kind data.toList)
        s!"Imported {data.size} bytes as {Text.upper name}"

def exportFile (session : Option Session) (name output : String) : HostCall :=
  match session.bind Session.volume? with
  | none => .done (.say session ["No filesystem mounted"])
  | some v =>
    match v.contentsOf name with
    | .error (.refused cause) => .done (.say session [s!"Error: {cause.message}"])
    | .error (.trapped cause) => .done (.crash session cause)
    | .ok contents => .write output contents.toArray fun
      | .ok () => .say session [s!"Exported {contents.length} bytes to {output}"]
      | .error cause => .say session [s!"Error writing {output}: {cause.message}"]

def saveImage (session : Option Session) (path : Option String) : HostCall :=
  match session with
  | none => .done .noImage
  | some s =>
    match path <|> s.image.fileName with
    | none => .done (.say session ["Usage: save <path>"])
    | some path => .write path s.image.data fun
      | .ok () => .say (some (s.withImage s.image.saved)) [s!"Saved: {path}"]
      | .error cause => .say session [s!"Error: {(DiskError.host cause).message}"]

/-- Carries out a command. -/
def execute (session : Option Session) : Command → HostCall
  | .help => .done (.say session helpLines)
  | .quit => .done { output := "", session, continuation := .stop }
  | .openImage path => .read path (openImage session path)
  | .create plan => .done (createDisk session plan)
  | .format => .done (formatDisk session)
  | .info => .done (.onSession session fun s => .ofOutcome session (infoLines s) (.say session))
  | .list => .done (.onVolume session fun v => .ofOutcome session (listLines v) (.say session))
  | .read name => .done (dumpFile session name)
  | .exportFile name output => exportFile session name output
  | .importFile path name kind => .read path (importFile session path name kind)
  | .delete name => .done (.onVolume session fun v =>
      changeVolume v (Volume.deleteFile name) s!"Deleted {Text.upper name}")
  | .map => .done (.onSession session fun s =>
      .ofOutcome session (mapText s.image) fun text => { output := text, session })
  | .boot => .done (.onSession session fun s =>
      .ofOutcome session (bootLines s.image) (.say session))
  | .readSector sector => .done (dumpSector session sector)
  | .convert container => .done (convertImage session container)
  | .save path => saveImage session path
  | .rejected line => .done (.say session [line])

end AtariDisk.Console
