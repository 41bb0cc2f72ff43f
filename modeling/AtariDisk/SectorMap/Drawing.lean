import AtariDisk.SectorMap
import AtariDisk.Text.Column

/-!
# Drawing the sector map

The map is drawn with a column for each track and a row for each place within a track, the first
place at the bottom. Below stand the numbers of the tracks, every five columns.
-/

namespace AtariDisk

/-- What a sector is used for, as far as a drawing tells. -/
inductive SectorUse where
  | boot
  | system
  | used
  | free
deriving DecidableEq, Repr

namespace SectorUse

def classify (sector : Nat) (free : Bool) : SectorUse :=
  if 1 ≤ sector ∧ sector ≤ SectorMap.bootSectors then .boot
  else if SectorMap.isSystem sector then .system
  else if free then .free
  else .used

/-- Escape sequence that ends a color. -/
def reset : String := "\x1b[0m"

/-- Escape sequence for the color of a use. -/
def color : SectorUse → String
  | boot => "\x1b[93m"
  | system => "\x1b[96m"
  | used => "\x1b[97m"
  | free => "\x1b[37m"

/-- A light shade for free sectors, a dark one for all others. -/
def block : SectorUse → String
  | free => "\u2591"
  | _ => "\u2593"

def inColor (use : SectorUse) (text : String) : String :=
  use.color ++ text ++ reset

end SectorUse

namespace SectorMap

def legend (colored : Bool) : String :=
  if colored then
    "Legend: " ++ SectorUse.boot.inColor "Boot" ++ " " ++ SectorUse.system.inColor "System"
      ++ " " ++ SectorUse.used.inColor "Used" ++ " " ++ SectorUse.free.inColor "Free"
  else
    "Legend: " ++ SectorUse.used.block ++ " Used " ++ SectorUse.free.block ++ " Free"

def cell (use : SectorUse) (colored : Bool) : String :=
  if colored then use.inColor use.block else use.block

/-- The cells of the sectors at one place of every track; tracks that end before are blank. -/
def rowCells (tracks : List (List Bool)) (sectorsPerTrack place : Nat) (colored : Bool) :
    List String :=
  tracks.mapIdx fun t track =>
    match track[place]? with
    | some free => cell (.classify (t * sectorsPerTrack + place + 1) free) colored
    | none => " "

def row (tracks : List (List Bool)) (sectorsPerTrack place : Nat) (colored : Bool) : String :=
  Text.padStart 2 (toString place) ++ " "
    ++ String.join (rowCells tracks sectorsPerTrack place colored)

/-- `left` columns of the axis from `column` on. A number starts in every fifth column unless
`pending`, the rest of the number before it, is still to be written. -/
def axisFrom (pending : List Char) : (left column : Nat) → List Char
  | 0, _ => []
  | left + 1, column =>
    let text :=
      if pending.isEmpty && column % 5 = 0 then Nat.toDigits 10 column else pending
    text.headD ' ' :: axisFrom text.tail left (column + 1)

/-- Numbers of the tracks, cut off behind the last. -/
def axis (tracks : Nat) : String :=
  "   " ++ String.ofList (axisFrom [] tracks 0)

/-- The lines of the drawing. -/
def drawing (map : SectorMap) (sectorsPerTrack : Nat) (colored : Bool) : List String :=
  let tracks := map.trackRows sectorsPerTrack
  s!"=== VTOC Map ({map.freeCount} free) ===" :: legend colored :: ""
    :: (List.range sectorsPerTrack).reverse.map (row tracks sectorsPerTrack · colored)
    ++ [axis tracks.length]

/-- The drawing as a text. -/
def draw (map : SectorMap) (sectorsPerTrack : Nat) (colored : Bool) : String :=
  String.join ((map.drawing sectorsPerTrack colored).map (· ++ "\n"))

end SectorMap

end AtariDisk
