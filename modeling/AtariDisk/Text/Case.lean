import AtariDisk.Text.CaseTable
import AtariDisk.Text.Ranges

/-!
# Upper and lower case

Full case conversion: a letter may become several, and a capital sigma at the end of a word has a
lower case of its own.
-/

namespace AtariDisk.Text

def CaseRun.covers (run : CaseRun) (n : Nat) : Bool :=
  run.first ≤ n && n ≤ run.last && (n - run.first) % run.step = 0

/-- The characters that `c` becomes. -/
def convert (special : List (Nat × List Nat)) (runs : List CaseRun) (c : Char) : List Char :=
  match special.lookup c.toNat with
  | some codes => codes.map Char.ofNat
  | none =>
    match runs.find? (·.covers c.toNat) with
    | some run => [Char.ofNat (run.target + (c.toNat - run.first))]
    | none => [c]

/-- Whether the first character that counts has a case. -/
def meetsCased (text : List Char) : Bool :=
  (text.dropWhile (isIn caseIgnorable)).head?.any (isIn cased)

def capitalSigma : Char := '\u03A3'

/-- The lower case of a capital sigma after `before`, which is given backwards. -/
def lowerSigma (before behind : List Char) : Char :=
  if meetsCased before && !meetsCased behind then '\u03C2' else '\u03C3'

/-- Lower case of a text that stands behind `before`, which is given backwards. -/
def lowerFrom (before : List Char) : List Char → List Char
  | [] => []
  | c :: rest =>
    (if c = capitalSigma then [lowerSigma before rest] else convert lowerSpecial lowerRuns c)
      ++ lowerFrom (c :: before) rest

def lower (text : String) : String :=
  String.ofList (lowerFrom [] text.toList)

def upper (text : String) : String :=
  String.ofList (text.toList.flatMap (convert upperSpecial upperRuns))

end AtariDisk.Text
