/-!
# Words of a command line

Words are separated by blanks and tabs, which count as part of a word between double quotes. The
quotes themselves are dropped, and so are words without characters.
-/

namespace AtariDisk.Console

/-- A finished word, unless it is empty. -/
def finish (word : List Char) : List String :=
  if word.isEmpty then [] else [String.ofList word]

def isSeparator (c : Char) : Bool :=
  c = ' ' || c = '\t'

/-- The word that a line goes on with, and the words behind it. -/
def splitWords (quoted : Bool) : List Char → List Char × List String
  | [] => ([], [])
  | c :: rest =>
    if c = '"' then splitWords (!quoted) rest
    else
      let (word, words) := splitWords quoted rest
      if isSeparator c && !quoted then ([], finish word ++ words) else (c :: word, words)

def words (line : String) : List String :=
  let (word, words) := splitWords false line.toList
  finish word ++ words

end AtariDisk.Console
