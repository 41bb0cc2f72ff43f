/-!
# White space

The characters with the Unicode property `White_Space`, and trimming them off a text.
-/

namespace AtariDisk.Text

def isBlank (c : Char) : Bool :=
  let n := c.toNat
  (9 ≤ n && n ≤ 13) || n = 0x20 || n = 0x85 || n = 0xA0 || n = 0x1680
    || (0x2000 ≤ n && n ≤ 0x200A) || n = 0x2028 || n = 0x2029 || n = 0x202F || n = 0x205F
    || n = 0x3000

/-- `text` without the characters at its end that satisfy `drop`. -/
def trimEndBy (drop : Char → Bool) (text : List Char) : List Char :=
  (text.reverse.dropWhile drop).reverse

/-- `text` without white space at its start and end. -/
def trim (text : List Char) : List Char :=
  trimEndBy isBlank (text.dropWhile isBlank)

end AtariDisk.Text
