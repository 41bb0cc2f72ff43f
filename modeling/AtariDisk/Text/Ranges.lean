/-!
# Classes of characters

A class of characters is given by the ranges of their codes.
-/

namespace AtariDisk.Text

def isIn (ranges : List (Nat × Nat)) (c : Char) : Bool :=
  ranges.any fun range => range.1 ≤ c.toNat && c.toNat ≤ range.2

end AtariDisk.Text
