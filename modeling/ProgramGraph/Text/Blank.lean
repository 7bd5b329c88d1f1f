/-!
# ProgramGraph.Text.Blank

Blank characters: the code points with the Unicode property `White_Space`.

* `blankRanges` — the property as closed ranges of code points, in increasing order.
* `isBlank`     — membership in the table.
* `trimStart`, `trimEnd` — a text without its leading or trailing blank characters.
-/

namespace ProgramGraph.Text

/-- The code points with the property `White_Space`, as closed ranges in increasing order. -/
def blankRanges : List (Nat × Nat) :=
  [(0x09, 0x0d), (0x20, 0x20), (0x85, 0x85), (0xa0, 0xa0), (0x1680, 0x1680), (0x2000, 0x200a),
   (0x2028, 0x2029), (0x202f, 0x202f), (0x205f, 0x205f), (0x3000, 0x3000)]

def isBlank (c : Char) : Bool :=
  blankRanges.any fun r => r.1 ≤ c.toNat && c.toNat ≤ r.2

/-- Whether a text holds blank characters only; the empty text does. -/
def isAllBlank (s : String) : Bool :=
  s.toList.all isBlank

/-- A text without its leading blank characters. -/
def trimStart (cs : List Char) : List Char :=
  cs.dropWhile isBlank

def trimEnd (cs : List Char) : List Char :=
  (cs.reverse.dropWhile isBlank).reverse

end ProgramGraph.Text
