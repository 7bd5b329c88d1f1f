import ProgramGraph.Number.Binary64

/-!
# ProgramGraph.Number.Shortest

The shortest decimal text of a binary floating-point number.

* `Binary64.shortest` — the fewest digits that read back as the number, and of those the nearest.
* `Binary64.text`     — those digits laid out: positional up to 16 digits before the point and down to four zeros
  after it, with a power of ten otherwise.
-/

namespace ProgramGraph.Number.Binary64

/-- `m · 2 ^ q` in quarters of `2 ^ q`, with the two midpoints to its neighbours. -/
structure Surroundings where
  below : Nat
  value : Nat
  above : Nat
  /-- Whether the midpoints themselves round to the value. -/
  closed : Bool

/-- The surroundings of significand `m` at power `q`: the neighbour below a power of two is nearer. -/
def surroundings (m : Nat) (q : Int) : Surroundings :=
  { below := if m = leadingBit && -1074 < q then 4 * m - 1 else 4 * m - 2
    value := 4 * m
    above := 4 * m + 2
    closed := m % 2 = 0 }

/-- Compare `a · 2 ^ q / 4` with `d · 10 ^ k` in whole numbers. -/
def compareDecimal (a : Nat) (q : Int) (d : Nat) (k : Int) : Ordering :=
  compare ((a <<< q.toNat) * Nat.pow 10 (-k).toNat) ((4 * d * Nat.pow 10 k.toNat) <<< (-q).toNat)

/-- Whether `d · 10 ^ k` lies between the midpoints. -/
def Surroundings.holds (s : Surroundings) (q : Int) (d : Nat) (k : Int) : Bool :=
  let lo := compareDecimal s.below q d k
  let hi := compareDecimal s.above q d k
  if s.closed then lo != .gt && hi != .lt else lo == .lt && hi == .gt

/-- The power of ten `p` with `10 ^ (p - 1) ≤ m · 2 ^ q < 10 ^ p`. -/
def decimalPlaces (m : Nat) (q : Int) : Int :=
  let whole := (m <<< q.toNat) >>> (-q).toNat
  if 0 < whole then (Nat.toDigits 10 whole).length
  else
    let missing := (List.range 330).find? fun j => 1 <<< (-q).toNat ≤ m * Nat.pow 10 j
    1 - (missing.getD 330 : Int)

/-- Digits `d` and power `k` of the decimal `d · 10 ^ k` with the fewest digits that reads back as `m · 2 ^ q`; of two
such decimals the nearer one. -/
def shortestDigits (m : Nat) (q : Int) : Nat × Int :=
  let s := surroundings m q
  let p := decimalPlaces m q
  let candidate (n : Nat) : Option (Nat × Int) :=
    let k := p - n
    let num := (m <<< q.toNat) * Nat.pow 10 (-k).toNat
    let den := Nat.pow 10 k.toNat <<< (-q).toNat
    let nearer := roundDiv num den
    let floor := num / den
    let other := if nearer = floor then floor + 1 else floor
    if s.holds q nearer k then some (nearer, k)
    else if s.holds q other k then some (other, k)
    else none
  ((List.range 17).findSome? fun i => candidate (i + 1)).getD (m, q)

/-- Digits without trailing zeros, the power of ten raised to match. -/
def dropZeros : Nat → Nat → Int → Nat × Int
  | 0, d, k => (d, k)
  | fuel + 1, d, k => if d ≠ 0 && d % 10 = 0 then dropZeros fuel (d / 10) (k + 1) else (d, k)

/-- The digits `d` of `d · 10 ^ k` laid out with a point or a power of ten. -/
def layout (d : Nat) (k : Int) : List Char :=
  let ds := Nat.toDigits 10 d
  let point : Int := ds.length + k
  if 0 ≤ k && point ≤ 16 then ds ++ List.replicate k.toNat '0' ++ ['.', '0']
  else if 0 < point && point ≤ 16 then ds.take point.toNat ++ ['.'] ++ ds.drop point.toNat
  else if -5 < point && point ≤ 0 then ['0', '.'] ++ List.replicate (-point).toNat '0' ++ ds
  else
    let tail := if ds.length = 1 then [] else '.' :: ds.drop 1
    let power := point - 1
    let sign := if power < 0 then ['-'] else []
    ds.take 1 ++ tail ++ ['e'] ++ sign ++ Nat.toDigits 10 power.natAbs

/-- The shortest text of a number; `none` for an infinity or a NaN. -/
def text? (x : Binary64) : Option (List Char) :=
  if infinity ≤ x.magnitude then none
  else
    let sign := if x.isNegative then ['-'] else []
    if x.magnitude = 0 then some (sign ++ ['0', '.', '0'])
    else
      let (m, q) := x.decode
      let (d, k) := shortestDigits m q
      let (d, k) := dropZeros 17 d k
      some (sign ++ layout d k)

end ProgramGraph.Number.Binary64
