import ProgramGraph.Number.Binary64

/-!
# ProgramGraph.Json.Numeral

Number literals as they are written: a sign, digits and a power of ten, and whether the literal is a plain integer.

* `Numeral.inRange` — some binary floating-point number is near; no other literal can be read.
* `Numeral.natural?`, `Numeral.signed?` — the value of an integer literal; `-0` has none, it is a real number.
-/

namespace ProgramGraph.Json

open Number

/-- The literal `± digits · 10 ^ exponent`. -/
structure Numeral where
  negative : Bool
  digits : Nat
  exponent : Int
  /-- Written with neither a point nor an exponent. -/
  integral : Bool
  deriving DecidableEq, Repr

namespace Numeral

/-- The nearest binary floating-point number, if the literal is not beyond all of them. -/
def toBinary64? (n : Numeral) : Option Binary64 :=
  Binary64.ofDecimal? n.negative n.digits n.exponent

/-- Whether the literal can be read at all. -/
def inRange (n : Numeral) : Bool :=
  n.toBinary64?.isSome

/-- The value of an integer literal without a sign. -/
def natural? (n : Numeral) : Option Nat :=
  if n.integral && !n.negative then some n.digits else none

/-- How many integers of 64 bits with a sign are negative. -/
def signedLimit : Nat :=
  1 <<< 63

/-- The value of an integer literal that fits into 64 bits with a sign. -/
def signed? (n : Numeral) : Option Int64 :=
  if !n.integral then none
  else if !n.negative then
    if n.digits < signedLimit then some (Int64.ofNat n.digits) else none
  else if 0 < n.digits && n.digits ≤ signedLimit then some (Int64.ofInt (-(n.digits : Int)))
  else none

end Numeral
end ProgramGraph.Json
