/-!
# ProgramGraph.Number.Binary64

Binary floating-point numbers of 64 bits, held as their bit pattern, so that every statement about them is a
statement about words.

* `Binary64.equal`      — numeric equality: a NaN differs from everything, the two zeros are equal.
* `roundDiv`            — a quotient rounded to the nearest whole number, a half to the even neighbour.
* `Binary64.ofDecimal?` — the number nearest to a decimal `± digits · 10 ^ exponent`, ties to the even
  significand, and `none` when that lies beyond the largest finite number.
* `Binary64.decode`     — the significand and the power of two of a finite number.
-/

namespace ProgramGraph.Number

/-- A binary floating-point number of 64 bits: one sign bit, 11 exponent bits, 52 fraction bits. -/
structure Binary64 where
  bits : UInt64
  deriving DecidableEq, Repr

/-- The quotient `n / d` rounded to the nearest whole number; a half goes to the even neighbour. -/
def roundDiv (n d : Nat) : Nat :=
  let k := n / d
  let r := n % d
  if 2 * r > d || (2 * r == d && k % 2 == 1) then k + 1 else k

namespace Binary64

def fractionWidth : Nat :=
  52

/-- The bit in front of the fraction. -/
def leadingBit : Nat :=
  1 <<< fractionWidth

def signBit : Nat :=
  1 <<< 63

def magnitude (x : Binary64) : Nat :=
  x.bits.toNat % signBit

def isNegative (x : Binary64) : Bool :=
  signBit ≤ x.bits.toNat

/-- Infinity has this bit pattern; every larger one is a NaN. -/
def infinity : Nat :=
  0x7ff <<< fractionWidth

def isNaN (x : Binary64) : Bool :=
  infinity < x.magnitude

/-- Numeric equality: false on NaN, true between the two zeros. -/
def equal (x y : Binary64) : Bool :=
  !x.isNaN && !y.isNaN && (x.bits == y.bits || (x.magnitude == 0 && y.magnitude == 0))

/-- The pattern with the given sign and magnitude bits. -/
def ofMagnitude (negative : Bool) (m : Nat) : Binary64 :=
  ⟨UInt64.ofNat (if negative then signBit + m else m)⟩

/-- Significand `m` and power `q` of a finite number: its absolute value is `m · 2 ^ q`. -/
def decode (x : Binary64) : Nat × Int :=
  let e : Nat := x.magnitude / leadingBit
  let f : Nat := x.magnitude % leadingBit
  if e = 0 then (f, -1074) else (leadingBit + f, Int.ofNat e - 1075)

/-- The magnitude bits of the number nearest to `num / den`, which is positive; `none` beyond the largest finite
number. The power of two `q` is the one for which the quotient in units of `2 ^ q` has 53 binary digits, or the least
possible one, and a carry out of the significand moves into the exponent by itself. -/
def nearest? (num den : Nat) : Option Nat :=
  let low : Int := max (-1074) ((num.log2 : Int) - den.log2 - 53)
  let inUnits (q : Int) : Nat × Nat :=
    if 0 ≤ q then (num, den <<< q.toNat) else (num <<< (-q).toNat, den)
  let atLow := inUnits low
  let q := if 2 * leadingBit ≤ atLow.1 / atLow.2 then low + 1 else low
  let units := inUnits q
  let m := roundDiv units.1 units.2
  let bits := if m < leadingBit then m else (q + 1075).toNat * leadingBit + (m - leadingBit)
  if bits < infinity then some bits else none

/-- The number nearest to `± digits · 10 ^ exponent`. Decimals far beyond either end of the range are settled by
their number of digits alone. -/
def ofDecimal? (negative : Bool) (digits : Nat) (exponent : Int) : Option Binary64 :=
  let places : Int := exponent + (Nat.toDigits 10 digits).length
  if digits = 0 || places < -330 then some (ofMagnitude negative 0)
  else if 330 < places then none
  else
    let num := digits * Nat.pow 10 exponent.toNat
    let den := Nat.pow 10 (-exponent).toNat
    (nearest? num den).map (ofMagnitude negative)

end Binary64
end ProgramGraph.Number
