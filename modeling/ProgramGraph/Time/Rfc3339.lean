import ProgramGraph.Text.Blank
import ProgramGraph.Time.Instant

/-!
# ProgramGraph.Time.Rfc3339

Instants as texts such as `2024-01-01T00:00:00.500Z`.

* `Instant.text`  — the text of an instant: years outside 0 to 9999 have a sign, and the fraction of the second has as
  few groups of three digits as lose nothing.
* `Instant.read?` — an instant from a text. Reading is more liberal than writing: fields may be short, blank characters
  may stand before fields and separators, any offset below a day is taken, and second 60 is a leap second.
-/

namespace ProgramGraph.Time

/-! ## Writing -/

/-- A number with at least the given number of digits. -/
def padded (width n : Nat) : List Char :=
  let digits := Nat.toDigits 10 n
  List.replicate (width - digits.length) '0' ++ digits

/-- A year: four digits, or a sign and at least four. -/
def yearChars (year : Int) : List Char :=
  if 0 ≤ year && year ≤ 9999 then padded 4 year.toNat
  else (if year < 0 then '-' else '+') :: padded 4 year.natAbs

/-- The fraction of a second: no, three, six or nine digits. -/
def fractionChars (nanos : Nat) : List Char :=
  if nanos = 0 then []
  else if nanos % 1000000 = 0 then '.' :: padded 3 (nanos / 1000000)
  else if nanos % 1000 = 0 then '.' :: padded 6 (nanos / 1000)
  else '.' :: padded 9 nanos

/-- How the offset of universal time is written. -/
inductive OffsetStyle where
  /-- As the letter `Z`. -/
  | letter
  /-- As `+00:00`. -/
  | digits
  deriving DecidableEq, Repr

namespace OffsetStyle

def chars : OffsetStyle → List Char
  | .letter => ['Z']
  | .digits => ['+', '0', '0', ':', '0', '0']

end OffsetStyle

namespace Instant

def text (style : OffsetStyle) (i : Instant) : String :=
  let s := i.secondOfDay
  let second := if i.isLeap then s % 60 + 1 else s % 60
  String.ofList
    (yearChars i.date.year ++ '-' :: padded 2 i.date.month ++ '-' :: padded 2 i.date.day ++ 'T' ::
      padded 2 (s / 3600) ++ ':' :: padded 2 (s / 60 % 60) ++ ':' :: padded 2 second ++
      fractionChars (i.nanos % secondNanos) ++ style.chars)

end Instant

/-! ## Reading -/

namespace Reader

def digitValue (c : Char) : Nat :=
  c.toNat - '0'.toNat

/-- The value of a list of decimal digits. -/
def digitsValue (ds : List Char) : Nat :=
  ds.foldl (fun n c => n * 10 + digitValue c) 0

/-- One to `width` digits. -/
def number? (width : Nat) (cs : List Char) : Option (Nat × List Char) :=
  let digits := (cs.take width).takeWhile Char.isDigit
  if digits.isEmpty then none else some (digitsValue digits, cs.drop digits.length)

/-- The largest number that a field can hold. -/
def fieldLimit : Nat := 1 <<< 31

/-- Digits without a limit, as long as the number fits into a field. -/
def unlimited? (cs : List Char) : Option (Nat × List Char) := do
  let (n, rest) ← number? cs.length cs
  if n < fieldLimit then some (n, rest) else none

/-- A year, after blank characters: at most four digits, or a sign and any number of digits. -/
def year? (cs : List Char) : Option (Int × List Char) :=
  match Text.trimStart cs with
  | '-' :: rest => (unlimited? rest).map fun r => (-(r.1 : Int), r.2)
  | '+' :: rest => (unlimited? rest).map fun r => ((r.1 : Int), r.2)
  | rest => (number? 4 rest).map fun r => ((r.1 : Int), r.2)

/-- A field of at most two digits, after blank characters. -/
def field? (low high : Nat) (cs : List Char) : Option (Nat × List Char) := do
  let (n, rest) ← number? 2 (Text.trimStart cs)
  if low ≤ n && n ≤ high then some (n, rest) else none

/-- A separator, after blank characters. -/
def separator? (c : Char) (cs : List Char) : Option (List Char) :=
  match Text.trimStart cs with
  | d :: rest => if d = c then some rest else none
  | [] => none

/-- The letter or blank between date and time. -/
def timeMark? : List Char → Option (List Char)
  | c :: rest => if c = 'T' || c = 't' || c = ' ' then some rest else none
  | [] => none

/-- The fraction of a second, if there is one; digits beyond the ninth are left out. -/
def fraction? : List Char → Option (Nat × List Char)
  | '.' :: cs =>
    let digits := (cs.take 9).takeWhile Char.isDigit
    if digits.isEmpty then none
    else
      let nanos := digitsValue digits * Nat.pow 10 (9 - digits.length)
      some (nanos, (cs.drop digits.length).dropWhile Char.isDigit)
  | cs => some (0, cs)

def pair? : List Char → Option (Nat × List Char)
  | a :: b :: rest => if a.isDigit && b.isDigit then some (digitsValue [a, b], rest) else none
  | _ => none

/-- Hours and minutes of an offset, with any colons and blank characters between them, in seconds. -/
def offsetValue? (cs : List Char) : Option (Int × List Char) := do
  let (hours, rest) ← pair? cs
  let (minutes, rest) ← pair? (rest.dropWhile fun c => c = ':' || Text.isBlank c)
  if minutes < 60 then some ((hours * 3600 + minutes * 60 : Nat), rest) else none

/-- An offset from universal time in seconds, to the east. -/
def offset? : List Char → Option (Int × List Char)
  | 'Z' :: rest | 'z' :: rest => some (0, rest)
  | '+' :: rest => offsetValue? rest
  | '-' :: rest | '\u2212' :: rest => (offsetValue? rest).map fun r => (-r.1, r.2)
  | a :: b :: c :: rest =>
    if a.toLower = 'u' && b.toLower = 't' && c.toLower = 'c' then some (0, rest) else none
  | _ => none

end Reader

namespace Instant

open Reader in
def read? (s : String) : Option Instant := do
  let (year, cs) ← year? s.toList
  let cs ← separator? '-' cs
  let (month, cs) ← field? 1 12 cs
  let cs ← separator? '-' cs
  let (day, cs) ← field? 1 31 cs
  let cs ← timeMark? cs
  let (hour, cs) ← field? 0 23 cs
  let cs ← separator? ':' cs
  let (minute, cs) ← field? 0 59 cs
  let cs ← separator? ':' cs
  let (second, cs) ← field? 0 60 cs
  let (nanos, cs) ← fraction? cs
  let (offset, cs) ← offset? (Text.trimStart cs)
  if !(Text.trimStart cs).isEmpty then none
  if offset.natAbs ≥ daySeconds.natAbs then none
  let date ← Date.ofYmd? year month day
  let leap := second = 60
  let wholeSecond : Nat := if leap then 59 else second
  let local' := date.toDays * daySeconds + hour * 3600 + minute * 60 + wholeSecond
  ofUnix? (local' - offset) (if leap then secondNanos + nanos else nanos)

end Instant
end ProgramGraph.Time
