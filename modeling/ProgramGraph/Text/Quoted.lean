import ProgramGraph.Text.Blank

/-!
# ProgramGraph.Text.Quoted

Texts quoted for messages: a text between double quotes in which nothing is invisible.

* `escapeChar` — the plain space and every visible character stand for themselves; the quote and the
  backslash are preceded by a backslash; tab, line feed, carriage return and NUL have short forms; every
  other control or blank character is its code point in hexadecimal between braces.
* `quoted`     — a whole text.
-/

namespace ProgramGraph.Text

/-- The lower-case hexadecimal digits of a number, without leading zeros. -/
def hexDigits (n : Nat) : List Char :=
  Nat.toDigits 16 n

/-- Whether a character belongs to the control characters C0, DEL or C1. -/
def isControl (c : Char) : Bool :=
  c.toNat < 0x20 || (0x7f ≤ c.toNat && c.toNat ≤ 0x9f)

/-- One character as it stands in a quoted text. -/
def escapeChar (c : Char) : List Char :=
  if c = '"' then ['\\', '"']
  else if c = '\\' then ['\\', '\\']
  else if c = '\t' then ['\\', 't']
  else if c = '\n' then ['\\', 'n']
  else if c = '\r' then ['\\', 'r']
  else if c = '\x00' then ['\\', '0']
  else if c ≠ ' ' && (isControl c || isBlank c) then
    ['\\', 'u', '\x7b'] ++ hexDigits c.toNat ++ ['\x7d']
  else [c]

/-- A text between double quotes, every character escaped. -/
def quoted (s : String) : String :=
  String.ofList ('"' :: s.toList.flatMap escapeChar ++ ['"'])

end ProgramGraph.Text
