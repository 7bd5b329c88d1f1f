import ProgramGraph.Json.Fault
import ProgramGraph.Json.Numeral

/-!
# ProgramGraph.Json.Token

The tokens of a JSON text, found by a machine that takes one character at a time.

* `Token`   — brackets, separators, literals; a token that cannot be finished is `broken` or `brokenString` and is
  the last one. It carries two faults, because a value may be *read* or merely *skipped*: a number cut off by the
  end of the text is `truncated` when read and `malformed` when skipped, and a surrogate escape without its partner
  makes a string unreadable but not unskippable.
* `State.step`, `State.finish` — the machine.
* `tokens`  — all tokens of a text.

White space between tokens is the space, the tab, the line feed and the carriage return.
-/

namespace ProgramGraph.Json

/-- One token. A string holds its text, or `none` when an escaped surrogate in it has no partner. -/
inductive Token where
  | leftBrace
  | rightBrace
  | leftBracket
  | rightBracket
  | comma
  | colon
  | null
  | bool (value : Bool)
  | number (value : Numeral)
  | string (text : Option String)
  | brokenString (read skip : Fault)
  | broken (read skip : Fault)
  deriving DecidableEq, Repr

/-- A piece of a string literal: a character, or half of a surrogate pair. -/
inductive Piece where
  | char (value : Char)
  | half (code : Nat)
  deriving DecidableEq, Repr

namespace Piece

/-- Whether a code is the first half of a surrogate pair. -/
def isHigh (code : Nat) : Bool :=
  0xd800 ≤ code && code ≤ 0xdbff

/-- Whether a code is the second half of a surrogate pair. -/
def isLow (code : Nat) : Bool :=
  0xdc00 ≤ code && code ≤ 0xdfff

/-- What the escape of a four-digit code stands for. -/
def ofCode (code : Nat) : Piece :=
  if isHigh code || isLow code then .half code else .char (Char.ofNat code)

/-- The character of a surrogate pair. -/
def ofPair (high low : Nat) : Char :=
  Char.ofNat ((high - 0xd800) * 0x400 + (low - 0xdc00) + 0x10000)

/-- The text of pieces given last first, in front of `done`; `none` when a half has no partner. -/
def assemble : List Piece → List Char → Option (List Char)
  | [], done => some done
  | .char c :: rest, done => assemble rest (c :: done)
  | .half low :: .half high :: rest, done =>
    if isHigh high && isLow low then assemble rest (ofPair high low :: done) else none
  | .half _ :: _, _ => none

/-- Pieces, last first, without a first half that still waits for its partner. -/
def dropPending : List Piece → List Piece
  | .half code :: rest => if isHigh code then rest else .half code :: rest
  | pieces => pieces

/-- The text of a finished literal, its pieces given last first. -/
def text? (pieces : List Piece) : Option String :=
  (assemble pieces []).map String.ofList

/-- The fault of reading a literal that fails with `fault` after the given pieces: a half without a partner
comes first. -/
def readFault (pieces : List Piece) (fault : Fault) : Fault :=
  if (assemble (dropPending pieces) []).isSome then fault else .malformed

end Piece

def digit? (c : Char) : Option Nat :=
  if '0' ≤ c && c ≤ '9' then some (c.toNat - 48) else none

/-- The value of a hexadecimal digit of either case. -/
def hexDigit? (c : Char) : Option Nat :=
  if '0' ≤ c && c ≤ '9' then some (c.toNat - 48)
  else if 'a' ≤ c && c ≤ 'f' then some (c.toNat - 87)
  else if 'A' ≤ c && c ≤ 'F' then some (c.toNat - 55)
  else none

def isSpace (c : Char) : Bool :=
  c = ' ' || c = '\t' || c = '\n' || c = '\r'

/-- The character that a one-letter escape stands for. -/
def escaped? (c : Char) : Option Char :=
  if c = '"' || c = '\\' || c = '/' then some c
  else if c = 'b' then some '\x08'
  else if c = 'f' then some '\x0c'
  else if c = 'n' then some '\n'
  else if c = 'r' then some '\r'
  else if c = 't' then some '\t'
  else none

/-- A significand under way: sign, digits so far, and how many of them stand behind the point. -/
structure Significand where
  negative : Bool
  digits : Nat
  places : Nat := 0
  deriving DecidableEq, Repr

namespace Significand

def push (s : Significand) (d : Nat) : Significand :=
  { s with digits := s.digits * 10 + d }

/-- One more digit behind the point. -/
def pushPlace (s : Significand) (d : Nat) : Significand :=
  { s with digits := s.digits * 10 + d, places := s.places + 1 }

/-- The literal without a point and without an exponent. -/
def integer (s : Significand) : Numeral :=
  ⟨s.negative, s.digits, 0, true⟩

/-- The literal with the given power of ten. -/
def scaled (s : Significand) (power : Int) : Numeral :=
  ⟨s.negative, s.digits, power - s.places, false⟩

end Significand

/-- Where the machine stands between characters. Pieces of a string are kept last first. -/
inductive State where
  /-- Between tokens. -/
  | between
  /-- Inside `null`, `true` or `false`, with these letters still to come. -/
  | word (letters : List Char) (token : Token)
  /-- After a minus sign. -/
  | minus
  /-- After a leading zero. -/
  | zero (s : Significand)
  /-- Inside the digits before the point. -/
  | whole (s : Significand)
  /-- After the point. -/
  | point (s : Significand)
  /-- Inside the digits behind the point. -/
  | fraction (s : Significand)
  /-- After the exponent mark. -/
  | mark (s : Significand)
  /-- After the sign of the exponent. -/
  | sign (s : Significand) (down : Bool)
  /-- Inside the digits of the exponent. -/
  | exponent (s : Significand) (down : Bool) (power : Nat)
  /-- Inside a string. -/
  | text (pieces : List Piece)
  /-- After a backslash. -/
  | escape (pieces : List Piece)
  /-- Inside the four digits of a code: their value and number so far. -/
  | code (pieces : List Piece) (value count : Nat)
  /-- Inside a code with a character that is no digit: the bytes seen since the `u`. -/
  | badCode (pieces : List Piece) (bytes : Nat)
  /-- After a broken token. -/
  | stuck

namespace State

/-- Nothing more can be read: the token under way is broken in both ways alike. -/
def fail : State × List Token :=
  (.stuck, [.broken .malformed .malformed])

def failString (pieces : List Piece) (fault : Fault) : State × List Token :=
  (.stuck, [.brokenString (Piece.readFault pieces fault) fault])

def start (c : Char) : State × List Token :=
  if isSpace c then (.between, [])
  else if c = '\x7b' then (.between, [.leftBrace])
  else if c = '\x7d' then (.between, [.rightBrace])
  else if c = '[' then (.between, [.leftBracket])
  else if c = ']' then (.between, [.rightBracket])
  else if c = ',' then (.between, [.comma])
  else if c = ':' then (.between, [.colon])
  else if c = '"' then (.text [], [])
  else if c = 'n' then (.word ['u', 'l', 'l'] .null, [])
  else if c = 't' then (.word ['r', 'u', 'e'] (.bool true), [])
  else if c = 'f' then (.word ['a', 'l', 's', 'e'] (.bool false), [])
  else if c = '-' then (.minus, [])
  else
    match digit? c with
    | some 0 => (.zero ⟨false, 0, 0⟩, [])
    | some d => (.whole ⟨false, d, 0⟩, [])
    | none => fail

/-- The number under way is complete, and the next character starts something new. -/
def finishNumber (n : Numeral) (c : Char) : State × List Token :=
  let (next, found) := start c
  (next, .number n :: found)

/-- The power of ten of an exponent. -/
def signedPower (down : Bool) (power : Nat) : Int :=
  if down then -(power : Int) else power

/-- What follows the digits of a number, `n` being the number that ends here. -/
def afterDigits (s : Significand) (n : Numeral) (pointAllowed : Bool) (c : Char) : State × List Token :=
  if pointAllowed && c = '.' then (.point s, [])
  else if c = 'e' || c = 'E' then (.mark s, [])
  else finishNumber n c

/-- Take one character: the next state, and the tokens that are complete now. -/
def step : State → Char → State × List Token
  | .between, c => start c
  | .word [] token, c =>
    let (next, found) := start c
    (next, token :: found)
  | .word [l] token, c => if c = l then (.between, [token]) else fail
  | .word (l :: letters) token, c => if c = l then (.word letters token, []) else fail
  | .minus, c =>
    match digit? c with
    | some 0 => (.zero ⟨true, 0, 0⟩, [])
    | some d => (.whole ⟨true, d, 0⟩, [])
    | none => fail
  | .zero s, c =>
    match digit? c with
    | some _ => fail
    | none => afterDigits s s.integer true c
  | .whole s, c =>
    match digit? c with
    | some d => (.whole (s.push d), [])
    | none => afterDigits s s.integer true c
  | .point s, c =>
    match digit? c with
    | some d => (.fraction (s.pushPlace d), [])
    | none => fail
  | .fraction s, c =>
    match digit? c with
    | some d => (.fraction (s.pushPlace d), [])
    | none => afterDigits s (s.scaled 0) false c
  | .mark s, c =>
    if c = '+' then (.sign s false, [])
    else if c = '-' then (.sign s true, [])
    else
      match digit? c with
      | some d => (.exponent s false d, [])
      | none => fail
  | .sign s down, c =>
    match digit? c with
    | some d => (.exponent s down d, [])
    | none => fail
  | .exponent s down power, c =>
    match digit? c with
    | some d => (.exponent s down (power * 10 + d), [])
    | none => finishNumber (s.scaled (signedPower down power)) c
  | .text pieces, c =>
    if c = '"' then (.between, [.string (Piece.text? pieces)])
    else if c = '\\' then (.escape pieces, [])
    else if c.toNat < 0x20 then failString pieces .malformed
    else (.text (.char c :: pieces), [])
  | .escape pieces, c =>
    if c = 'u' then (.code pieces 0 0, [])
    else
      match escaped? c with
      | some e => (.text (.char e :: pieces), [])
      | none => failString pieces .malformed
  | .code pieces value count, c =>
    match hexDigit? c with
    | some d =>
      if count = 3 then (.text (Piece.ofCode (value * 16 + d) :: pieces), [])
      else (.code pieces (value * 16 + d) (count + 1), [])
    | none =>
      if count + c.utf8Size < 4 then (.badCode pieces (count + c.utf8Size), [])
      else failString pieces .malformed
  | .badCode pieces bytes, c =>
    if bytes + c.utf8Size < 4 then (.badCode pieces (bytes + c.utf8Size), [])
    else failString pieces .malformed
  | .stuck, _ => (.stuck, [])

/-- The tokens that the end of the text completes. -/
def finish : State → List Token
  | .between => []
  | .word [] token => [token]
  | .word _ _ => [.broken .truncated .truncated]
  | .minus => [.broken .truncated .malformed]
  | .zero s => [.number s.integer]
  | .whole s => [.number s.integer]
  | .point _ => [.broken .truncated .malformed]
  | .fraction s => [.number (s.scaled 0)]
  | .mark _ => [.broken .truncated .malformed]
  | .sign _ _ => [.broken .truncated .malformed]
  | .exponent s down power => [.number (s.scaled (signedPower down power))]
  | .text pieces => [.brokenString (Piece.readFault pieces .truncated) .truncated]
  | .escape pieces => [.brokenString (Piece.readFault pieces .truncated) .truncated]
  | .code pieces _ _ => [.brokenString (Piece.readFault pieces .truncated) .truncated]
  | .badCode pieces _ => [.brokenString (Piece.readFault pieces .truncated) .truncated]
  | .stuck => []

end State

/-- The tokens of the rest of a text, the machine being in the given state and the tokens found so far being listed
last first. -/
def tokensFrom : State → List Token → List Char → List Token
  | s, found, [] => (s.finish.reverse ++ found).reverse
  | s, found, c :: rest =>
    let (next, new) := s.step c
    tokensFrom next (new.reverse ++ found) rest

def tokens (text : List Char) : List Token :=
  tokensFrom .between [] text

end ProgramGraph.Json
