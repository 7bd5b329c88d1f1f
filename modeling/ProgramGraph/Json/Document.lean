import ProgramGraph.Number.Shortest

/-!
# ProgramGraph.Json.Document

JSON values to be written, and their texts.

* `Document`         — a value; the members of a record are written in the order given.
* `escape`           — a character inside a string: only the quote, the backslash and the characters below U+0020 are
  escaped.
* `Document.compact` — the text without white space.
* `Document.pretty`  — the text with one item or member a line, indented by two spaces a level; an empty array or
  record stays on its line.
* `Document.holdsReal` — whether a real number occurs in it.
-/

namespace ProgramGraph.Json

open Number

/-- A JSON value to be written. -/
inductive Document where
  | null
  | bool (value : Bool)
  | int (value : Int)
  | real (value : Binary64)
  | text (value : String)
  | list (items : List Document)
  | record (members : List (String × Document))

def lowerHex (n : Nat) : Char :=
  if n < 10 then Char.ofNat (n + 48) else Char.ofNat (n + 87)

def escape (c : Char) : List Char :=
  if c = '"' then ['\\', '"']
  else if c = '\\' then ['\\', '\\']
  else if c = '\x08' then ['\\', 'b']
  else if c = '\t' then ['\\', 't']
  else if c = '\n' then ['\\', 'n']
  else if c = '\x0c' then ['\\', 'f']
  else if c = '\r' then ['\\', 'r']
  else if c.toNat < 0x20 then ['\\', 'u', '0', '0', lowerHex (c.toNat / 16), lowerHex (c.toNat % 16)]
  else [c]

def stringChars (s : String) : List Char :=
  '"' :: s.toList.flatMap escape ++ ['"']

def intChars (n : Int) : List Char :=
  if n < 0 then '-' :: Nat.toDigits 10 n.natAbs else Nat.toDigits 10 n.natAbs

/-- The text of a value that is neither a list nor a record. -/
def scalarChars : Document → List Char
  | .null => ['n', 'u', 'l', 'l']
  | .bool true => ['t', 'r', 'u', 'e']
  | .bool false => ['f', 'a', 'l', 's', 'e']
  | .int n => intChars n
  | .real x => x.text?.getD ['n', 'u', 'l', 'l']
  | .text s => stringChars s
  | .list _ => []
  | .record _ => []

namespace Document

mutual

/-- The characters of the text without white space. -/
def chars : Document → List Char
  | .list items => '[' :: itemChars items ++ [']']
  | .record members => '\x7b' :: memberChars members ++ ['\x7d']
  | d => scalarChars d

def itemChars : List Document → List Char
  | [] => []
  | [item] => chars item
  | item :: rest => chars item ++ ',' :: itemChars rest

def memberChars : List (String × Document) → List Char
  | [] => []
  | [(name, value)] => stringChars name ++ ':' :: chars value
  | (name, value) :: rest => stringChars name ++ ':' :: chars value ++ ',' :: memberChars rest

end

def compact (d : Document) : String :=
  String.ofList d.chars

def newLine (level : Nat) : List Char :=
  '\n' :: List.replicate (2 * level) ' '

mutual

/-- The characters of the indented text, the value standing at the given level. -/
def prettyChars (level : Nat) : Document → List Char
  | .list [] => ['[', ']']
  | .list (item :: rest) => '[' :: prettyItems (level + 1) (item :: rest) ++ newLine level ++ [']']
  | .record [] => ['\x7b', '\x7d']
  | .record (member :: rest) =>
    '\x7b' :: prettyMembers (level + 1) (member :: rest) ++ newLine level ++ ['\x7d']
  | d => scalarChars d

/-- Items, each on a line of its own. -/
def prettyItems (level : Nat) : List Document → List Char
  | [] => []
  | [item] => newLine level ++ prettyChars level item
  | item :: rest => newLine level ++ prettyChars level item ++ ',' :: prettyItems level rest

/-- Members, each on a line of its own. -/
def prettyMembers (level : Nat) : List (String × Document) → List Char
  | [] => []
  | [(name, value)] => newLine level ++ stringChars name ++ ':' :: ' ' :: prettyChars level value
  | (name, value) :: rest =>
    newLine level ++ stringChars name ++ ':' :: ' ' :: prettyChars level value ++ ',' :: prettyMembers level rest

end

/-- The text with one item or member a line. -/
def pretty (d : Document) : String :=
  String.ofList (prettyChars 0 d)

mutual

/-- Whether a real number occurs in a value. -/
def holdsReal : Document → Bool
  | .real _ => true
  | .list items => someItemHoldsReal items
  | .record members => someMemberHoldsReal members
  | _ => false

/-- Whether a real number occurs in one of the items. -/
def someItemHoldsReal : List Document → Bool
  | [] => false
  | item :: rest => holdsReal item || someItemHoldsReal rest

/-- Whether a real number occurs in one of the members. -/
def someMemberHoldsReal : List (String × Document) → Bool
  | [] => false
  | (_, value) :: rest => holdsReal value || someMemberHoldsReal rest

end

/-- The value, or `null`. -/
def orNull {α : Type} (write : α → Document) : Option α → Document
  | some a => write a
  | none => .null

end Document
end ProgramGraph.Json
