import ProgramGraph.Json.Token

/-!
# ProgramGraph.Json.Outline

The tree of a JSON text, as far as the text is JSON.

A text that breaks off still has a tree: the part up to the first place where it stops being JSON. Whoever walks the
tree from left to right meets the first problem of the text where it stands, be it a value of the wrong shape or the
place where the text breaks off.

* `Outline` — a value; an array or an object says how it ends, and `broken` stands for a value that cannot be
  finished.
* `Ending`  — how a list of items or members ends.
* `Text`    — the tree of a whole text and whether anything follows it.
* `Text.parse` — the tree of a text, built with a stack of open arrays and objects: nesting has no limit here.
-/

namespace ProgramGraph.Json

/-- The faults of a place where a text breaks off, by what is being done there. -/
structure Break where
  /-- Reading a value. -/
  read : Fault
  /-- Skipping a value. -/
  skip : Fault
  /-- Reading a value that is chosen by its name, or that name. -/
  choice : Fault
  deriving DecidableEq, Repr

/-- The same fault whatever is being done. -/
def Break.uniform (fault : Fault) : Break :=
  ⟨fault, fault, fault⟩

/-- How an array or an object ends. -/
inductive Ending where
  /-- With its closing bracket. -/
  | closed
  /-- The text ends where a separator or the closing bracket should stand. -/
  | truncated
  /-- The text ends right after a comma. -/
  | dangling
  /-- Something else stands there. -/
  | stray (place : Break)
  deriving DecidableEq, Repr

/-- A value of a JSON text. The names of an object are `none` when an escaped surrogate in them has no partner. -/
inductive Outline where
  | null
  | bool (value : Bool)
  | number (value : Numeral)
  | string (text : Option String)
  | array (items : List Outline) (ending : Ending)
  | object (members : List (Option String × Outline)) (ending : Ending)
  | broken (place : Break)

/-- An array or object that is still open; what is complete in it, last first. -/
inductive Frame where
  | array (items : List Outline)
  | object (members : List (Option String × Outline)) (name : Option String)

/-- What is expected next. -/
inductive Expectation where
  /-- A value. -/
  | value
  /-- The first item of an array, or its end. -/
  | firstItem
  /-- An item, after a comma. -/
  | nextItem
  /-- The first name of an object, or its end. -/
  | firstName
  /-- A name, after a comma, in an object with these members so far. -/
  | nextName (members : List (Option String × Outline))
  /-- The colon after a name. -/
  | colon (members : List (Option String × Outline)) (name : Option String)
  /-- A separator or a closing bracket after this value, or nothing. -/
  | after (value : Outline)

/-- The tree of a text. -/
structure Text where
  value : Outline
  /-- Something other than white space follows the value. -/
  trailing : Bool

namespace Text

/-- Close the open frames around a value at which the text breaks off. -/
def cut : List Frame → Outline → Outline
  | [], v => v
  | .array items :: rest, v => cut rest (.array (v :: items).reverse .truncated)
  | .object members name :: rest, v => cut rest (.object ((name, v) :: members).reverse .truncated)

/-- The fault of taking a token for the beginning of a text value. -/
def asText : Token → Fault
  | .null | .bool _ | .leftBracket | .leftBrace => .mismatch
  | .number n => if n.inRange then .mismatch else .malformed
  | .broken read _ => read
  | _ => .malformed

/-- The ending of an array or object at a token that is neither a separator nor the closing bracket. -/
def strayItem : Ending :=
  .stray (.uniform .malformed)

/-- The ending of an object at a token that is no name. -/
def strayName : Token → Ending
  | .brokenString read skip => .stray ⟨read, skip, read⟩
  | t => .stray ⟨.malformed, .malformed, asText t⟩

/-- One token: what is expected next inside which frames, or the tree of a text that breaks off here. -/
inductive Progress where
  | go (expected : Expectation) (stack : List Frame)
  | stop (text : Text)

/-- The text breaks off inside the given frames. -/
def breakOff (stack : List Frame) (v : Outline) : Progress :=
  .stop ⟨cut stack v, false⟩

/-- A token where a value must start. -/
def startValue (stack : List Frame) : Token → Progress
  | .null => .go (.after .null) stack
  | .bool b => .go (.after (.bool b)) stack
  | .number n => .go (.after (.number n)) stack
  | .string s => .go (.after (.string s)) stack
  | .leftBracket => .go .firstItem stack
  | .leftBrace => .go .firstName stack
  | .broken read skip => breakOff stack (.broken ⟨read, skip, .malformed⟩)
  | .brokenString read skip => breakOff stack (.broken ⟨read, skip, read⟩)
  | _ => breakOff stack (.broken (.uniform .malformed))

def advance : Expectation → List Frame → Token → Progress
  | .value, stack, t => startValue stack t
  | .firstItem, stack, .rightBracket => .go (.after (.array [] .closed)) stack
  | .firstItem, stack, t => startValue (.array [] :: stack) t
  | .nextItem, .array items :: stack, .rightBracket => breakOff stack (.array items.reverse strayItem)
  | .nextItem, stack, t => startValue stack t
  | .firstName, stack, .rightBrace => .go (.after (.object [] .closed)) stack
  | .firstName, stack, .string name => .go (.colon [] name) stack
  | .firstName, stack, t => breakOff stack (.object [] (strayName t))
  | .nextName members, stack, .string name => .go (.colon members name) stack
  | .nextName members, stack, t => breakOff stack (.object members.reverse (strayName t))
  | .colon members name, stack, .colon => .go .value (.object members name :: stack)
  | .colon members name, stack, _ =>
    breakOff (.object members name :: stack) (.broken (.uniform .malformed))
  | .after v, [], _ => .stop ⟨v, true⟩
  | .after v, .array items :: stack, .comma => .go .nextItem (.array (v :: items) :: stack)
  | .after v, .array items :: stack, .rightBracket =>
    .go (.after (.array (v :: items).reverse .closed)) stack
  | .after v, .array items :: stack, _ => breakOff stack (.array (v :: items).reverse strayItem)
  | .after v, .object members name :: stack, .comma => .go (.nextName ((name, v) :: members)) stack
  | .after v, .object members name :: stack, .rightBrace =>
    .go (.after (.object ((name, v) :: members).reverse .closed)) stack
  | .after v, .object members name :: stack, _ =>
    breakOff stack (.object ((name, v) :: members).reverse strayItem)

def atEnd : Expectation → List Frame → Text
  | .after v, [] => ⟨v, false⟩
  | .after v, .array items :: stack => ⟨cut stack (.array (v :: items).reverse .truncated), false⟩
  | .after v, .object members name :: stack =>
    ⟨cut stack (.object ((name, v) :: members).reverse .truncated), false⟩
  | .firstItem, stack => ⟨cut stack (.array [] .truncated), false⟩
  | .nextItem, .array items :: stack => ⟨cut stack (.array items.reverse .dangling), false⟩
  | .firstName, stack => ⟨cut stack (.object [] .truncated), false⟩
  | .nextName members, stack => ⟨cut stack (.object members.reverse .dangling), false⟩
  | .colon members name, stack =>
    ⟨cut (.object members name :: stack) (.broken (.uniform .truncated)), false⟩
  | _, stack => ⟨cut stack (.broken (.uniform .truncated)), false⟩

def build : Expectation → List Frame → List Token → Text
  | expected, stack, [] => atEnd expected stack
  | expected, stack, t :: rest =>
    match advance expected stack t with
    | .go expected stack => build expected stack rest
    | .stop text => text

def parse (text : String) : Text :=
  build .value [] (tokens text.toList)

end Text
end ProgramGraph.Json
