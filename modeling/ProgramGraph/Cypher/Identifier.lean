import ProgramGraph.Store.Error
import ProgramGraph.Text.Blank

/-!
# ProgramGraph.Cypher.Identifier

Labels inside Cypher statements. A label cannot be a parameter of a statement, so it is written between backticks, and
a backtick inside it is written twice.

* `quotedChars` — a label between backticks.
* `quoteLabel`  — the same, for labels that are not blank.
-/

namespace ProgramGraph.Cypher

open Store

def backtick : Char := '\x60'

def escapeTick (c : Char) : List Char :=
  if c = backtick then [backtick, backtick] else [c]

def quotedChars (label : List Char) : List Char :=
  backtick :: label.flatMap escapeTick ++ [backtick]

/-- A label as it stands in a statement. -/
def quoted (label : String) : String :=
  String.ofList (quotedChars label.toList)

/-- A label must hold something other than blank characters. -/
def checkLabel (label : String) : Except StoreError Unit :=
  if Text.isAllBlank label then .error (.invalidLabel label) else .ok ()

/-- A label as it stands in a statement, unless it is blank. -/
def quoteLabel (label : String) : Except StoreError String := do
  checkLabel label
  return quoted label

end ProgramGraph.Cypher
