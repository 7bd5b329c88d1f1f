import ProgramGraph.Cypher.Identifier
import ProgramGraph.Store.Rows

/-!
# ProgramGraph.Cypher.Statement

The statements that a graph database is sent.

* `Value`                — a value in a parameter; a reference to an entity is sent as the id of the entity.
* `Statement`            — the four statements, as data.
* `Statement.template`   — a statement as fixed texts with labels between them, and `Statement.text` its wording.
* `Statement.parameters` — what is sent beside the text, and `Statement.query` the two together.
* `ofNode`, `ofEdge`, `ofIndex` — the statements for rows and labels, unless a label is blank.
-/

namespace ProgramGraph.Cypher

open ProgramGraph.Graph Number Store

/-- A value in a parameter. -/
inductive Value where
  | boolean (value : Bool)
  | integer (value : Int64)
  | float (value : Binary64)
  | string (value : String)
  deriving DecidableEq, Repr

namespace Value

def ofProperty : Property → Value
  | .bool b => .boolean b
  | .int i => .integer i
  | .real x => .float x
  | .text s => .string s
  | .ref id => .string id

end Value

/-- The values of a bag, in the order of their names. -/
def bagValues (b : Bag) : List (String × Value) :=
  b.toList.map fun entry => (entry.1, .ofProperty entry.2)

/-- A parameter of a statement. -/
inductive Parameter where
  | text (value : String)
  | values (entries : List (String × Value))
  deriving DecidableEq, Repr

/-- A statement. -/
inductive Statement where
  /-- Make an index on the ids of build runs. -/
  | runIndex
  /-- Find or make an entity and add to its properties. -/
  | mergeNode (row : NodeRow)
  /-- Find both ends, find or make the relationship if both are there, and tell which are. -/
  | mergeEdge (row : EdgeRow)
  /-- Make an index on the ids of a label. -/
  | labelIndex (label : String)

/-- What a server is sent: a text, and the values of the parameters in it. -/
structure Query where
  text : String
  parameters : List (String × Parameter) := []
  deriving DecidableEq, Repr

/-- A piece of the text of a statement. -/
inductive Piece where
  | fixed (text : String)
  | label (name : String)
  deriving DecidableEq, Repr

namespace Piece

def text : Piece → String
  | .fixed s => s
  | .label name => quoted name

end Piece

namespace Statement

/-- A statement as fixed texts with labels between them. -/
def template : Statement → List Piece
  | .runIndex => [.fixed "CREATE INDEX build_run_id IF NOT EXISTS FOR (b:BuildRun) ON (b.id)"]
  | .mergeNode row =>
    [.fixed "\n            MERGE (n:",
     .label row.label,
     .fixed " \x7bid: $id\x7d)\n            SET n += $props\n            "]
  | .mergeEdge row =>
    [.fixed "\n            OPTIONAL MATCH (a:",
     .label row.sourceLabel,
     .fixed " \x7bid: $source_id\x7d)\n            OPTIONAL MATCH (b:",
     .label row.targetLabel,
     .fixed " \x7bid: $target_id\x7d)\n            FOREACH (_ IN CASE WHEN a IS NOT NULL AND b IS NOT NULL THEN [1] ELSE [] END |\n                MERGE (a)-[r:",
     .label row.label,
     .fixed "]->(b)\n                SET r += $props\n            )\n            RETURN a IS NOT NULL AS source_found, b IS NOT NULL AS target_found\n            "]
  | .labelIndex label =>
    [.fixed "CREATE INDEX IF NOT EXISTS FOR (n:", .label label, .fixed ") ON (n.id)"]

def text (s : Statement) : String :=
  s.template.foldl (fun sofar piece => sofar ++ piece.text) ""

def parameters : Statement → List (String × Parameter)
  | .mergeNode row => [("id", .text row.id), ("props", .values (bagValues row.properties))]
  | .mergeEdge row =>
    [("source_id", .text row.sourceId), ("target_id", .text row.targetId),
     ("props", .values (bagValues row.properties))]
  | _ => []

def query (s : Statement) : Query :=
  { text := s.text, parameters := s.parameters }

def ofNode (row : NodeRow) : Except StoreError Statement := do
  checkLabel row.label
  return .mergeNode row

def ofEdge (row : EdgeRow) : Except StoreError Statement := do
  checkLabel row.sourceLabel
  checkLabel row.targetLabel
  checkLabel row.label
  return .mergeEdge row

/-- The statement for the index of a label. -/
def ofIndex (label : String) : Except StoreError Statement := do
  checkLabel label
  return .labelIndex label

end Statement
end ProgramGraph.Cypher
