import ProgramGraph.Cypher.Client
import ProgramGraph.Proofs.Cypher.Syntax

/-!
# ProgramGraph.Proofs.Cypher.Meaning

An ideal graph database: a property graph that reads the text of a query, does what it says with the parameters of the query,
and says truthfully what it found.

* `Database`        — nodes in order of creation, each with a label and with values; edges between places of nodes.
* `matchOrMake`     — the clause `MERGE`, on the nodes as on the edges.
* `Row`, `Work`     — what the variables of a directive stand for; work on a database, which is done for row after row.
* `Update.run`, `Clause.run`, `Directive.run` — the meaning of the language.
* `Database.server` — the database as a server: it sees nothing but texts and parameters.
-/

namespace ProgramGraph.Cypher

/-- The values of a stored node or edge under their names. -/
abbrev Values := Std.ExtTreeMap String Value compare

/-- `SET +=`. -/
def Values.add (v : Values) (entries : List (String × Value)) : Values :=
  v.insertMany entries

structure StoredNode where
  label : String
  values : Values

namespace StoredNode

/-- Whether a node matches the pattern of a label and a property. -/
def fits (label property value : String) (n : StoredNode) : Bool :=
  n.label = label && n.values[property]? = some (.string value)

/-- The node that a pattern makes. -/
def make (label property value : String) : StoredNode :=
  ⟨label, (∅ : Values).insert property (.string value)⟩

end StoredNode

/-- A stored edge, between the places of its ends. -/
structure StoredEdge where
  source : Nat
  target : Nat
  label : String
  values : Values

def StoredEdge.fits (source target : Nat) (label : String) (e : StoredEdge) : Bool :=
  e.source = source && e.target = target && e.label = label

structure Database where
  nodes : List StoredNode := []
  edges : List StoredEdge := []

section

variable {α : Type}

/-- The places of whatever passes a test. -/
def placesOf (test : α → Bool) (l : List α) : List Nat :=
  (List.range l.length).filter fun i => l[i]?.any test

/-- `MERGE`: the places of whatever passes a test, or of something fresh at the end if nothing does. -/
def matchOrMake (test : α → Bool) (fresh : α) (l : List α) : List Nat × List α :=
  if l.any test then (placesOf test l, l) else ([l.length], l ++ [fresh])

end

/-! ## Rows -/

/-- What a variable stands for. -/
inductive Binding where
  | null
  | node (place : Nat)
  | edge (place : Nat)
  | item (text : String)
  deriving DecidableEq

/-- The variables there are, with what they stand for. -/
abbrev Row := List (String × Binding)

namespace Row

/-- A variable is declared once. -/
def checkNew (row : Row) (name : String) : Option Unit :=
  if (row.lookup name).isSome then none else some ()

/-- Whether a variable is not null. -/
def present (row : Row) (name : String) : Option Bool :=
  (row.lookup name).map (· ≠ .null)

def allPresent (row : Row) (names : List String) : Option Bool :=
  (names.mapM row.present).map fun there => there.all id

def node (row : Row) (name : String) : Option Nat :=
  match row.lookup name with
  | some (.node place) => some place
  | _ => none

end Row

/-! ## Work -/

/-- Work on a database; it can fail. -/
abbrev Work := StateT Database Option

/-- Work for each row, one row after the other; it gives the rows for what comes next. -/
def onRows (work : Row → Work (List Row)) : List Row → Work (List Row)
  | [] => return []
  | row :: rows => do
    let first ← work row
    let others ← onRows work rows
    return first ++ others

/-- Work in turn, the next on the rows of the one before. -/
def inTurn : List (Row → Work (List Row)) → List Row → Work (List Row)
  | [], rows => return rows
  | work :: later, rows => do
    let next ← onRows work rows
    inTurn later next

/-- Work for each item, one item after the other; its rows are left behind. -/
def onItems (work : String → Work (List Row)) : List String → Work Unit
  | [] => return ()
  | item :: items => do
    let _ ← work item
    onItems work items

namespace Query

/-- A parameter that is a text. -/
def textOf (q : Query) (parameter : String) : Option String :=
  match q.parameters.lookup parameter with
  | some (.text value) => some value
  | _ => none

/-- A parameter that is a map. -/
def valuesOf (q : Query) (parameter : String) : Option (List (String × Value)) :=
  match q.parameters.lookup parameter with
  | some (.values entries) => some entries
  | _ => none

end Query

namespace Database

/-- The places of the nodes that match a pattern. -/
def places (db : Database) (label property value : String) : List Nat :=
  placesOf (StoredNode.fits label property value) db.nodes

def addToNode (entries : List (String × Value)) (db : Database) (place : Nat) : Database :=
  { db with nodes := db.nodes.modify place fun n => { n with values := n.values.add entries } }

def addToEdge (entries : List (String × Value)) (db : Database) (place : Nat) : Database :=
  { db with edges := db.edges.modify place fun e => { e with values := e.values.add entries } }

end Database

/-! ## The meaning of the language -/

/-- Make a change for a row. What is declared stands for all that was matched, in a row for each. -/
def Update.run (q : Query) (row : Row) : Update → Work (List Row)
  | .mergeNode pattern => do
    row.checkNew pattern.name
    let value ← q.textOf pattern.parameter
    let db ← get
    let (places, nodes) := matchOrMake (StoredNode.fits pattern.label pattern.property value)
      (.make pattern.label pattern.property value) db.nodes
    set { db with nodes }
    return places.map fun place => (pattern.name, .node place) :: row
  | .mergeEdge source name label target => do
    row.checkNew name
    let sourcePlace ← row.node source
    let targetPlace ← row.node target
    let db ← get
    let (places, edges) := matchOrMake (StoredEdge.fits sourcePlace targetPlace label)
      ⟨sourcePlace, targetPlace, label, ∅⟩ db.edges
    set { db with edges }
    return places.map fun place => (name, .edge place) :: row
  | .add name parameter => do
    let entries ← q.valuesOf parameter
    match row.lookup name with
    | some (.node place) => modify fun db => Database.addToNode entries db place
    | some (.edge place) => modify fun db => Database.addToEdge entries db place
    | some .null => pure ()
    | _ => failure
    return [row]

/-- The rows for the matches of an optional pattern: one for each, or one where what is declared is null. -/
def optionalRows (row : Row) (name : String) : List Nat → List Row
  | [] => [(name, .null) :: row]
  | places => places.map fun place => (name, .node place) :: row

def Clause.run (q : Query) (row : Row) : Clause → Work (List Row)
  | .update change => change.run q row
  | .optionalMatch pattern => do
    row.checkNew pattern.name
    let value ← q.textOf pattern.parameter
    let db ← get
    return optionalRows row pattern.name (db.places pattern.label pattern.property value)
  | .forEach name present items others updates => do
    row.checkNew name
    let there ← row.allPresent present
    let body item := inTurn (updates.map fun change row => change.run q row) [(name, .item item) :: row]
    onItems body (if there then items else others)
    return [row]

/-- The columns of a first row. -/
def firstRow (columns : List (String × String)) (rows : List Row) : Option Reply :=
  match columns, rows with
  | [], _ => some .noRow
  | _, [] => some .noRow
  | columns, row :: _ =>
    (columns.mapM fun column => (row.present column.1).map fun there => (column.2, some there)).map .row

/-- Do what a text says. Indexes are no part of the nodes and edges. -/
def Directive.run (q : Query) : Directive → Work Reply
  | .index _ _ => return .noRow
  | .sequence clauses columns => do
    let rows ← inTurn (clauses.map fun clause row => clause.run q row) [[]]
    firstRow columns rows

namespace Database

/-- Answer a query. One that cannot be read or done leaves the database as it is. -/
def answer (db : Database) (q : Query) : Reply × Database :=
  match (lex q.text).bind parse with
  | none => (.failed, db)
  | some directive => (directive.run q db).getD (.failed, db)

def server : Server Database where
  answer := answer

end Database
end ProgramGraph.Cypher
