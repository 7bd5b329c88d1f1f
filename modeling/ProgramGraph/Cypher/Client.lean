import ProgramGraph.Cypher.Statement
import ProgramGraph.Store.Basic

/-!
# ProgramGraph.Cypher.Client

A graph database as a store.

* `Server`       — anything that answers queries, over any type of state.
* `Reply`        — an answer: a failure, or at most one row of columns.
* `Session`      — the state of a server together with the statements that were sent.
* `Client.store` — the store: labels are checked before anything is sent, a relationship is refused when the answer does
  not confirm both of its ends, and indexes are made one by one up to the first failure.
* `connect`      — open a session and make the index of the build runs.
* `Script`       — a server whose answers are given by the number of the statement.
-/

namespace ProgramGraph.Cypher

open Store

/-- The answer to a query. -/
inductive Reply where
  | failed
  | noRow
  /-- One row. A column that is not a truth value has none. -/
  | row (columns : List (String × Option Bool))
  deriving DecidableEq, Repr

namespace Reply

def succeeded : Reply → Bool
  | .failed => false
  | _ => true

/-- Whether a column holds true; one that is missing does not. -/
def affirms (column : String) : Reply → Bool
  | .row columns => (columns.lookup column).join.getD false
  | _ => false

end Reply

/-- Anything that answers queries. -/
structure Server (δ : Type) where
  answer : δ → Query → Reply × δ

/-- The state of a server and the statements that were sent, the last one first. -/
structure Session (δ : Type) where
  server : δ
  sent : List Statement := []

namespace Session

variable {δ : Type}

/-- Send the text and the parameters of a statement. -/
def send (server : Server δ) (s : Session δ) (statement : Statement) : Reply × Session δ :=
  let (reply, next) := server.answer s.server statement.query
  (reply, { server := next, sent := statement :: s.sent })

/-- The statements in the order in which they were sent. -/
def statements (s : Session δ) : List Statement :=
  s.sent.reverse

end Session

namespace Client

variable {δ : Type}

/-- Whether both ends of a relationship were found. -/
def checkEnds (row : EdgeRow) (reply : Reply) : Except StoreError Unit :=
  if !reply.succeeded then .error .database
  else if !reply.affirms "source_found" then .error (.missingEndpoint row.sourceLabel row.sourceId)
  else if !reply.affirms "target_found" then .error (.missingEndpoint row.targetLabel row.targetId)
  else .ok ()

def checkDone (reply : Reply) : Except StoreError Unit :=
  if reply.succeeded then .ok () else .error .database

/-- Send a statement, unless there is none, and judge the reply. -/
def submit (server : Server δ) (s : Session δ) (statement : Except StoreError Statement)
    (judge : Reply → Except StoreError Unit) : Response (Session δ) :=
  match statement with
  | .error cause => .refused s cause
  | .ok sent =>
    let (reply, next) := s.send server sent
    { state := next, result := judge reply }

/-- Make the indexes of some labels, up to the first failure. -/
def makeIndexes (server : Server δ) (s : Session δ) : List String → Response (Session δ)
  | [] => .taken s
  | label :: rest =>
    let first := submit server s (Statement.ofIndex label) checkDone
    match first.result with
    | .error cause => .refused first.state cause
    | .ok () =>
      let others := makeIndexes server first.state rest
      { others with events := .indexEnsured label :: others.events }

/-- A server as a store. -/
def store (server : Server δ) : Store (Session δ) where
  upsertNode s row := submit server s (Statement.ofNode row) checkDone
  upsertEdge s row := submit server s (Statement.ofEdge row) (checkEnds row)
  ensureIndexes s labels := makeIndexes server s labels

end Client

/-! ## Connecting -/

/-- Where a database is and how to enter it. -/
structure Settings where
  uri : String := "bolt://localhost:7687"
  user : String
  password : String
  database : Option String := none
  deriving DecidableEq, Repr

namespace Settings

def databaseName (s : Settings) : String :=
  s.database.getD "neo4j"

/-- The schemes of addresses that can be reached. -/
def schemes : List String :=
  ["bolt", "bolt+s", "bolt+ssc", "neo4j", "neo4j+s", "neo4j+ssc"]

/-- The scheme of an address; one that names none has the first. -/
def scheme (s : Settings) : String :=
  match s.uri.splitOn "://" with
  | name :: _ :: _ => name.toLower
  | _ => "bolt"

/-- Whether the address has one of the schemes. -/
def reachable (s : Settings) : Bool :=
  s.scheme ∈ schemes

end Settings

/-- An attempt to connect. -/
structure Connection (δ : Type) where
  session : Session δ
  /-- User and password, if they were sent. -/
  hello : Option (String × String)
  connected : Bool

/-- Open a session and make the index of the build runs. -/
def connect {δ : Type} (server : Server δ) (settings : Settings) (start : δ) : Connection δ :=
  let session : Session δ := { server := start }
  if settings.reachable then
    let (reply, next) := session.send server .runIndex
    { session := next, hello := some (settings.user, settings.password), connected := reply.succeeded }
  else { session := session, hello := none, connected := false }

/-! ## Scripted servers -/

/-- Answers by the number of the statement, from zero. -/
abbrev Script := List (Nat × Reply)

namespace Script

/-- The answer where the script has none: both ends are there. -/
def confirmation : Reply :=
  .row [("source_found", some true), ("target_found", some true)]

/-- The server that follows a script; its state is the number of the next statement. -/
def server (script : Script) : Server Nat where
  answer number _ := ((script.lookup number).getD confirmation, number + 1)

end Script
end ProgramGraph.Cypher
