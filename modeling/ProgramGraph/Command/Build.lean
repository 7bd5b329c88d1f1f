import ProgramGraph.Build.Run
import ProgramGraph.Command.Discover
import ProgramGraph.Cypher.Client
import ProgramGraph.Store.Export
import ProgramGraph.Store.Memory

/-!
# ProgramGraph.Command.Build

The command `build`: find snapshots, discover the graph of each, and put it into a store together with a record of the
build.

* `Stamp`      — the id and the time of one build; they come from outside.
* `scopeOf`    — the scope of the ids of one snapshot, so that snapshots do not get in each other's way.
* `buildOne`   — build one snapshot into a store.
* `buildAll`   — build several; one that cannot be loaded is skipped and counted.
* `dryRun`     — build into memory.
* `buildInto`  — build into a database, if it can be reached.
-/

namespace ProgramGraph.Command

open Build Cypher Discovery Files Program Store Time

/-- The id and the time of one build. -/
structure Stamp where
  id : String
  time : Instant

/-- How many hexadecimal digits of the content hash make a scope. -/
def scopeLength : Nat := 12

/-- The scope of the ids of one snapshot. -/
def scopeOf (contentHash : String) : String :=
  String.ofList (contentHash.toList.take scopeLength)

/-- Builds under way. -/
structure Building (σ : Type) where
  state : σ
  report : BuildReport := {}
  events : List Event := []

namespace Building

variable {σ : Type}

def skip (b : Building σ) (events : List Event) : Building σ :=
  { b with
    report := { b.report with skipped := b.report.skipped + 1 }
    events := b.events ++ events }

end Building

def addBuild (r : BuildReport) (x : Explorer) (summary : ExportSummary) : BuildReport :=
  { r with
    builds := r.builds + 1
    nodes := r.nodes + x.graph.nodeCount
    relationships := r.relationships + x.graph.relationshipCount
    resolutionFailures := r.resolutionFailures + x.stats.failures
    exportFailures := r.exportFailures + summary.failures }

def runOf (t : Tree) (stamp : Stamp) (path contentHash : String) (g : Graph) : BuildRun :=
  let run : BuildRun :=
    { id := stamp.id
      sourcePath := path
      sourceHash := some contentHash
      position := positionAt t path
      startedAt := stamp.time }
  run.withCounts g

/-- What is told about a record that was not stored. -/
def recordEvents (run : BuildRun) : Except StoreError Unit → List Event
  | .ok () => []
  | .error _ => [.runNotRecorded run.id]

def buildProgram {σ : Type} (store : Store σ) (t : Tree) (options : Options) (stamp : Stamp) (path : String)
    (p : Program) (b : Building σ) (events : List Event) : Building σ :=
  let x := discover (worldOf options p)
  let run := runOf t stamp path p.contentHash x.graph
  let exported := exportGraph store (some (scopeOf p.contentHash)) x.graph b.state
  let recorded := exportRun store exported.state run
  { state := recorded.state
    report := addBuild b.report x exported.summary
    events := b.events ++ events ++ x.events ++ [run.event] ++ exported.events ++ recorded.events ++
      recordEvents run recorded.result }

def buildOne {σ : Type} (store : Store σ) (t : Tree) (options : Options) (b : Building σ)
    (snapshot : Stamp × String) : Building σ :=
  match loadOrSkip t snapshot.2 with
  | (none, events) => b.skip events
  | (some p, events) => buildProgram store t options snapshot.1 snapshot.2 p b events

/-- Build several snapshots into a store, each with its stamp. -/
def buildAll {σ : Type} (store : Store σ) (t : Tree) (options : Options) (snapshots : List (Stamp × String))
    (state : σ) : Building σ :=
  snapshots.foldl (buildOne store t options) { state := state }

/-- Snapshots with their stamps, by their numbers. -/
def stamped (stamps : Nat → Stamp) (snapshots : List String) : List (Stamp × String) :=
  snapshots.zipIdx.map fun s => (stamps s.2, s.1)

/-- Build all snapshots at or below a path into memory. -/
def dryRun (t : Tree) (stamps : Nat → Stamp) (options : Options) (path : String) : Building Memory :=
  let (snapshots, found) := findSnapshots t path
  let b := buildAll (Memory.store []) t options (stamped stamps snapshots) {}
  { b with
    events := .buildStarted path :: found ++ .dryRun :: b.events ++
      [.memoryHolds b.state.nodeCount b.state.edgeCount, .buildCompleted b.report] }

/-- What a build into a database came to. -/
structure RemoteBuild (δ : Type) where
  session : Session δ
  hello : Option (String × String)
  /-- The totals, if the database was reached. -/
  report : Option BuildReport
  events : List Event

/-- Build all snapshots at or below a path into a database. -/
def buildInto {δ : Type} (server : Server δ) (settings : Settings) (start : δ) (t : Tree) (stamps : Nat → Stamp)
    (options : Options) (path : String) : RemoteBuild δ :=
  let (snapshots, found) := findSnapshots t path
  let opening := .buildStarted path :: found ++ [.connecting settings.uri]
  let connection := connect server settings start
  if connection.connected then
    let b := buildAll (Client.store server) t options (stamped stamps snapshots) connection.session
    { session := b.state
      hello := connection.hello
      report := some b.report
      events := opening ++ b.events ++ [.buildCompleted b.report] }
  else
    { session := connection.session, hello := connection.hello, report := none, events := opening }

end ProgramGraph.Command
