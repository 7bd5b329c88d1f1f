import ProgramGraph.Discovery.Explorer
import ProgramGraph.Files.Scan
import ProgramGraph.Program.Snapshot
import ProgramGraph.Store.Rows

/-!
# ProgramGraph.Command.Discover

The command `discover`: find snapshots, discover the graph of each, and report.

* `LoadFailure`        — why a snapshot cannot be loaded; `loadProgram` loads one.
* `loadOrSkip`         — load a snapshot and tell about it; one that cannot be loaded is skipped.
* `findSnapshots`      — the snapshots at or below a path.
* `SnapshotGraph`      — what was discovered from one snapshot, with its line of text and its JSON form.
* `discoverAll`        — all of them.
* `report`             — what the command prints.
-/

namespace ProgramGraph.Command

open Discovery Files ProgramGraph.Graph Json Program Store

/-- Why a snapshot cannot be loaded. -/
inductive LoadFailure where
  | file (cause : FileError)
  | json (cause : Fault)
  deriving DecidableEq, Repr

namespace LoadFailure

/-- What went wrong with a file, in words. -/
def fileReason : FileError → String
  | .notFound => "not found"
  | .notADirectory => "not a directory"
  | .tooManyLinks => "too many links"
  | .isADirectory => "is a directory"
  | .notText => "not valid UTF-8"

/-- What is wrong with a text, in words. -/
def jsonReason : Fault → String
  | .truncated => "unexpected end"
  | .malformed => "not JSON"
  | .mismatch => "unexpected value"

/-- What went wrong, in words. -/
def reason : LoadFailure → String
  | .file cause => "IO error: " ++ fileReason cause
  | .json cause => "Snapshot parse error: " ++ jsonReason cause

end LoadFailure

/-- Load the snapshot at a path, and tell about it. -/
def loadProgram (t : Tree) (path : String) : Except LoadFailure Program × List Event :=
  match t.readText path with
  | .error cause => (.error (.file cause), [])
  | .ok text =>
    let loaded := Event.snapshotLoaded path text.utf8ByteSize
    match Program.read text with
    | .error cause => (.error (.json cause), [loaded])
    | .ok p => (.ok p, loaded :: p.events)

/-- Load the snapshot at a path, and tell what is left out of it; one that cannot be loaded is skipped. -/
def loadOrSkip (t : Tree) (path : String) : Option Program × List Event :=
  match loadProgram t path with
  | (.error cause, events) => (none, events ++ [.snapshotSkipped path cause.reason])
  | (.ok p, events) => (some p, events ++ p.rejected.map fun r => .unitRejected path r.2)

def findSnapshots (t : Tree) (path : String) : List String × List Event :=
  let snapshots := scan t snapshotEnding path
  (snapshots, [.snapshotsFound snapshots.length path])

def worldOf (options : Options) (p : Program) : World where
  units := p.units
  lookup := p.tables.lookup
  options := options

/-- What was discovered from one snapshot. -/
structure SnapshotGraph where
  path : String
  /-- How many units were left out. -/
  rejected : Nat
  stats : Stats
  nodes : List NodeRow
  relationships : List EdgeRow

namespace SnapshotGraph

def ofProgram (options : Options) (path : String) (p : Program) : SnapshotGraph × List Event :=
  let x := discover (worldOf options p)
  ({ path := path
     rejected := p.rejected.length
     stats := x.stats
     nodes := nodeRows none x.graph
     relationships := edgeRows none x.graph }, x.events)

def line (g : SnapshotGraph) : String :=
  s!"{g.path}: {g.nodes.length} nodes, {g.relationships.length} relationships, {g.stats.waves} waves, {g.stats.failures} resolution failures, {g.rejected} rejected units"

def statsDocument (s : Stats) : Document :=
  .record
    [("waves", .int s.waves), ("seeded", .int s.seeded), ("syntax_enriched", .int s.nodesEnriched),
     ("symbols_enriched", .int s.symbolsEnriched), ("types_enriched", .int s.typesEnriched),
     ("resolution_failures", .int s.failures)]

def document (g : SnapshotGraph) : Document :=
  .record
    [("snapshot", .text g.path), ("rejected_units", .int g.rejected), ("stats", statsDocument g.stats),
     ("nodes", .list (g.nodes.map NodeRow.document)),
     ("relationships", .list (g.relationships.map EdgeRow.document))]

end SnapshotGraph

/-- Discover the graph of one more snapshot, if it can be loaded. -/
def discoverOne (t : Tree) (options : Options) (sofar : List SnapshotGraph × List Event) (path : String) :
    List SnapshotGraph × List Event :=
  match loadOrSkip t path with
  | (none, events) => (sofar.1, sofar.2 ++ events)
  | (some p, events) =>
    let (g, others) := SnapshotGraph.ofProgram options path p
    (sofar.1 ++ [g], sofar.2 ++ events ++ others)

/-- Discover the graphs of all snapshots at or below a path. -/
def discoverAll (t : Tree) (options : Options) (path : String) : List SnapshotGraph × List Event :=
  let (snapshots, events) := findSnapshots t path
  snapshots.foldl (discoverOne t options) ([], events)

/-- What the command prints: a line for each snapshot, or all graphs in JSON. -/
def report (json : Bool) (graphs : List SnapshotGraph) : String :=
  if json then (Document.list (graphs.map SnapshotGraph.document)).pretty ++ "\n"
  else String.join (graphs.map fun g => g.line ++ "\n")

end ProgramGraph.Command
