import ProgramGraph.Program.Lookup
import ProgramGraph.Store.Error

/-!
# ProgramGraph.Event

What is worth telling while a program graph is discovered, exported or built.

* `Event`       — what happened.
* `Event.level` — how important it is.
* `Event.message`, `Event.line` — its wording, alone and behind its level.
-/

namespace ProgramGraph

open Program Store

/-- How important an event is. -/
inductive Level where
  | debug
  | info
  | warn
  deriving DecidableEq, Repr

namespace Level

def name : Level → String
  | .debug => "DEBUG"
  | .info => "INFO"
  | .warn => "WARN"

end Level

/-- The question of a lookup that failed during discovery. -/
inductive Question where
  | resolution
  | declaration
  | returnType
  | valueType
  | type
  | typeDeclaration
  deriving DecidableEq, Repr

namespace Question

def name : Question → String
  | .resolution => "Resolution"
  | .declaration => "Declaration lookup"
  | .returnType => "Return type lookup"
  | .valueType => "Value type lookup"
  | .type => "Type lookup"
  | .typeDeclaration => "Type declaration lookup"

end Question

/-- The totals of one build. -/
structure BuildReport where
  builds : Nat := 0
  skipped : Nat := 0
  nodes : Nat := 0
  relationships : Nat := 0
  resolutionFailures : Nat := 0
  exportFailures : Nat := 0
  deriving DecidableEq, Repr

/-- What happened. -/
inductive Event where
  | unitSkipped (number : Nat) (problem : Malformed)
  | unitSeeded (added : Nat) (unit : String)
  | unitUnknown (id : UInt32)
  | unitMissing (entity : String)
  | nodeMissing (entity : String)
  | wave (number size : Nat)
  | lookupFailed (question : Question) (entity : String) (failure : LookupFailure)
  | fixpoint (waves entities relationships failures : Nat)
  | snapshotsFound (count : Nat) (path : String)
  | snapshotLoaded (path : String) (bytes : Nat)
  | snapshotSkipped (path reason : String)
  | unitRejected (path : String) (problem : Malformed)
  | exporting (nodes relationships : Nat)
  | nodeNotExported (label id : String) (cause : StoreError)
  | relationshipNotExported (source label target : String) (cause : StoreError)
  | indexEnsured (label : String)
  | indexesEnsured (labels : Nat)
  | indexesFailed (cause : StoreError)
  | exportIncomplete (nodes relationships : Nat)
  | runNotExported (id : String) (cause : StoreError)
  | runNotRecorded (id : String)
  | runStarted (id path : String) (commit branch : Option String) (nodes relationships : Nat)
  | buildStarted (path : String)
  | dryRun
  | memoryHolds (nodes relationships : Nat)
  | connecting (uri : String)
  | buildCompleted (report : BuildReport)
  deriving DecidableEq, Repr

namespace Event

def level : Event → Level
  | .unitSkipped _ _ | .snapshotSkipped _ _ | .unitRejected _ _ | .nodeNotExported _ _ _
  | .relationshipNotExported _ _ _ _ | .indexesFailed _ | .exportIncomplete _ _ | .runNotExported _ _
  | .runNotRecorded _ => .warn
  | .fixpoint _ _ _ _ | .snapshotsFound _ _ | .exporting _ _ | .runStarted _ _ _ _ _ _ | .buildStarted _
  | .dryRun | .memoryHolds _ _ | .connecting _ | .buildCompleted _ => .info
  | _ => .debug

/-- A text that may be missing, as it stands in messages. -/
def quotedOption : Option String → String
  | some s => "Some(" ++ Text.quoted s ++ ")"
  | none => "None"

def message : Event → String
  | .unitSkipped number problem => s!"Skipping unit {number}: {problem.message}"
  | .unitSeeded added unit => s!"Seeded {added} syntax entities from {unit}"
  | .unitUnknown id => s!"Cannot seed unknown unit {id.toNat}"
  | .unitMissing entity => s!"No unit for syntax entity {entity}"
  | .nodeMissing entity => s!"No node for syntax entity {entity}"
  | .wave number size => s!"Discovery wave {number}: {size} new entities"
  | .lookupFailed question entity failure => s!"{question.name} failed for {entity}: {failure.message}"
  | .fixpoint waves entities relationships failures =>
    s!"Discovery reached fixpoint after {waves} waves: {entities} entities, {relationships} relationships, {failures} resolution failures"
  | .snapshotsFound count path => s!"Found {count} snapshots under {path}"
  | .snapshotLoaded path bytes => s!"Loaded snapshot {path} ({bytes} bytes)"
  | .snapshotSkipped path reason => s!"Skipping snapshot {path}: {reason}"
  | .unitRejected path problem => s!"{path}: {problem.message}"
  | .exporting nodes relationships => s!"Exporting {nodes} nodes and {relationships} relationships..."
  | .nodeNotExported label id cause => s!"Failed to export node {label}:{id}: {cause.message}"
  | .relationshipNotExported source label target cause =>
    s!"Failed to export relationship {source} -[{label}]-> {target}: {cause.message}"
  | .indexEnsured label => s!"Ensured id index on label {label}"
  | .indexesEnsured labels => s!"Ensured id indexes for {labels} labels"
  | .indexesFailed cause => s!"Failed to create label indexes: {cause.message}"
  | .exportIncomplete nodes relationships =>
    s!"Export finished with {nodes} failed nodes and {relationships} failed relationships"
  | .runNotExported id cause => s!"Failed to export build run {id}: {cause.message}"
  | .runNotRecorded id => s!"Build run {id} was not recorded"
  | .runStarted id path commit branch nodes relationships =>
    let sha := commit.getD "none"
    let quotedBranch := quotedOption branch
    s!"Build run {id} for {path} (commit: {sha}, branch: {quotedBranch}): {nodes} nodes, {relationships} relationships"
  | .buildStarted path => s!"Building program graphs from {path}"
  | .dryRun => "Dry run: exporting into memory"
  | .memoryHolds nodes relationships => s!"Memory store holds {nodes} nodes and {relationships} relationships"
  | .connecting uri => s!"Connecting to Neo4j at {uri}"
  | .buildCompleted r =>
    s!"✓ Build completed: {r.builds} snapshots built, {r.skipped} skipped, {r.nodes} nodes, {r.relationships} relationships, {r.resolutionFailures} resolution failures, {r.exportFailures} export failures"

def line (e : Event) : String :=
  e.level.name ++ " " ++ e.message

end Event
end ProgramGraph
