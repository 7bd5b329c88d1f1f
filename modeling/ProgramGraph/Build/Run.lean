import ProgramGraph.Files.Repository
import ProgramGraph.Store.Basic
import ProgramGraph.Time.Rfc3339

/-!
# ProgramGraph.Build.Run

Build runs: the record of one graph that was built, kept beside the graph.

* `BuildRun`      — what was built, when, at which position of a repository, and how large it is.
* `BuildRun.row`  — the record as a store takes it; what is unknown is left out.
* `exportRun`     — put the record into a store; a refusal is told.
-/

namespace ProgramGraph.Build

open Files ProgramGraph.Graph Json Store Time

/-- The record of one graph that was built. -/
structure BuildRun where
  id : String
  sourcePath : String
  /-- The digest of the snapshot. -/
  sourceHash : Option String := none
  position : RepositoryPosition := {}
  startedAt : Instant
  nodeCount : UInt64 := 0
  relationshipCount : UInt64 := 0
  deriving DecidableEq, Repr

/-- A time, written in universal time. -/
def instantDecoder : Decoder Instant :=
  fun depth o => do complete (Instant.read? (← text depth o))

namespace BuildRun

/-- The record with the size of a graph. -/
def withCounts (r : BuildRun) (g : Graph) : BuildRun :=
  { r with nodeCount := .ofNat g.nodeCount, relationshipCount := .ofNat g.relationshipCount }

/-- A property that is there only if its value is known. -/
def known (name : String) (value : Option String) : List (String × Property) :=
  match value with
  | some s => [(name, .text s)]
  | none => []

def row (r : BuildRun) : NodeRow where
  label := "BuildRun"
  id := r.id
  properties := .ofList
    ([("sourcePath", .text r.sourcePath), ("startedAt", .text (r.startedAt.text .digits)),
      ("nodeCount", .ofCount r.nodeCount), ("relationshipCount", .ofCount r.relationshipCount)]
      ++ known "sourceHash" r.sourceHash ++ known "commitSha" r.position.commit
      ++ known "branch" r.position.branch)

/-- The fields of a build, in the order of its list form. -/
def fields : Fields BuildRun :=
  (fun id path hash commit branch time nodes relationships =>
      BuildRun.mk id path hash ⟨commit, branch⟩ time nodes relationships)
    <$> .required "id" Json.text
    <*> .required "source_path" Json.text
    <*> .optional "source_hash" Json.text
    <*> .optional "commit_sha" Json.text
    <*> .optional "branch" Json.text
    <*> .required "started_at" instantDecoder
    <*> .required "node_count" word64
    <*> .required "relationship_count" word64

def document (r : BuildRun) : Document :=
  .record
    [("id", .text r.id), ("source_path", .text r.sourcePath), ("source_hash", .orNull .text r.sourceHash),
     ("commit_sha", .orNull .text r.position.commit), ("branch", .orNull .text r.position.branch),
     ("started_at", .text (r.startedAt.text .letter)), ("node_count", .int r.nodeCount.toNat),
     ("relationship_count", .int r.relationshipCount.toNat)]

def event (r : BuildRun) : Event :=
  .runStarted r.id r.sourcePath r.position.commit r.position.branch r.nodeCount.toNat r.relationshipCount.toNat

end BuildRun

def exportRun {σ : Type} (store : Store σ) (state : σ) (r : BuildRun) : Response σ :=
  let answer := store.upsertNode state r.row
  match answer.result with
  | .ok () => answer
  | .error cause => { answer with events := answer.events ++ [.runNotExported r.id cause] }

end ProgramGraph.Build
