import ProgramGraph.Store.Basic

/-!
# ProgramGraph.Store.Export

Putting a finished graph into a store: every entity, then every relationship, then the indexes.

A call that is refused is counted and told, and the remaining ones still go out.

* `ExportSummary` — what was counted.
* `Exporting`     — an export under way.
* `exportGraph`   — the whole export.
-/

namespace ProgramGraph.Store

open ProgramGraph.Graph

/-- What an export came to. -/
structure ExportSummary where
  nodesExported : Nat := 0
  nodesFailed : Nat := 0
  relationshipsExported : Nat := 0
  relationshipsFailed : Nat := 0
  /-- Labels for which an index was made. -/
  indexedLabels : Nat := 0
  deriving DecidableEq, Repr

namespace ExportSummary

def failures (s : ExportSummary) : Nat :=
  s.nodesFailed + s.relationshipsFailed

def countNode (s : ExportSummary) : Except StoreError Unit → ExportSummary
  | .ok () => { s with nodesExported := s.nodesExported + 1 }
  | .error _ => { s with nodesFailed := s.nodesFailed + 1 }

def countEdge (s : ExportSummary) : Except StoreError Unit → ExportSummary
  | .ok () => { s with relationshipsExported := s.relationshipsExported + 1 }
  | .error _ => { s with relationshipsFailed := s.relationshipsFailed + 1 }

/-- The indexes of the given number of labels. -/
def countIndexes (s : ExportSummary) (labels : Nat) : Except StoreError Unit → ExportSummary
  | .ok () => { s with indexedLabels := labels }
  | .error _ => s

end ExportSummary

/-- An export under way. -/
structure Exporting (σ : Type) where
  state : σ
  summary : ExportSummary := {}
  events : List Event := []

/-- What is told about a call that was refused. -/
def refusal (tell : StoreError → Event) : Except StoreError Unit → List Event
  | .ok () => []
  | .error cause => [tell cause]

def indexEvent (labels : Nat) : Except StoreError Unit → Event
  | .ok () => .indexesEnsured labels
  | .error cause => .indexesFailed cause

namespace Exporting

variable {σ : Type}

def addNode (store : Store σ) (x : Exporting σ) (r : NodeRow) : Exporting σ :=
  let answer := store.upsertNode x.state r
  { state := answer.state
    summary := x.summary.countNode answer.result
    events := x.events ++ answer.events ++ refusal (.nodeNotExported r.label r.id) answer.result }

def addEdge (store : Store σ) (x : Exporting σ) (r : EdgeRow) : Exporting σ :=
  let answer := store.upsertEdge x.state r
  { state := answer.state
    summary := x.summary.countEdge answer.result
    events := x.events ++ answer.events ++
      refusal (.relationshipNotExported r.sourceId r.label r.targetId) answer.result }

def addIndexes (store : Store σ) (x : Exporting σ) (labels : List String) : Exporting σ :=
  let answer := store.ensureIndexes x.state labels
  { state := answer.state
    summary := x.summary.countIndexes labels.length answer.result
    events := x.events ++ answer.events ++ [indexEvent labels.length answer.result] }

/-- Tell that something was refused, if it was. -/
def conclude (x : Exporting σ) : Exporting σ :=
  if x.summary.failures = 0 then x
  else { x with events := x.events ++ [.exportIncomplete x.summary.nodesFailed x.summary.relationshipsFailed] }

end Exporting

/-- Put a graph into a store, its ids inside a scope. -/
def exportGraph {σ : Type} (store : Store σ) (scope : Option String) (g : Graph) (state : σ) : Exporting σ :=
  let start : Exporting σ := { state := state, events := [.exporting g.nodeCount g.relationshipCount] }
  let withNodes := (nodeRows scope g).foldl (Exporting.addNode store) start
  let withEdges := (edgeRows scope g).foldl (Exporting.addEdge store) withNodes
  (withEdges.addIndexes store (nodeLabels g)).conclude

end ProgramGraph.Store
