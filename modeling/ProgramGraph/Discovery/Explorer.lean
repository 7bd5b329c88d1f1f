import ProgramGraph.Discovery.Enrichment

/-!
# ProgramGraph.Discovery.Explorer

Discovery in waves: the frontier of the graph is drained, every drained entity is described, and what it leads to makes
the next frontier, until a drain comes back empty.

* `Stats`             — what was counted.
* `Explorer`          — a graph with its counts and the events so far.
* `Explorer.seedUnit`, `Explorer.seed` — make the syntax nodes of one unit, or of all, known.
* `Explorer.enrich`   — add the contribution of one entity.
* `Explorer.wave`     — drain the frontier and enrich every entity of it.
* `Explorer.run`      — waves until nothing is left. There are finitely many entities and a drained one never comes back,
  so this ends.
* `discover`          — seed everything and run.
-/

namespace ProgramGraph.Discovery

open Program ProgramGraph.Graph

/-- What was counted during a discovery. -/
structure Stats where
  /-- Drains that were not empty. -/
  waves : Nat := 0
  /-- Syntax nodes made known by seeding. -/
  seeded : Nat := 0
  nodesEnriched : Nat := 0
  symbolsEnriched : Nat := 0
  typesEnriched : Nat := 0
  /-- Lookups that failed and became properties. -/
  failures : Nat := 0
  deriving DecidableEq, Repr

namespace Stats

def enriched (s : Stats) : Nat :=
  s.nodesEnriched + s.symbolsEnriched + s.typesEnriched

def countKind (s : Stats) : EntityKind → Stats
  | .node => { s with nodesEnriched := s.nodesEnriched + 1 }
  | .symbol => { s with symbolsEnriched := s.symbolsEnriched + 1 }
  | .type => { s with typesEnriched := s.typesEnriched + 1 }

/-- One more failure, if there was one. -/
def countFailure {α : Type} (s : Stats) : Option α → Stats
  | some _ => { s with failures := s.failures + 1 }
  | none => s

end Stats

/-- A graph under discovery, with its counts and the events so far. -/
structure Explorer where
  graph : Graph := .empty
  stats : Stats := {}
  events : List Event := []

def Finding.addTo (g : Graph) : Finding → Graph
  | .entity e => g.register e
  | .relationship r bag => g.connect r bag

@[simp] theorem Finding.drained_addTo (g : Graph) (f : Finding) : (f.addTo g).drained = g.drained := by
  cases f <;> simp [addTo]

/-- Add a list of findings to a graph, in order. -/
def addFindings (g : Graph) (findings : List Finding) : Graph :=
  findings.foldl Finding.addTo g

@[simp] theorem drained_addFindings (g : Graph) (findings : List Finding) :
    (addFindings g findings).drained = g.drained := by
  induction findings generalizing g with
  | nil => rfl
  | cons f rest ih => simpa [addFindings] using ih (f.addTo g)

/-- Add the contribution of an entity to a graph: what it leads to, then its bag. -/
def Enrichment.addTo (g : Graph) (e : Entity) (x : Enrichment) : Graph :=
  if x.missing.isSome then g else (addFindings g x.findings).merge e x.bag

@[simp] theorem Enrichment.drained_addTo (g : Graph) (e : Entity) (x : Enrichment) :
    (x.addTo g e).drained = g.drained := by
  unfold addTo
  split <;> simp

namespace Explorer

def log (x : Explorer) (e : Event) : Explorer :=
  { x with events := x.events ++ [e] }

/-- Make one syntax node known; the number counts the new ones. -/
def seedNode (unit : UInt32) (state : Graph × Nat) (node : Nat × SourceNode) : Graph × Nat :=
  let e := Entity.ofNode ⟨unit, UInt32.ofNat node.1⟩ node.2.kind
  (state.1.register e, if state.1.contains e.key then state.2 else state.2 + 1)

/-- The nodes of a unit with their places. -/
def placedNodes (u : SourceUnit) : List (Nat × SourceNode) :=
  (List.range u.nodes.size).zip u.nodes.toList

/-- Make every syntax node of a unit known; the number counts the new ones. -/
def seedUnit (w : World) (x : Explorer) (id : UInt32) : Explorer × Nat :=
  match w.units.get? id with
  | none => (x.log (.unitUnknown id), 0)
  | some u =>
    let (graph, added) := (placedNodes u).foldl (seedNode id) (x.graph, 0)
    let seeded := { x with graph := graph, stats := { x.stats with seeded := x.stats.seeded + added } }
    (seeded.log (.unitSeeded added u.displayName), added)

/-- Make every syntax node of every unit known; the number counts the new ones. -/
def seed (w : World) (x : Explorer) : Explorer × Nat :=
  w.units.toList.foldl
    (fun state unit =>
      let (next, added) := state.1.seedUnit w unit.1
      (next, state.2 + added))
    (x, 0)

def eventsOf (e : Entity) (c : Enrichment) : List Event :=
  let missing := match c.missing with
    | some event => [event e.id]
    | none => []
  let failed := match c.failure with
    | some (question, f) => [.lookupFailed question e.id f]
    | none => []
  missing ++ failed

def enrich (w : World) (x : Explorer) (e : Entity) : Explorer :=
  let c := describe w e
  { graph := c.addTo x.graph e
    stats := (x.stats.countKind e.key.kind).countFailure c.failure
    events := x.events ++ eventsOf e c }

@[simp] theorem drained_enrich (w : World) (x : Explorer) (e : Entity) :
    (x.enrich w e).graph.drained = x.graph.drained := by
  simp [enrich]

/-- Drain the frontier and enrich every entity of it. -/
def wave (w : World) (x : Explorer) : Explorer :=
  let (pending, graph) := x.graph.drain
  let number := x.stats.waves + 1
  let drained := { x with graph := graph, stats := { x.stats with waves := number } }
  pending.foldl (enrich w) (drained.log (.wave number pending.length))

/-- After a wave, everything that was known before it is drained. -/
theorem drained_wave (w : World) (x : Explorer) : (x.wave w).graph.drained = x.graph.nodeCount := by
  have keeps : ∀ (l : List Entity) (y : Explorer), (l.foldl (enrich w) y).graph.drained = y.graph.drained := by
    intro l
    induction l with
    | nil => intro y; rfl
    | cons e rest ih => intro y; simp [ih]
  simp [wave, keeps, log, Graph.drain, Graph.nodeCount]

def conclude (x : Explorer) : Explorer :=
  x.log (.fixpoint x.stats.waves x.graph.nodeCount x.graph.relationshipCount x.stats.failures)

/-- Waves until nothing is left. -/
def run (w : World) (x : Explorer) : Explorer :=
  if x.graph.frontier = [] then x.conclude else run w (x.wave w)
termination_by EntityKey.count - x.graph.drained
decreasing_by
  rename_i h
  have some_left : x.graph.drained < x.graph.nodeCount := by
    apply Nat.lt_of_not_le
    intro h'
    apply h
    simp only [Graph.frontier, List.map_eq_nil_iff, List.drop_eq_nil_iff]
    exact h'
  have := drained_wave w x
  have := Graph.nodeCount_le_count x.graph
  omega

end Explorer

/-- Seed everything and run: the whole discovery. -/
def discover (w : World) : Explorer :=
  let (seeded, _) := ({} : Explorer).seed w
  seeded.run w

end ProgramGraph.Discovery
