import ProgramGraph.Store.Export
import ProgramGraph.Proofs.Store.Memory

/-!
# ProgramGraph.Proofs.Store.Export

What an export leaves in a store in memory, and what it counts.

* `foldl_addNode`, `foldl_addEdge` — rows that go out one after the other: the taken ones are merged in order, the others
  are counted. Relationships do not touch entities, so whether one is taken is settled before the first of them.
* `Memory.withNodes`, `Memory.withGraph` — what is stored after the entities of a graph, and after its relationships.
* `state_exportGraph`, `summary_exportGraph` — the whole export.
* `nodeEntries`, `edgeEntries` — what an export merges under which keys. What a graph brings does not depend on the store,
  but for the relationships, of which some lack an end: `summary_exportGraph_congr`.
-/

namespace ProgramGraph.Store

open ProgramGraph.Graph Memory

namespace Exporting

variable (refused : List String)

theorem addNode_eq (x : Exporting Memory) (r : NodeRow) :
    (x.addNode (Memory.store refused) r).state = (if takesNode refused r then x.state.mergeNode r else x.state) ∧
      (x.addNode (Memory.store refused) r).summary =
        if takesNode refused r then { x.summary with nodesExported := x.summary.nodesExported + 1 }
        else { x.summary with nodesFailed := x.summary.nodesFailed + 1 } := by
  cases taken : takesNode refused r with
  | true =>
    rw [addNode, upsertNode_of_takes taken]
    exact ⟨rfl, rfl⟩
  | false =>
    obtain ⟨cause, answer⟩ := upsertNode_of_refuses (m := x.state) taken
    rw [addNode, answer]
    exact ⟨rfl, rfl⟩

theorem addEdge_eq (x : Exporting Memory) (r : EdgeRow) :
    (x.addEdge (Memory.store refused) r).state =
        (if takesEdge refused x.state r then x.state.mergeEdge r else x.state) ∧
      (x.addEdge (Memory.store refused) r).summary =
        if takesEdge refused x.state r then
          { x.summary with relationshipsExported := x.summary.relationshipsExported + 1 }
        else { x.summary with relationshipsFailed := x.summary.relationshipsFailed + 1 } := by
  cases taken : takesEdge refused x.state r with
  | true =>
    rw [addEdge, upsertEdge_of_takes taken]
    exact ⟨rfl, rfl⟩
  | false =>
    obtain ⟨cause, answer⟩ := upsertEdge_of_refuses taken
    rw [addEdge, answer]
    exact ⟨rfl, rfl⟩

theorem foldl_addNode (rows : List NodeRow) (x : Exporting Memory) :
    (rows.foldl (addNode (Memory.store refused)) x).state = x.state.mergeNodes (rows.filter (takesNode refused)) ∧
      (rows.foldl (addNode (Memory.store refused)) x).summary =
        { x.summary with
          nodesExported := x.summary.nodesExported + rows.countP (takesNode refused)
          nodesFailed := x.summary.nodesFailed + rows.countP fun r => !takesNode refused r } := by
  induction rows generalizing x with
  | nil => exact ⟨rfl, rfl⟩
  | cons r rows ih =>
    obtain ⟨state, summary⟩ := addNode_eq refused x r
    rw [List.foldl_cons, (ih _).1, (ih _).2, state, summary]
    cases taken : takesNode refused r with
    | true =>
      rw [List.filter_cons_of_pos taken, List.countP_cons_of_pos taken, List.countP_cons_of_neg (by simp [taken])]
      exact ⟨rfl, by simp [Nat.add_assoc, Nat.add_comm 1]⟩
    | false =>
      rw [List.filter_cons_of_neg (by simp [taken]), List.countP_cons_of_neg (by simp [taken]),
        List.countP_cons_of_pos (by simp [taken])]
      exact ⟨rfl, by simp [Nat.add_assoc, Nat.add_comm 1]⟩

theorem foldl_addEdge (rows : List EdgeRow) (x : Exporting Memory) :
    (rows.foldl (addEdge (Memory.store refused)) x).state =
        x.state.mergeEdges (rows.filter (takesEdge refused x.state)) ∧
      (rows.foldl (addEdge (Memory.store refused)) x).summary =
        { x.summary with
          relationshipsExported := x.summary.relationshipsExported + rows.countP (takesEdge refused x.state)
          relationshipsFailed := x.summary.relationshipsFailed + rows.countP fun r => !takesEdge refused x.state r } := by
  induction rows generalizing x with
  | nil => exact ⟨rfl, rfl⟩
  | cons r rows ih =>
    obtain ⟨state, summary⟩ := addEdge_eq refused x r
    -- relationships touch no entities, so the test is the same for the rest of the rows
    have same : takesEdge refused (x.addEdge (Memory.store refused) r).state = takesEdge refused x.state := by
      apply takesEdge_congr
      rw [state]
      split <;> rfl
    rw [List.foldl_cons, (ih _).1, (ih _).2, same, state, summary]
    cases taken : takesEdge refused x.state r with
    | true =>
      rw [List.filter_cons_of_pos taken, List.countP_cons_of_pos taken, List.countP_cons_of_neg (by simp [taken])]
      exact ⟨rfl, by simp [Nat.add_assoc, Nat.add_comm 1]⟩
    | false =>
      rw [List.filter_cons_of_neg (by simp [taken]), List.countP_cons_of_neg (by simp [taken]),
        List.countP_cons_of_pos (by simp [taken])]
      exact ⟨rfl, by simp [Nat.add_assoc, Nat.add_comm 1]⟩

@[simp] theorem state_conclude {σ : Type} (x : Exporting σ) : x.conclude.state = x.state := by
  rw [conclude]
  split <;> rfl

@[simp] theorem summary_conclude {σ : Type} (x : Exporting σ) : x.conclude.summary = x.summary := by
  rw [conclude]
  split <;> rfl

end Exporting

/-- What is stored after the entities of a graph went out. -/
def Memory.withNodes (refused : List String) (scope : Option String) (g : Graph) (m : Memory) : Memory :=
  m.mergeNodes ((nodeRows scope g).filter (takesNode refused))

/-- What is stored after the relationships of a graph went out too. -/
def Memory.withGraph (refused : List String) (scope : Option String) (g : Graph) (m : Memory) : Memory :=
  (m.withNodes refused scope g).mergeEdges
    ((edgeRows scope g).filter (takesEdge refused (m.withNodes refused scope g)))

variable (refused : List String) (scope : Option String) (g : Graph) (m : Memory)

theorem state_exportGraph :
    (exportGraph (Memory.store refused) scope g m).state =
      { m.withGraph refused scope g with
        indexes := (m.withGraph refused scope g).indexes.insertMany (nodeLabels g) } := by
  rw [exportGraph, Exporting.state_conclude, Exporting.addIndexes, (Exporting.foldl_addEdge _ _ _).1,
    (Exporting.foldl_addNode _ _ _).1]
  rfl

theorem summary_exportGraph :
    (exportGraph (Memory.store refused) scope g m).summary =
      { nodesExported := (nodeRows scope g).countP (takesNode refused)
        nodesFailed := (nodeRows scope g).countP fun r => !takesNode refused r
        relationshipsExported := (edgeRows scope g).countP (takesEdge refused (m.withNodes refused scope g))
        relationshipsFailed :=
          (edgeRows scope g).countP fun r => !takesEdge refused (m.withNodes refused scope g) r
        indexedLabels := (nodeLabels g).length } := by
  rw [exportGraph, Exporting.summary_conclude, Exporting.addIndexes, (Exporting.foldl_addEdge _ _ _).2,
    (Exporting.foldl_addNode _ _ _).1, (Exporting.foldl_addNode _ _ _).2]
  simp [Memory.store, Response.taken, ExportSummary.countIndexes, Memory.withNodes]

/-! ## What is merged under which keys -/

/-- The bags that an export merges into stored entities. -/
def nodeEntries : List (NodeKey × Bag) :=
  ((nodeRows scope g).filter (takesNode refused)).map fun r => (r.key, r.properties)

/-- The bags that an export merges into stored relationships. -/
def edgeEntries : List (EdgeKey × Bag) :=
  ((edgeRows scope g).filter (takesEdge refused (m.withNodes refused scope g))).map fun r => (r.key, r.properties)

theorem nodes_withNodes : (m.withNodes refused scope g).nodes = mergeAll m.nodes (nodeEntries refused scope g) :=
  nodes_mergeNodes _ _

theorem state_exportGraph_eq :
    (exportGraph (Memory.store refused) scope g m).state =
      { nodes := mergeAll m.nodes (nodeEntries refused scope g)
        edges := mergeAll m.edges (edgeEntries refused scope g m)
        indexes := m.indexes.insertMany (nodeLabels g) } := by
  have nodes : m.withNodes refused scope g = { m with nodes := mergeAll m.nodes (nodeEntries refused scope g) } :=
    mergeNodes_eq _ _
  rw [state_exportGraph, withGraph, mergeEdges_eq, edgeEntries, nodes]

variable {refused scope g m} {m' : Memory}

section

variable (same : ∀ r ∈ edgeRows scope g,
  takesEdge refused (m'.withNodes refused scope g) r = takesEdge refused (m.withNodes refused scope g) r)

include same

theorem edgeEntries_congr : edgeEntries refused scope g m' = edgeEntries refused scope g m := by
  rw [edgeEntries, edgeEntries, List.filter_congr same]

/-- Stores in which the same relationships have their ends take a graph alike. -/
theorem summary_exportGraph_congr :
    (exportGraph (Memory.store refused) scope g m').summary = (exportGraph (Memory.store refused) scope g m).summary := by
  have taken : (edgeRows scope g).countP (takesEdge refused (m'.withNodes refused scope g)) =
      (edgeRows scope g).countP (takesEdge refused (m.withNodes refused scope g)) :=
    List.countP_congr fun r hr => by rw [same r hr]
  have left : ((edgeRows scope g).countP fun r => !takesEdge refused (m'.withNodes refused scope g) r) =
      (edgeRows scope g).countP fun r => !takesEdge refused (m.withNodes refused scope g) r :=
    List.countP_congr fun r hr => by rw [same r hr]
  rw [summary_exportGraph, summary_exportGraph, taken, left]

end

end ProgramGraph.Store
