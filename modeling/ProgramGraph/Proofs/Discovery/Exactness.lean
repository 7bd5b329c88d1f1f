import Mathlib.Data.List.Nodup
import ProgramGraph.Proofs.Discovery.Settled

/-!
# ProgramGraph.Proofs.Discovery.Exactness

What a discovery finds and how often it looks.

* `discover_exact` — the graph of a world is its reachable keys and the relationships between them, with their bags.
* `Point.Exact`    — every known entity waits once and was never enriched, or was enriched once and does not wait.
* `enriched_once`  — this holds at every point, whatever is asked in whatever order; what it says about the counts after a
  run.
-/

namespace ProgramGraph.Discovery

open Program ProgramGraph.Graph Relation

/-- **The graph of a world.** Its entities are the reachable keys and its relationships those of the world, each with its
bag and each of them once. -/
theorem discover_exact (w : World) :
    (∀ k, k ∈ (discover w).graph.keys ↔ Reachable w k) ∧
      (∀ k bag, (k, bag) ∈ (discover w).graph.relationships.map (fun r => (r.1.key, r.2)) ↔ Related w k bag) ∧
      (discover w).graph.keys.Nodup ∧ ((discover w).graph.relationships.map fun r => r.1.key).Nodup := by
  have settled := settled_discover w
  refine ⟨fun k => settled.mem_keys_iff, ?_, nodup_keys _, ?_⟩
  · intro k bag
    rw [List.mem_map]
    constructor
    · rintro ⟨⟨r, _⟩, mem, same⟩
      cases same
      exact (settled.mem_relationships_iff.mp mem).1
    · intro related
      refine ⟨(w.relationship k, bag), settled.mem_relationships_iff.mpr ⟨?_, ?_, ?_⟩, ?_⟩
      · rwa [World.key_relationship]
      · rw [World.relationship, World.key_entity]
      · rw [World.relationship, World.key_entity]
      · rw [World.key_relationship]
  · rw [map_key_relationships]
    exact nodup_relationKeys _

/-- Every known entity waits exactly once and was never enriched, or was enriched exactly once and does not wait, and
nothing else waits or was enriched. -/
structure Point.Exact (p : Point) : Prop where
  known : ∀ k ∈ p.explorer.graph.keys,
    ((p.pending.map Entity.key).count k = 1 ∧ k ∉ p.enriched.map Entity.key) ∨
      (k ∉ p.pending.map Entity.key ∧ (p.enriched.map Entity.key).count k = 1)
  unknown : ∀ k, k ∉ p.explorer.graph.keys → k ∉ p.pending.map Entity.key ∧ k ∉ p.enriched.map Entity.key

/-- In order of registration, the known entities are the enriched ones and then the waiting ones. -/
theorem Account.keys_eq {w : World} {p : Point} (h : Account w p) :
    p.explorer.graph.keys = p.enriched.map Entity.key ++ p.pending.map Entity.key := by
  rw [← map_key_entities, h.entities, List.map_append]

theorem Account.exact {w : World} {p : Point} (h : Account w p) : p.Exact := by
  have nodup := p.explorer.graph.nodup_keys
  rw [h.keys_eq, List.nodup_append] at nodup
  obtain ⟨enrichedOnce, pendingOnce, disjoint⟩ := nodup
  constructor
  · intro k hk
    rw [h.keys_eq, List.mem_append] at hk
    rcases hk with hk | hk
    · exact .inr ⟨fun hk' => disjoint k hk k hk' rfl, List.count_eq_one_of_mem enrichedOnce hk⟩
    · exact .inl ⟨List.count_eq_one_of_mem pendingOnce hk, fun hk' => disjoint k hk' k hk rfl⟩
  · intro k hk
    rw [h.keys_eq, List.mem_append, not_or] at hk
    exact hk.symm

/-- **Every entity is enriched once.** Calls are made of moves, and at every point that moves can reach from the start,
every known entity waits once or was enriched once, never both. So a run leaves nothing to wait, and its counts are those
of the graph. -/
theorem enriched_once (w : World) :
    (∀ p, Reaches w {} p → p.Exact) ∧
      (∀ x done calls, ∃ done', Reaches w ⟨x, [], done⟩ ⟨x.performAll w calls, [], done'⟩) ∧
      ∀ calls, let x := (({} : Explorer).performAll w calls).run w
        x.graph.frontier = [] ∧ x.stats.enriched = x.graph.nodeCount ∧
          x.stats.nodesEnriched = kindCount .node x.graph.entities ∧
          x.stats.symbolsEnriched = kindCount .symbol x.graph.entities ∧
          x.stats.typesEnriched = kindCount .type x.graph.entities ∧
          x.stats.seeded = x.stats.nodesEnriched := by
  refine ⟨fun p path => (account_of_reaches path).exact, fun x done calls => reaches_performAll w calls x done, ?_⟩
  intro calls x
  have tally := (account_run w calls).tally
  refine ⟨Explorer.frontier_run w _, ?_, tally.nodes, tally.symbols, tally.types, ?_⟩
  · rw [Stats.enriched, tally.nodes, tally.symbols, tally.types, ← length_entities]
    exact (length_eq_kindCounts _).symm
  · rw [tally.seeded, tally.nodes]

end ProgramGraph.Discovery
