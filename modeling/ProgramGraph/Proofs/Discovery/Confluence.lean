import ProgramGraph.Proofs.Discovery.Settled

/-!
# ProgramGraph.Proofs.Discovery.Confluence

Discovery in pieces comes to the same as discovery at once.

* `Settled.perm`      — two settled explorers of a world know the same entities, in some order, and from this follows
  everything else that does not speak about order.
* `Settled.perform`   — a settled explorer stays as it is, whatever is asked of it.
* `performAll_settles` — calls in any order that seed every unit and end with a run; `knot` is a world of two units for it.
-/

namespace ProgramGraph.Discovery

open Program ProgramGraph.Graph

namespace Settled

variable {w : World} {x y : Explorer}

/-! ## The order does not matter -/

theorem perm (hx : Settled w x) (hy : Settled w y) : x.graph.entities.Perm y.graph.entities := by
  rw [List.perm_ext_iff_of_nodup (nodup_entities _) (nodup_entities _)]
  intro e
  rw [hx.mem_entities_iff, hy.mem_entities_iff]

theorem perm_nodes (hx : Settled w x) (hy : Settled w y) : x.graph.nodes.Perm y.graph.nodes := by
  rw [hx.nodes, hy.nodes]
  exact (hx.perm hy).map _

theorem perm_relationships (hx : Settled w x) (hy : Settled w y) :
    x.graph.relationships.Perm y.graph.relationships := by
  rw [hx.relationships, hy.relationships]
  exact (hx.perm hy).flatMap_right _

theorem get?_eq (hx : Settled w x) (hy : Settled w y) (k : EntityKey) : x.graph.get? k = y.graph.get? k := by
  ext n
  rw [get?_eq_some_iff, get?_eq_some_iff, (hx.perm_nodes hy).mem_iff]

theorem getRelationship?_eq (hx : Settled w x) (hy : Settled w y) (k : RelationKey) :
    x.graph.getRelationship? k = y.graph.getRelationship? k := by
  ext r
  rw [getRelationship?_eq_some_iff, getRelationship?_eq_some_iff, (hx.perm_relationships hy).mem_iff]

theorem kindCount_eq (hx : Settled w x) (hy : Settled w y) (kind : EntityKind) :
    kindCount kind x.graph.entities = kindCount kind y.graph.entities :=
  (hx.perm hy).countP_eq _

theorem failures_eq (hx : Settled w x) (hy : Settled w y) : x.stats.failures = y.stats.failures := by
  rw [hx.account.tally.failures, hy.account.tally.failures]
  exact (hx.perm hy).countP_eq _

/-! ## Nothing more happens -/

theorem seedUnit (h : Settled w x) (id : UInt32) :
    (x.seedUnit w id).1.graph = x.graph ∧ (x.seedUnit w id).1.stats = x.stats := by
  cases hu : w.units.get? id with
  | none =>
    rw [Explorer.seedUnit_of_none hu]
    exact ⟨rfl, rfl⟩
  | some u =>
    have graph : (x.seedUnit w id).1.graph = x.graph := by
      rw [Explorer.graph_seedUnit hu]
      apply registerAll_of_subset
      intro e he
      exact h.mem_keys_of_reachable (Account.genuine_of_mem_unitEntities hu he).reachable
    have seeded := Explorer.seeded_seedUnit hu x
    rw [graph, Nat.add_right_cancel_iff] at seeded
    exact ⟨graph, by rw [Explorer.stats_seedUnit, seeded]⟩

/-- What is settled is told by the graph and the counts. -/
theorem of_eq (h : Settled w x) (graph : y.graph = x.graph) (stats : y.stats = x.stats) : Settled w y := by
  have account := h.account
  refine ⟨⟨?_, ?_, ?_, ?_, ?_⟩, ?_, ?_⟩
  · simpa only [graph] using account.shape
  · simpa only [graph, stats] using account.tally
  · simpa only [graph] using account.genuine
  · simpa only [graph] using account.closed
  · simpa only [graph] using account.whole
  · simpa only [graph] using h.frontier
  · simpa only [Covers, graph] using h.covers

theorem seedUnits (h : Settled w x) (ids : List UInt32) :
    (ids.foldl (fun x id => (x.seedUnit w id).1) x).graph = x.graph ∧
      (ids.foldl (fun x id => (x.seedUnit w id).1) x).stats = x.stats := by
  induction ids generalizing x with
  | nil => exact ⟨rfl, rfl⟩
  | cons id ids ih =>
    obtain ⟨graph, stats⟩ := h.seedUnit id
    obtain ⟨graph', stats'⟩ := ih (h.of_eq graph stats)
    exact ⟨graph'.trans graph, stats'.trans stats⟩

/-- A settled explorer stays as it is, whatever is asked of it. -/
theorem perform (h : Settled w x) (call : Call) :
    (x.perform w call).graph = x.graph ∧ (x.perform w call).stats = x.stats := by
  cases call with
  | seed =>
    rw [Explorer.perform, Explorer.seed_fst]
    exact h.seedUnits _
  | seedUnit id => exact h.seedUnit id
  | run =>
    rw [Explorer.perform, Explorer.run_of_frontier_nil h.frontier]
    exact ⟨rfl, rfl⟩

theorem performAll (h : Settled w x) (calls : List Call) :
    (x.performAll w calls).graph = x.graph ∧ (x.performAll w calls).stats = x.stats := by
  induction calls generalizing x with
  | nil => exact ⟨rfl, rfl⟩
  | cons call calls ih =>
    obtain ⟨graph, stats⟩ := h.perform call
    obtain ⟨graph', stats'⟩ := ih (h.of_eq graph stats)
    exact ⟨graph'.trans graph, stats'.trans stats⟩

end Settled

/-- **Discovery in pieces.** Calls in any order that seed every unit and end with a run come to the graph and to the counts
of a discovery at once, and no further call changes anything. Only the order of registration and the number of waves may
be different. -/
theorem performAll_settles (w : World) (calls : List Call) (covering : Covering w calls) :
    let x := ({} : Explorer).performAll w (calls ++ [.run])
    (∀ k, x.graph.get? k = (discover w).graph.get? k) ∧
      (∀ k, x.graph.getRelationship? k = (discover w).graph.getRelationship? k) ∧
      x.stats.seeded = (discover w).stats.seeded ∧
      x.stats.nodesEnriched = (discover w).stats.nodesEnriched ∧
      x.stats.symbolsEnriched = (discover w).stats.symbolsEnriched ∧
      x.stats.typesEnriched = (discover w).stats.typesEnriched ∧
      x.stats.failures = (discover w).stats.failures ∧
      ∀ more, (x.performAll w more).graph = x.graph ∧ (x.performAll w more).stats = x.stats := by
  intro x
  have hx : Settled w x := by
    rw [show x = _ from Explorer.performAll_append w {} calls [.run]]
    exact settled_run covering
  have hy := settled_discover w
  have tally := hx.account.tally
  have tally' := hy.account.tally
  refine ⟨hx.get?_eq hy, hx.getRelationship?_eq hy, ?_, ?_, ?_, ?_, hx.failures_eq hy, hx.performAll⟩
  · exact tally.seeded.trans ((hx.kindCount_eq hy _).trans tally'.seeded.symm)
  · exact tally.nodes.trans ((hx.kindCount_eq hy _).trans tally'.nodes.symm)
  · exact tally.symbols.trans ((hx.kindCount_eq hy _).trans tally'.symbols.symm)
  · exact tally.types.trans ((hx.kindCount_eq hy _).trans tally'.types.symm)

/-- A unit of a root and a name under it. -/
def nameUnit : SourceUnit :=
  { nodes := #[{ kind := "CompilationUnit" }, { kind := "NameExpr", parent := some 0, resolvable := true }] }

theorem validate_nameUnit : nameUnit.validate = .ok () := by
  decide +kernel

/-- Two units with a name each. Both names stand for one method, and its return type is declared by the method itself. -/
def knot : World where
  units := (Units.empty.insert 0 nameUnit (by decide +kernel)).insert 1 nameUnit (by decide +kernel)
  lookup :=
    { resolve := fun _ => .ok ⟨0⟩
      declaration := fun _ => .ok { name := "self", category := .method }
      returnType := fun _ => .ok ⟨0⟩
      valueType := fun _ => .error { kind := .unresolved }
      resolvedType := fun _ => .ok { description := "Self", category := .reference }
      typeDeclaration := fun _ => some ⟨0⟩ }

theorem node?_knot : ∃ n, knot.units.node? ⟨0, 1⟩ = some n ∧ n.resolvable = true := by
  refine ⟨{ kind := "NameExpr", parent := some 0, resolvable := true }, ?_, rfl⟩
  rw [Units.node?_eq_some_iff]
  exact ⟨nameUnit, by simp [knot, Units.get?_insert], rfl⟩

/-- The units of the knot in the wrong order, one of them twice, with a run and an unknown number in between. -/
def pieces : List Call :=
  [.seedUnit 1, .run, .seedUnit 7, .seedUnit 0, .seedUnit 1]

theorem covering_pieces : Covering knot pieces := by
  intro id u found
  rw [knot, Units.get?_insert, Units.get?_insert, Units.get?_empty] at found
  split at found
  · simp [pieces, *]
  · split at found
    · simp_all [pieces]
    · cases found

theorem performAll_settles_knot :
    Covering knot pieces ∧
      ∀ k, (({} : Explorer).performAll knot (pieces ++ [.run])).graph.get? k = (discover knot).graph.get? k :=
  ⟨covering_pieces, (performAll_settles knot pieces covering_pieces).1⟩

end ProgramGraph.Discovery
