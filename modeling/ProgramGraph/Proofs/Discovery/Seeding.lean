import ProgramGraph.Discovery.Explorer
import ProgramGraph.Proofs.Discovery.Reachability
import ProgramGraph.Proofs.Graph.Basic

/-!
# ProgramGraph.Proofs.Discovery.Seeding

What seeding makes known.

* `unitEntities`   — the entities of the nodes of a unit. A node whose place does not fit into 32 bits shares its key with
  an earlier one and adds nothing.
* `keys_unitEntities` — so they have one key for each place of the unit.
* `graph_seedUnit` — seeding a unit makes these known and does nothing else to the graph.
* `seeded_seedUnit` — what seeding counts is by how many entities the graph grows.
* `seed_fst`       — seeding everything is seeding one unit after the other.
-/

namespace ProgramGraph.Discovery

open Program ProgramGraph.Graph

namespace Explorer

theorem getElem?_placedNodes (u : SourceUnit) (i : Nat) :
    (placedNodes u)[i]? = (u.nodes[i]?).map fun n => (i, n) := by
  rw [placedNodes, List.zip, List.getElem?_zipWith, Array.getElem?_toList]
  by_cases h : i < u.nodes.size
  · simp [h]
  · simp [h]

/-- The entity of a node at its place in a unit. -/
def placedEntity (id : UInt32) (node : Nat × SourceNode) : Entity :=
  .ofNode ⟨id, UInt32.ofNat node.1⟩ node.2.kind

/-- The entities of the nodes of a unit. -/
def unitEntities (id : UInt32) (u : SourceUnit) : List Entity :=
  ((placedNodes u).take UInt32.size).map (placedEntity id)

theorem mem_unitEntities {id : UInt32} {u : SourceUnit} {e : Entity} :
    e ∈ unitEntities id u ↔ ∃ i n, u.node? i = some n ∧ e = .ofNode ⟨id, i⟩ n.kind := by
  rw [unitEntities, List.mem_map]
  constructor
  · rintro ⟨⟨j, n⟩, mem, rfl⟩
    obtain ⟨k, hk⟩ := List.mem_iff_getElem?.mp mem
    rw [List.getElem?_take] at hk
    split at hk
    · rename_i small
      rw [getElem?_placedNodes, Option.map_eq_some_iff] at hk
      obtain ⟨_, hn, same⟩ := hk
      cases same
      refine ⟨UInt32.ofNat j, n, ?_, rfl⟩
      rw [SourceUnit.node?, UInt32.toNat_ofNat_of_lt' small]
      exact hn
    · cases hk
  · rintro ⟨i, n, hn, rfl⟩
    refine ⟨(i.toNat, n), List.mem_iff_getElem?.mpr ⟨i.toNat, ?_⟩, ?_⟩
    · have hn' : u.nodes[i.toNat]? = some n := hn
      rw [List.getElem?_take, if_pos i.toNat_lt, getElem?_placedNodes, hn']
      rfl
    · rw [placedEntity, UInt32.ofNat_toNat]

theorem mem_keys_unitEntities {id : UInt32} {u : SourceUnit} {k : EntityKey} :
    k ∈ (unitEntities id u).map Entity.key ↔ ∃ i n, u.node? i = some n ∧ k = .node ⟨id, i⟩ := by
  rw [List.mem_map]
  constructor
  · rintro ⟨e, he, rfl⟩
    obtain ⟨i, n, hn, rfl⟩ := mem_unitEntities.mp he
    exact ⟨i, n, hn, rfl⟩
  · rintro ⟨i, n, hn, rfl⟩
    exact ⟨_, mem_unitEntities.mpr ⟨i, n, hn, rfl⟩, rfl⟩

theorem keys_unitEntities (id : UInt32) (u : SourceUnit) :
    (unitEntities id u).map Entity.key = (List.range u.placeCount).map fun i => .node ⟨id, UInt32.ofNat i⟩ := by
  have places : ((placedNodes u).take UInt32.size).map Prod.fst = List.range u.placeCount := by
    rw [List.map_take, placedNodes, List.map_fst_zip (by simp), List.take_range, Nat.min_comm]
    rfl
  rw [unitEntities, List.map_map, ← places, List.map_map]
  rfl

theorem nodup_keys_unitEntities (id : UInt32) (u : SourceUnit) : ((unitEntities id u).map Entity.key).Nodup := by
  rw [keys_unitEntities]
  refine List.Nodup.map_on ?_ List.nodup_range
  intro i hi j hj same
  have place : ∀ k ∈ List.range u.placeCount, (UInt32.ofNat k).toNat = k := by
    intro k hk
    exact UInt32.toNat_ofNat_of_lt' (Nat.lt_of_lt_of_le (List.mem_range.mp hk) (Nat.min_le_right _ _))
  simp only [EntityKey.node.injEq, NodeRef.mk.injEq, true_and] at same
  rw [← place i hi, same, place j hj]

theorem length_unitEntities (id : UInt32) (u : SourceUnit) : (unitEntities id u).length = u.placeCount := by
  rw [← List.length_map Entity.key, keys_unitEntities, List.length_map, List.length_range]

/-- A node beyond the last place of 32 bits has the key of a node before it. -/
theorem key_placedEntity_of_mem {id : UInt32} {u : SourceUnit} {node : Nat × SourceNode} (h : node ∈ placedNodes u) :
    (placedEntity id node).key ∈ (unitEntities id u).map Entity.key := by
  obtain ⟨k, hk⟩ := List.mem_iff_getElem?.mp h
  rw [getElem?_placedNodes, Option.map_eq_some_iff] at hk
  obtain ⟨n, hn, rfl⟩ := hk
  obtain ⟨inside, _⟩ := Array.getElem?_eq_some_iff.mp hn
  have earlier : (UInt32.ofNat k).toNat < u.nodes.size := by
    rw [UInt32.toNat_ofNat']
    exact Nat.lt_of_le_of_lt (Nat.mod_le _ _) inside
  have found : u.node? (UInt32.ofNat k) = some u.nodes[(UInt32.ofNat k).toNat] := Array.getElem?_eq_getElem earlier
  exact mem_keys_unitEntities.mpr ⟨_, _, found, rfl⟩

theorem registerAll_placedNodes (g : Graph) (id : UInt32) (u : SourceUnit) :
    g.registerAll ((placedNodes u).map (placedEntity id)) = g.registerAll (unitEntities id u) := by
  have split := List.take_append_drop UInt32.size (placedNodes u)
  rw [← split, List.map_append, registerAll_append, ← unitEntities]
  -- places beyond 32 bits wrap around to keys that are known by then
  apply registerAll_of_subset
  intro e he
  obtain ⟨node, mem, rfl⟩ := List.mem_map.mp he
  exact mem_keys_registerAll.mpr (.inr (key_placedEntity_of_mem (List.mem_of_mem_drop mem)))

theorem seedNode_eq (id : UInt32) (g : Graph) (n : Nat) (node : Nat × SourceNode) :
    seedNode id (g, n) node =
      (g.register (placedEntity id node), if (placedEntity id node).key ∈ g.keys then n else n + 1) := by
  simp only [seedNode, ← contains_iff]
  rfl

theorem foldl_seedNode (id : UInt32) (nodes : List (Nat × SourceNode)) (g : Graph) (n : Nat) :
    (nodes.foldl (seedNode id) (g, n)).1 = g.registerAll (nodes.map (placedEntity id)) ∧
      (nodes.foldl (seedNode id) (g, n)).2 + g.nodeCount =
        n + (g.registerAll (nodes.map (placedEntity id))).nodeCount := by
  induction nodes generalizing g n with
  | nil => exact ⟨rfl, rfl⟩
  | cons node nodes ih =>
    rw [List.foldl_cons, List.map_cons, registerAll_cons, seedNode_eq]
    obtain ⟨graph, count⟩ :=
      ih (g.register (placedEntity id node)) (if (placedEntity id node).key ∈ g.keys then n else n + 1)
    refine ⟨graph, ?_⟩
    by_cases known : (placedEntity id node).key ∈ g.keys
    · rw [nodeCount_register, if_pos known, if_pos known] at count
      rwa [if_pos known]
    · rw [nodeCount_register, if_neg known, if_neg known] at count
      rw [if_neg known]
      omega

/-! ## Seeding a unit -/

theorem seedUnit_of_none {w : World} {id : UInt32} (h : w.units.get? id = none) (x : Explorer) :
    (x.seedUnit w id).1 = x.log (.unitUnknown id) := by
  rw [seedUnit, h]

theorem graph_seedUnit {w : World} {id : UInt32} {u : SourceUnit} (h : w.units.get? id = some u) (x : Explorer) :
    (x.seedUnit w id).1.graph = x.graph.registerAll (unitEntities id u) := by
  rw [seedUnit, h, ← registerAll_placedNodes]
  exact (foldl_seedNode id (placedNodes u) x.graph 0).1

/-- What seeding a unit counts is by how many entities the graph grows. -/
theorem seeded_seedUnit {w : World} {id : UInt32} {u : SourceUnit} (h : w.units.get? id = some u) (x : Explorer) :
    (x.seedUnit w id).1.stats.seeded + x.graph.nodeCount =
      x.stats.seeded + (x.seedUnit w id).1.graph.nodeCount := by
  have count := (foldl_seedNode id (placedNodes u) x.graph 0).2
  rw [graph_seedUnit h, ← registerAll_placedNodes, seedUnit, h]
  simp only [log]
  omega

theorem stats_seedUnit (w : World) (id : UInt32) (x : Explorer) :
    (x.seedUnit w id).1.stats = { x.stats with seeded := (x.seedUnit w id).1.stats.seeded } := by
  rw [seedUnit]
  split <;> rfl

/-- Seeding everything is seeding one unit after the other. -/
theorem seed_fst (w : World) (x : Explorer) :
    (x.seed w).1 = (w.units.toList.map Prod.fst).foldl (fun x id => (x.seedUnit w id).1) x := by
  rw [seed, List.foldl_map]
  generalize (0 : Nat) = n
  induction w.units.toList generalizing x n with
  | nil => rfl
  | cons unit units ih => exact ih _ _

theorem mem_units_iff {w : World} {id : UInt32} :
    id ∈ w.units.toList.map Prod.fst ↔ ∃ u, w.units.get? id = some u := by
  rw [List.mem_map]
  constructor
  · rintro ⟨⟨id', u⟩, mem, rfl⟩
    exact ⟨u, Std.ExtTreeMap.mem_toList_iff_getElem?_eq_some.mp mem⟩
  · rintro ⟨u, hu⟩
    exact ⟨(id, u), Std.ExtTreeMap.mem_toList_iff_getElem?_eq_some.mpr hu, rfl⟩

end Explorer
end ProgramGraph.Discovery
