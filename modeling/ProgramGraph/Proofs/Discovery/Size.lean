import Mathlib.Data.List.Perm.Subperm
import ProgramGraph.Proofs.Discovery.Settled
import ProgramGraph.Proofs.Discovery.Waves
import ProgramGraph.Proofs.Program.Tables

/-!
# ProgramGraph.Proofs.Discovery.Size

How large a graph can become, and how many waves it takes.

* `kindCount_le_length` — there are no more entities of a kind than keys that they could have.
* `length_nodeKeys_le`  — no more syntax nodes than nodes of units.
* `mem_namedDeclarations_of_reachable`, `lt_length_of_reachable` — over recorded tables only declarations are reached that
  a binding or a type names, and only types that are in the table of types, whatever cycles there are.
* `discover_bounded`    — so the tables bound the graph and the number of waves.
-/

namespace ProgramGraph.Discovery

open Program ProgramGraph.Graph

theorem kindCount_le_length {g : Graph} {kind : EntityKind} {keys : List EntityKey}
    (possible : ∀ k ∈ g.keys, k.kind = kind → k ∈ keys) : kindCount kind g.entities ≤ keys.length := by
  have count : kindCount kind g.entities = (g.keys.filter fun k => k.kind = kind).length := by
    rw [← map_key_entities, ← List.countP_eq_length_filter, List.countP_map]
    rfl
  rw [count]
  -- a key is registered once, so the keys of a kind fit into any list that has all of them
  refine ((g.nodup_keys.filter _).subperm ?_).length_le
  intro k hk
  obtain ⟨known, same⟩ := List.mem_filter.mp hk
  exact possible k known (of_decide_eq_true same)

/-! ## Syntax nodes -/

/-- The keys of the nodes of all units. -/
def nodeKeys (s : Units) : List EntityKey :=
  s.toList.flatMap fun unit => (Explorer.unitEntities unit.1 unit.2).map Entity.key

theorem mem_nodeKeys {w : World} {ref : NodeRef} {n : SourceNode} (hn : w.units.node? ref = some n) :
    .node ref ∈ nodeKeys w.units := by
  obtain ⟨u, hu, hnode⟩ := Units.node?_eq_some_iff.mp hn
  have unit : (ref.unit, u) ∈ w.units.toList := Std.ExtTreeMap.mem_toList_iff_getElem?_eq_some.mpr hu
  exact List.mem_flatMap.mpr ⟨_, unit, Explorer.mem_keys_unitEntities.mpr ⟨ref.node, n, hnode, rfl⟩⟩

theorem length_nodeKeys_le (s : Units) : (nodeKeys s).length ≤ s.nodeTotal := by
  rw [nodeKeys, Units.nodeTotal]
  induction s.toList with
  | nil => exact Nat.le_refl 0
  | cons unit units ih =>
    have first : unit.2.placeCount ≤ unit.2.nodes.size := Nat.min_le_left _ _
    simp only [List.flatMap_cons, List.length_append, List.length_map, Explorer.length_unitEntities, Array.length_toList]
    omega

theorem nodesEnriched_le (w : World) : (discover w).stats.nodesEnriched ≤ w.units.nodeTotal := by
  have settled := settled_discover w
  rw [settled.account.tally.nodes]
  refine Nat.le_trans (kindCount_le_length ?_) (length_nodeKeys_le w.units)
  intro k hk kind
  cases k with
  | node ref =>
    obtain ⟨n, hn⟩ := (settled.mem_keys_iff.mp hk).node?_isSome rfl
    exact mem_nodeKeys hn
  | symbol d => cases kind
  | type t => cases kind

/-! ## Recorded tables -/

section

variable {units : Units} {declarations : List DeclarationRecord} {types : List TypeRecord}
  {bindings : List BindingRecord} {options : Options}

theorem mem_namedDeclarations_of_reachable {d : DeclId}
    (h : Reachable ⟨units, (Tables.ofRecords declarations types bindings).lookup, options⟩ (.symbol d)) :
    d ∈ namedDeclarations types bindings := by
  cases h with
  | step _ leads =>
    cases leads with
    | resolved _ _ hd => exact Tables.mem_namedDeclarations_of_resolve hd
    | declared _ _ hd => exact Tables.mem_namedDeclarations_of_typeDeclaration hd

theorem lt_length_of_reachable {t : TypeId}
    (h : Reachable ⟨units, (Tables.ofRecords declarations types bindings).lookup, options⟩ (.type t)) :
    t.index.toNat < types.length := by
  cases h with
  | step _ leads =>
    cases leads with
    | returned _ _ ht => exact Tables.lt_size_of_returnType ht
    | valued _ _ ht => exact Tables.lt_size_of_valueType ht

theorem symbolsEnriched_le :
    (discover ⟨units, (Tables.ofRecords declarations types bindings).lookup, options⟩).stats.symbolsEnriched ≤
      (namedDeclarations types bindings).card := by
  have settled := settled_discover ⟨units, (Tables.ofRecords declarations types bindings).lookup, options⟩
  rw [settled.account.tally.symbols, ← Finset.length_toList, ← List.length_map EntityKey.symbol]
  apply kindCount_le_length
  intro k hk kind
  cases k with
  | node ref => cases kind
  | symbol d =>
    have named := mem_namedDeclarations_of_reachable (settled.mem_keys_iff.mp hk)
    exact List.mem_map_of_mem (Finset.mem_toList.mpr named)
  | type t => cases kind

theorem typesEnriched_le :
    (discover ⟨units, (Tables.ofRecords declarations types bindings).lookup, options⟩).stats.typesEnriched ≤
      types.length := by
  have settled := settled_discover ⟨units, (Tables.ofRecords declarations types bindings).lookup, options⟩
  rw [settled.account.tally.types, ← List.length_range (n := types.length),
    ← List.length_map fun i => EntityKey.type ⟨UInt32.ofNat i⟩]
  apply kindCount_le_length
  intro k hk kind
  cases k with
  | node ref => cases kind
  | symbol d => cases kind
  | type t =>
    have inside := lt_length_of_reachable (settled.mem_keys_iff.mp hk)
    refine List.mem_map.mpr ⟨t.index.toNat, List.mem_range.mpr inside, ?_⟩
    rw [UInt32.ofNat_toNat]

end

/-- **Discovery over recorded tables ends, and the tables bound it.** From the seeded nodes a number of waves leads to an
empty frontier, and there the discovery stops. There are at most as many waves as symbols and types, and one more; at most
as many symbols as declarations that bindings and types name, and at most as many types as are recorded, whatever the
tables say about them. -/
theorem discover_bounded (units : Units) (declarations : List DeclarationRecord) (types : List TypeRecord)
    (bindings : List BindingRecord) (options : Options) :
    let w : World := ⟨units, (Tables.ofRecords declarations types bindings).lookup, options⟩
    let x := discover w
    (∃ last, last = (Explorer.wave w)^[x.stats.waves] (({} : Explorer).seed w).1 ∧
        last.graph.frontier = [] ∧ x = last.conclude) ∧
      x.stats.waves ≤ 1 + x.stats.symbolsEnriched + x.stats.typesEnriched ∧
      x.stats.symbolsEnriched ≤ (namedDeclarations types bindings).card ∧
      x.stats.typesEnriched ≤ types.length ∧
      x.graph.nodeCount ≤ units.nodeTotal + (namedDeclarations types bindings).card + types.length ∧
      ∀ t, .type t ∈ x.graph.keys → t.index.toNat < types.length := by
  intro w x
  have settled := settled_discover w
  have nodes : x.stats.nodesEnriched ≤ units.nodeTotal := nodesEnriched_le w
  have symbols : x.stats.symbolsEnriched ≤ (namedDeclarations types bindings).card := symbolsEnriched_le
  have types' : x.stats.typesEnriched ≤ types.length := typesEnriched_le
  refine ⟨?_, waves_discover_le w, symbols, types', ?_, ?_⟩
  · obtain ⟨n, run, frontier, waves⟩ := run_eq_iterate w (({} : Explorer).seed w).1
    rw [waves_seed, Nat.zero_add] at waves
    have count : x.stats.waves = n := waves
    exact ⟨_, rfl, by rwa [count], by rw [count]; exact run⟩
  · have tally := settled.account.tally
    have size : x.graph.nodeCount = x.stats.nodesEnriched + x.stats.symbolsEnriched + x.stats.typesEnriched := by
      rw [← length_entities, length_eq_kindCounts, tally.nodes, tally.symbols, tally.types]
    omega
  · intro t known
    exact lt_length_of_reachable (settled.mem_keys_iff.mp known)

end ProgramGraph.Discovery
