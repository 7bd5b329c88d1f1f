import ProgramGraph.Proofs.Discovery.Account

/-!
# ProgramGraph.Proofs.Discovery.Settled

What a discovery comes to when nothing waits and every unit has been seeded.

* `Move.keys_subset`   — what is known stays known.
* `Covering`           — calls that seed every unit, in one way or another.
* `Settled`            — nothing waits, and every syntax node is known.
* `Settled.mem_keys_iff` — then the known keys are the reachable ones.
* `Settled.get?_of_reachable`, `Settled.getRelationship?_of_related` — what the graph holds under a key.
* `settled_performAll` — covering calls that end with a run settle an explorer, and so does `discover`.
-/

namespace ProgramGraph.Discovery

open Program ProgramGraph.Graph Relation

/-! ## What is known stays known -/

theorem keys_subset_seedUnit (w : World) (id : UInt32) (x : Explorer) :
    x.graph.keys ⊆ (x.seedUnit w id).1.graph.keys := by
  intro k hk
  cases hu : w.units.get? id with
  | none =>
    rw [Explorer.seedUnit_of_none hu]
    exact hk
  | some u =>
    rw [Explorer.graph_seedUnit hu]
    exact mem_keys_registerAll.mpr (.inl hk)

theorem Move.keys_subset {w : World} {p q : Point} (m : Move w p q) :
    p.explorer.graph.keys ⊆ q.explorer.graph.keys := by
  cases m with
  | seedUnit x done id => exact keys_subset_seedUnit w id x
  | drain x done some_left => exact fun _ hk => hk
  | enrich x e rest done => exact Enrichment.keys_subset_addTo x.graph e (describe w e)
  | conclude x done none_left => exact fun _ hk => hk

theorem Reaches.keys_subset {w : World} {p q : Point} (h : Reaches w p q) :
    p.explorer.graph.keys ⊆ q.explorer.graph.keys := by
  induction h with
  | refl => exact fun _ hk => hk
  | tail _ m ih => exact fun _ hk => m.keys_subset (ih hk)

theorem keys_subset_performAll (w : World) (calls : List Call) (x : Explorer) :
    x.graph.keys ⊆ (x.performAll w calls).graph.keys := by
  obtain ⟨done, path⟩ := reaches_performAll w calls x []
  exact path.keys_subset

/-! ## Seeding every unit -/

/-- Calls that seed every unit. -/
def Covering (w : World) (calls : List Call) : Prop :=
  ∀ id u, w.units.get? id = some u → .seed ∈ calls ∨ .seedUnit id ∈ calls

/-- Every syntax node is known. -/
def Covers (w : World) (x : Explorer) : Prop :=
  ∀ ref n, w.units.node? ref = some n → .node ref ∈ x.graph.keys

theorem mem_keys_seedUnit {w : World} {ref : NodeRef} {n : SourceNode} (hn : w.units.node? ref = some n) (x : Explorer) :
    .node ref ∈ (x.seedUnit w ref.unit).1.graph.keys := by
  obtain ⟨u, hu, hnode⟩ := Units.node?_eq_some_iff.mp hn
  rw [Explorer.graph_seedUnit hu]
  refine mem_keys_registerAll.mpr (.inr ?_)
  exact Explorer.mem_keys_unitEntities.mpr ⟨_, _, hnode, rfl⟩

theorem mem_keys_seed {w : World} {ref : NodeRef} {n : SourceNode} (hn : w.units.node? ref = some n) (x : Explorer) :
    .node ref ∈ (x.seed w).1.graph.keys := by
  obtain ⟨u, hu, _⟩ := Units.node?_eq_some_iff.mp hn
  obtain ⟨before, after, split⟩ := List.append_of_mem (Explorer.mem_units_iff.mpr ⟨u, hu⟩)
  rw [Explorer.seed_fst, split, List.foldl_append, List.foldl_cons]
  exact (reaches_seedUnits w after _ []).keys_subset (mem_keys_seedUnit hn _)

theorem covers_performAll {w : World} {calls : List Call} (covering : Covering w calls) (x : Explorer) :
    Covers w (x.performAll w calls) := by
  intro ref n hn
  obtain ⟨u, hu, _⟩ := Units.node?_eq_some_iff.mp hn
  obtain ⟨call, mem, here⟩ : ∃ call ∈ calls, ∀ y : Explorer, .node ref ∈ (y.perform w call).graph.keys := by
    rcases covering ref.unit u hu with mem | mem
    · exact ⟨_, mem, mem_keys_seed hn⟩
    · exact ⟨_, mem, mem_keys_seedUnit hn⟩
  obtain ⟨before, after, rfl⟩ := List.append_of_mem mem
  -- the calls before this one do not matter, and those after it forget nothing
  rw [Explorer.performAll_append]
  exact keys_subset_performAll w after _ (here _)

/-! ## Settled explorers -/

/-- Nothing waits, and every syntax node is known. -/
structure Settled (w : World) (x : Explorer) : Prop where
  account : Account w ⟨x, [], x.graph.entities⟩
  frontier : x.graph.frontier = []
  covers : Covers w x

/-- When nothing waits, everything known has been enriched. -/
theorem Account.enriched_eq {w : World} {x : Explorer} {done : List Entity} (h : Account w ⟨x, [], done⟩)
    (nothing : x.graph.frontier = []) : done = x.graph.entities := by
  have all := h.entities
  rw [Point.pending, nothing, List.append_nil, List.append_nil] at all
  exact all.symm

theorem account_run (w : World) (calls : List Call) :
    Account w ⟨(({} : Explorer).performAll w calls).run w, [],
      ((({} : Explorer).performAll w calls).run w).graph.entities⟩ := by
  obtain ⟨done, path⟩ := reaches_performAll w (calls ++ [.run]) {} []
  have account := account_of_reaches path
  rw [Explorer.performAll_append] at account
  rwa [account.enriched_eq (Explorer.frontier_run w _)] at account

/-- Covering calls and a run settle an explorer. -/
theorem settled_run {w : World} {calls : List Call} (covering : Covering w calls) :
    Settled w ((({} : Explorer).performAll w calls).run w) where
  account := account_run w calls
  frontier := Explorer.frontier_run w _
  covers := fun ref n hn => keys_subset_performAll w [.run] _ (covers_performAll covering {} ref n hn)

theorem covering_seed (w : World) : Covering w [.seed] :=
  fun _ _ _ => .inl List.mem_cons_self

theorem settled_discover (w : World) : Settled w (discover w) := by
  rw [discover_eq]
  exact settled_run (covering_seed w)

namespace Settled

variable {w : World} {x : Explorer}

theorem nodes (h : Settled w x) : x.graph.nodes = x.graph.entities.map fun e => (e, (describe w e).bag) := by
  have nodes := h.account.shape.nodes
  rw [h.frontier] at nodes
  simpa using nodes

theorem relationships (h : Settled w x) :
    x.graph.relationships = x.graph.entities.flatMap fun e => (describe w e).relationships :=
  h.account.shape.relationships

theorem mem_keys_of_reachable (h : Settled w x) {k : EntityKey} (reachable : Reachable w k) : k ∈ x.graph.keys := by
  induction reachable with
  | node hn => exact h.covers _ _ hn
  | step _ leads ih =>
    -- the key before was enriched, since nothing waits, and what it found is known
    rw [← map_key_entities] at ih
    obtain ⟨e, he, rfl⟩ := List.mem_map.mp ih
    obtain ⟨e', found, rfl⟩ := found_of_leads leads
    exact h.account.closed e he e' found

/-- The known keys are the reachable ones. -/
theorem mem_keys_iff (h : Settled w x) {k : EntityKey} : k ∈ x.graph.keys ↔ Reachable w k := by
  constructor
  · intro hk
    rw [← map_key_entities] at hk
    obtain ⟨e, he, rfl⟩ := List.mem_map.mp hk
    exact (h.account.genuine e he).reachable
  · exact h.mem_keys_of_reachable

theorem mem_entities_iff (h : Settled w x) {e : Entity} : e ∈ x.graph.entities ↔ Genuine w e := by
  constructor
  · exact h.account.genuine e
  · intro genuine
    have hk := h.mem_keys_of_reachable genuine.reachable
    rw [← map_key_entities] at hk
    obtain ⟨e', he', same⟩ := List.mem_map.mp hk
    rw [genuine.canonical, ← same, ← (h.account.genuine e' he').canonical]
    exact he'

/-- Every entity holds what it says about itself. -/
theorem genuine_of_mem_nodes (h : Settled w x) {e : Entity} {bag : Bag} (mem : (e, bag) ∈ x.graph.nodes) :
    Genuine w e ∧ bag = (describe w e).bag := by
  have known : e ∈ x.graph.entities := List.mem_map.mpr ⟨_, mem, rfl⟩
  rw [h.nodes, List.mem_map] at mem
  obtain ⟨_, _, same⟩ := mem
  cases same
  exact ⟨h.mem_entities_iff.mp known, rfl⟩

/-- The relationships are those of the world, with the labels of the world. -/
theorem mem_relationships_iff (h : Settled w x) {r : Relationship} {bag : Bag} :
    (r, bag) ∈ x.graph.relationships ↔
      Related w r.key bag ∧ r.source = w.entity r.source.key ∧ r.target = w.entity r.target.key := by
  rw [h.relationships, List.mem_flatMap]
  constructor
  · rintro ⟨e, he, hr⟩
    have genuine := h.account.genuine e he
    obtain ⟨related, source, target⟩ := (Discovery.mem_relationships_iff genuine).mp hr
    exact ⟨related, source ▸ genuine.canonical, target⟩
  · rintro ⟨related, source, target⟩
    have genuine : Genuine w r.source := ⟨related.reachable_source, source⟩
    exact ⟨_, h.mem_entities_iff.mpr genuine, (Discovery.mem_relationships_iff genuine).mpr ⟨related, rfl, target⟩⟩

theorem ends (h : Settled w x) {r : Relationship} {bag : Bag} (mem : (r, bag) ∈ x.graph.relationships) :
    r.source ∈ x.graph.entities ∧ r.target ∈ x.graph.entities := by
  obtain ⟨related, source, target⟩ := h.mem_relationships_iff.mp mem
  exact ⟨h.mem_entities_iff.mpr ⟨related.reachable_source, source⟩,
    h.mem_entities_iff.mpr ⟨related.reachable_target, target⟩⟩

/-! ### The graph as a map -/

theorem get?_of_reachable (h : Settled w x) {k : EntityKey} (reachable : Reachable w k) :
    x.graph.get? k = some (w.entity k, (describe w (w.entity k)).bag) := by
  rw [get?_eq_some_iff, h.nodes, List.mem_map]
  exact ⟨⟨w.entity k, h.mem_entities_iff.mpr (.of_key reachable), rfl⟩, World.key_entity w k⟩

theorem mem_relationships_of_related (h : Settled w x) {k : RelationKey} {bag : Bag} (related : Related w k bag) :
    (w.relationship k, bag) ∈ x.graph.relationships := by
  refine h.mem_relationships_iff.mpr ⟨?_, ?_, ?_⟩
  · rwa [World.key_relationship]
  · rw [World.relationship, World.key_entity]
  · rw [World.relationship, World.key_entity]

theorem getRelationship?_of_related (h : Settled w x) {k : RelationKey} {bag : Bag} (related : Related w k bag) :
    x.graph.getRelationship? k = some (w.relationship k, bag) :=
  getRelationship?_eq_some_iff.mpr ⟨h.mem_relationships_of_related related, World.key_relationship w k⟩

theorem mem_relationKeys_iff (h : Settled w x) {k : RelationKey} :
    k ∈ x.graph.relationKeys ↔ ∃ bag, Related w k bag := by
  rw [← map_key_relationships, List.mem_map]
  constructor
  · rintro ⟨⟨r, bag⟩, mem, rfl⟩
    exact ⟨bag, (h.mem_relationships_iff.mp mem).1⟩
  · rintro ⟨bag, related⟩
    exact ⟨_, h.mem_relationships_of_related related, World.key_relationship w k⟩

end Settled
end ProgramGraph.Discovery
