import ProgramGraph.Proofs.Discovery.Enrichment
import ProgramGraph.Proofs.Discovery.Run

/-!
# ProgramGraph.Proofs.Discovery.Account

The invariant of a discovery: what a graph is, given what has been enriched and what waits.

* `Shape`   — the graph as a list: enriched entities with the bag of their own contribution, then waiting ones with empty
  bags; the relationships are those of the enriched ones, in their order.
* `Tally`   — the counts of an explorer, in terms of the same two lists.
* `Account` — both, and: every known entity is genuine, what an enriched entity finds is known, and of a unit either all
  nodes are known or none.
* `account_of_reaches` — every point of a discovery satisfies it.
-/

namespace ProgramGraph.Discovery

open Program ProgramGraph.Graph Relation

/-- How many of some entities have a given kind. -/
def kindCount (kind : EntityKind) (es : List Entity) : Nat :=
  es.countP fun e => e.key.kind = kind

theorem kindCount_append (kind : EntityKind) (es es' : List Entity) :
    kindCount kind (es ++ es') = kindCount kind es + kindCount kind es' :=
  List.countP_append

theorem length_eq_kindCounts (es : List Entity) :
    es.length = kindCount .node es + kindCount .symbol es + kindCount .type es := by
  induction es with
  | nil => rfl
  | cons e es ih =>
    have here : kindCount .node [e] + kindCount .symbol [e] + kindCount .type [e] = 1 := by
      cases h : e.key.kind <;> simp [kindCount, h]
    have split : ∀ kind, kindCount kind (e :: es) = kindCount kind [e] + kindCount kind es :=
      fun kind => kindCount_append kind [e] es
    rw [List.length_cons, split, split, split]
    omega

/-! ## The graph -/

/-- The graph when some entities have been enriched, the rest of a wave waits, and the frontier is `fresh`. -/
structure Shape (w : World) (g : Graph) (done rest fresh : List Entity) : Prop where
  drained : g.drained = done.length + rest.length
  nodes : g.nodes = (done.map fun e => (e, (describe w e).bag)) ++ (rest ++ fresh).map fun e => (e, .empty)
  relationships : g.relationships = done.flatMap fun e => (describe w e).relationships

namespace Shape

variable {w : World} {g : Graph} {done rest fresh : List Entity}

theorem entities (h : Shape w g done rest fresh) : g.entities = done ++ (rest ++ fresh) := by
  rw [Graph.entities, h.nodes, List.map_append, List.map_map, List.map_map]
  congr 1
  · exact List.map_id _
  · exact List.map_id _

theorem frontier (h : Shape w g done rest fresh) : g.frontier = fresh := by
  rw [frontier_eq, h.entities, h.drained, ← List.append_assoc, ← List.length_append, List.drop_left]

protected theorem empty (w : World) : Shape w .empty [] [] [] :=
  ⟨rfl, rfl, rfl⟩

/-- Making entities known makes the frontier longer. -/
theorem registerAll (h : Shape w g done rest fresh) (es : List Entity) :
    ∃ new, Shape w (g.registerAll es) done rest (fresh ++ new) ∧ ∀ e ∈ new, e ∈ es := by
  obtain ⟨new, nodes, hnew⟩ := g.nodes_registerAll es
  refine ⟨new, ⟨?_, ?_, ?_⟩, fun e he => (hnew e he).1⟩
  · rw [drained_registerAll, h.drained]
  · rw [nodes, h.nodes]
    simp only [List.map_append, List.append_assoc]
  · rw [relationships_registerAll, h.relationships]

/-- Draining makes the frontier the next wave. -/
theorem drain (h : Shape w g done [] fresh) : Shape w g.drain.2 done fresh [] := by
  refine ⟨?_, ?_, h.relationships⟩
  · show g.vertices.size = done.length + fresh.length
    have all := congrArg List.length h.entities
    rwa [length_entities, List.length_append] at all
  · show g.nodes = _
    rw [h.nodes, List.append_nil, List.nil_append]

/-- The relationships of an entity that waits are new: those that are known start at entities that do not wait. -/
theorem relationships_new {e : Entity} (h : Shape w g done (e :: rest) fresh) :
    ∀ r ∈ (describe w e).relationships, r.1.key ∉ g.relationKeys := by
  intro r hr known
  rw [← map_key_relationships, h.relationships, List.mem_map] at known
  obtain ⟨r', hr', same⟩ := known
  obtain ⟨e', he', hr'⟩ := List.mem_flatMap.mp hr'
  have sources : e'.key = e.key := by
    rw [← source_of_mem_relationships hr', ← source_of_mem_relationships hr]
    exact congrArg RelationKey.source same
  have nodup := g.nodup_keys
  rw [← map_key_entities, h.entities, List.map_append, List.nodup_append] at nodup
  exact nodup.2.2 _ (List.mem_map_of_mem he') _ (List.mem_map_of_mem List.mem_cons_self) sources

/-- Enriching the next entity of the wave writes its bag, appends its relationships, and makes the frontier longer. -/
theorem enrich {e : Entity} (h : Shape w g done (e :: rest) fresh) (present : (describe w e).missing = none) :
    ∃ new, Shape w ((describe w e).addTo g e) (done ++ [e]) rest (fresh ++ new) ∧
      ∀ e' ∈ new, e' ∈ (describe w e).found ∧ e'.key ∉ g.keys := by
  have split : g.nodes =
      (done.map fun e => (e, (describe w e).bag)) ++ (e, .empty) :: (rest ++ fresh).map fun e => (e, .empty) := h.nodes
  obtain ⟨new, nodes, relationships, hnew⟩ :=
    Enrichment.addTo_of_split present split (nodup_keys_relationships w e) h.relationships_new
  refine ⟨new, ⟨?_, ?_, ?_⟩, hnew⟩
  · rw [Enrichment.drained_addTo, h.drained, List.length_append, List.length_cons, List.length_singleton]
    omega
  · rw [nodes]
    simp only [List.map_append, List.append_assoc, List.map_cons, List.map_nil, List.cons_append, List.nil_append]
  · rw [relationships, h.relationships, List.flatMap_append, List.flatMap_singleton]

theorem seedUnit {x : Explorer} {id : UInt32} {u : SourceUnit} (h : Shape w x.graph done rest fresh)
    (hu : w.units.get? id = some u) :
    ∃ new, Shape w (x.seedUnit w id).1.graph done rest (fresh ++ new) ∧ ∀ e ∈ new, e ∈ Explorer.unitEntities id u := by
  rw [Explorer.graph_seedUnit hu]
  exact h.registerAll _

end Shape

/-! ## The counts -/

/-- The counts when some entities have been enriched and some are known. -/
structure Tally (w : World) (s : Stats) (done known : List Entity) : Prop where
  nodes : s.nodesEnriched = kindCount .node done
  symbols : s.symbolsEnriched = kindCount .symbol done
  types : s.typesEnriched = kindCount .type done
  failures : s.failures = done.countP fun e => (describe w e).failure.isSome
  seeded : s.seeded = kindCount .node known

namespace Tally

variable {w : World} {s : Stats} {done known new : List Entity}

protected theorem empty (w : World) : Tally w {} [] [] :=
  ⟨rfl, rfl, rfl, rfl, rfl⟩

/-- Enriching an entity that makes no syntax node known. -/
theorem enrich (h : Tally w s done known) (e : Entity) (noNode : ∀ e' ∈ new, e'.key.kind ≠ .node) :
    Tally w ((s.countKind e.key.kind).countFailure (describe w e).failure) (done ++ [e]) (known ++ new) := by
  have newNodes : kindCount .node new = 0 := by
    rw [kindCount, List.countP_eq_zero]
    intro e' he'
    simpa using noNode e' he'
  have failures : (done ++ [e]).countP (fun e => (describe w e).failure.isSome) =
      s.failures + if (describe w e).failure.isSome then 1 else 0 := by
    rw [List.countP_append, List.countP_singleton, h.failures]
  have one : ∀ kind, kindCount kind [e] = if e.key.kind = kind then 1 else 0 := by
    intro kind
    simp [kindCount, List.countP_singleton]
  constructor
  · rw [kindCount_append, one, ← h.nodes]
    cases e.key.kind <;> cases (describe w e).failure <;> rfl
  · rw [kindCount_append, one, ← h.symbols]
    cases e.key.kind <;> cases (describe w e).failure <;> rfl
  · rw [kindCount_append, one, ← h.types]
    cases e.key.kind <;> cases (describe w e).failure <;> rfl
  · rw [failures]
    cases e.key.kind <;> cases (describe w e).failure <;> rfl
  · rw [kindCount_append, newNodes, ← h.seeded]
    cases e.key.kind <;> cases (describe w e).failure <;> rfl

/-- Making syntax nodes known and counting the new ones. -/
theorem seed (h : Tally w s done known) (nodes : ∀ e ∈ new, e.key.kind = .node) {seeded : Nat}
    (count : seeded + known.length = s.seeded + (known ++ new).length) :
    Tally w { s with seeded := seeded } done (known ++ new) := by
  refine ⟨h.nodes, h.symbols, h.types, h.failures, ?_⟩
  have newNodes : kindCount .node new = new.length := by
    rw [kindCount, List.countP_eq_length]
    intro e he
    simpa using nodes e he
  show seeded = _
  rw [kindCount_append, newNodes, ← h.seeded]
  rw [List.length_append] at count
  omega

end Tally

/-! ## The invariant -/

/-- What holds of the point where a discovery stands. -/
structure Account (w : World) (p : Point) : Prop where
  shape : Shape w p.explorer.graph p.enriched p.rest p.explorer.graph.frontier
  tally : Tally w p.explorer.stats p.enriched p.explorer.graph.entities
  genuine : ∀ e ∈ p.explorer.graph.entities, Genuine w e
  /-- What an enriched entity finds is known. -/
  closed : ∀ e ∈ p.enriched, ∀ e' ∈ (describe w e).found, e'.key ∈ p.explorer.graph.keys
  /-- Of a unit either all nodes are known or none. -/
  whole : ∀ ref ref' n, .node ref ∈ p.explorer.graph.keys → ref'.unit = ref.unit → w.units.node? ref' = some n →
    .node ref' ∈ p.explorer.graph.keys

namespace Account

variable {w : World} {x : Explorer} {done : List Entity}

theorem entities {p : Point} (h : Account w p) : p.explorer.graph.entities = p.enriched ++ p.pending :=
  h.shape.entities

protected theorem start (w : World) : Account w {} where
  shape := .empty w
  tally := .empty w
  genuine := by simp [Graph.entities]
  closed := by simp
  whole := by
    intro ref ref' n known
    cases known

theorem kind_of_mem_unitEntities {id : UInt32} {u : SourceUnit} {e : Entity} (h : e ∈ Explorer.unitEntities id u) :
    e.key.kind = .node := by
  obtain ⟨i, n, _, rfl⟩ := Explorer.mem_unitEntities.mp h
  rfl

theorem genuine_of_mem_unitEntities {id : UInt32} {u : SourceUnit} {e : Entity} (hu : w.units.get? id = some u)
    (h : e ∈ Explorer.unitEntities id u) : Genuine w e := by
  obtain ⟨i, n, hn, rfl⟩ := Explorer.mem_unitEntities.mp h
  have node : w.units.node? ⟨id, i⟩ = some n := Units.node?_eq_some_iff.mpr ⟨u, hu, hn⟩
  exact World.entity_node node ▸ .of_key (.node node)

protected theorem seedUnit (h : Account w ⟨x, [], done⟩) (id : UInt32) : Account w ⟨(x.seedUnit w id).1, [], done⟩ := by
  cases hu : w.units.get? id with
  | none =>
    rw [Explorer.seedUnit_of_none hu]
    exact ⟨h.shape, h.tally, h.genuine, h.closed, h.whole⟩
  | some u =>
    obtain ⟨new, shape, hnew⟩ := h.shape.seedUnit hu
    have known : (x.seedUnit w id).1.graph.entities = x.graph.entities ++ new := by
      rw [shape.entities, h.shape.entities]
      simp only [List.append_assoc]
    have mem_keys : ∀ k, k ∈ (x.seedUnit w id).1.graph.keys ↔
        k ∈ x.graph.keys ∨ k ∈ (Explorer.unitEntities id u).map Entity.key := by
      intro k
      rw [Explorer.graph_seedUnit hu]
      exact mem_keys_registerAll
    refine ⟨?_, ?_, ?_, ?_, ?_⟩
    · rwa [← shape.frontier] at shape
    · rw [Explorer.stats_seedUnit, known]
      refine h.tally.seed (fun e he => kind_of_mem_unitEntities (hnew e he)) ?_
      have count := Explorer.seeded_seedUnit hu x
      rwa [← length_entities, ← length_entities, known] at count
    · intro e he
      rw [known, List.mem_append] at he
      exact he.elim (h.genuine e) fun he => genuine_of_mem_unitEntities hu (hnew e he)
    · intro e he e' he'
      exact (mem_keys _).mpr (.inl (h.closed e he e' he'))
    · intro ref ref' n hk same hn
      rcases (mem_keys _).mp hk with hk | hk
      · exact (mem_keys _).mpr (.inl (h.whole ref ref' n hk same hn))
      · obtain ⟨i, m, _, hkey⟩ := Explorer.mem_keys_unitEntities.mp hk
        cases hkey
        obtain ⟨_, i'⟩ := ref'
        cases same
        obtain ⟨u', hu', hn'⟩ := Units.node?_eq_some_iff.mp hn
        cases hu.symm.trans hu'
        exact (mem_keys _).mpr (.inr (Explorer.mem_keys_unitEntities.mpr ⟨_, _, hn', rfl⟩))

protected theorem drain (h : Account w ⟨x, [], done⟩) : Account w ⟨x.startWave, x.graph.frontier, done⟩ := by
  have shape := h.shape.drain
  refine ⟨?_, ?_, h.genuine, h.closed, h.whole⟩
  · show Shape w x.graph.drain.2 done x.graph.frontier x.graph.drain.2.frontier
    rwa [shape.frontier]
  · exact ⟨h.tally.nodes, h.tally.symbols, h.tally.types, h.tally.failures, h.tally.seeded⟩

protected theorem enrich {e : Entity} {rest : List Entity} (h : Account w ⟨x, e :: rest, done⟩) :
    Account w ⟨x.enrich w e, rest, done ++ [e]⟩ := by
  have he : e ∈ x.graph.entities := by
    rw [h.shape.entities]
    simp
  have genuine := h.genuine e he
  have present := missing_of_reachable genuine.reachable
  obtain ⟨new, shape, hnew⟩ := h.shape.enrich present
  have known : (x.enrich w e).graph.entities = x.graph.entities ++ new := by
    show ((describe w e).addTo x.graph e).entities = _
    rw [shape.entities, h.shape.entities]
    simp
  have mem_keys : ∀ k, k ∈ (x.enrich w e).graph.keys ↔ k ∈ x.graph.keys ∨ k ∈ (describe w e).found.map Entity.key :=
    fun k => Enrichment.mem_keys_addTo present (mem_keys_of_mem_entities he)
  -- a node found by a node is its parent, which was known before
  have nodesKnown : ∀ e' ∈ (describe w e).found, ∀ ref, e'.key = .node ref → .node ref ∈ x.graph.keys := by
    intro e' found ref hk
    obtain ⟨ref₀, hk₀, same⟩ := unit_of_found_node found hk
    obtain ⟨n, hn⟩ := (genuine.of_found found).reachable.node?_isSome hk
    exact h.whole ref₀ ref n (hk₀ ▸ mem_keys_of_mem_entities he) same.symm hn
  refine ⟨?_, ?_, ?_, ?_, ?_⟩
  · show Shape w ((describe w e).addTo x.graph e) (done ++ [e]) rest ((describe w e).addTo x.graph e).frontier
    rwa [shape.frontier]
  · rw [known]
    refine h.tally.enrich e fun e' he' node => ?_
    obtain ⟨found, unknown⟩ := hnew e' he'
    cases hk : e'.key with
    | node ref => exact unknown (hk ▸ nodesKnown e' found ref hk)
    | symbol d => rw [hk] at node; cases node
    | type t => rw [hk] at node; cases node
  · intro e' he'
    rw [known, List.mem_append] at he'
    exact he'.elim (h.genuine e') fun he' => genuine.of_found (hnew e' he').1
  · intro e₀ he₀ e' he'
    rcases List.mem_append.mp he₀ with he₀ | he₀
    · exact (mem_keys _).mpr (.inl (h.closed e₀ he₀ e' he'))
    · rw [List.mem_singleton] at he₀
      subst he₀
      exact (mem_keys _).mpr (.inr (List.mem_map_of_mem he'))
  · intro ref ref' n hk same hn
    rcases (mem_keys _).mp hk with hk | hk
    · exact (mem_keys _).mpr (.inl (h.whole ref ref' n hk same hn))
    · obtain ⟨e', found, hkey⟩ := List.mem_map.mp hk
      exact (mem_keys _).mpr (.inl (h.whole ref ref' n (nodesKnown e' found ref hkey) same hn))

/-- Every move preserves the invariant. -/
theorem move {p q : Point} (h : Account w p) (m : Move w p q) : Account w q := by
  cases m with
  | seedUnit x done id => exact h.seedUnit id
  | drain x done some_left => exact h.drain
  | enrich x e rest done => exact h.enrich
  | conclude x done none_left => exact ⟨h.shape, h.tally, h.genuine, h.closed, h.whole⟩

end Account

/-- The invariant holds at every point of a discovery. -/
theorem account_of_reaches {w : World} {p : Point} (h : Reaches w {} p) : Account w p := by
  induction h with
  | refl => exact .start w
  | tail _ m ih => exact ih.move m

end ProgramGraph.Discovery
