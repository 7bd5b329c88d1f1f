import ProgramGraph.Proofs.Discovery.Settled
import ProgramGraph.Proofs.Store.Export
import ProgramGraph.Proofs.Store.Rows

/-!
# ProgramGraph.Proofs.Store.Exactness

What a store in memory holds after a graph was exported into it.

* `Graph.Coherent`     — the ends of a relationship are entities of the graph, and have the same labels there. Endpoints
  are looked up by label and id, so this is what keeps a relationship from being lost.
* `Memory.Holds`       — a store holds what can be stored of a graph, and nothing else.
* `holds_exportGraph`  — a coherent graph is held after its export into a fresh store.
* `export_exact`       — a discovered graph is coherent, since the label of a key follows from the world; and what cannot be
  stored of it.
-/

namespace ProgramGraph

open ProgramGraph.Graph

/-- The ends of every relationship are entities of the graph, labels included. -/
def Graph.Coherent (g : Graph) : Prop :=
  ∀ r bag, (r, bag) ∈ g.relationships → r.source ∈ g.entities ∧ r.target ∈ g.entities

namespace Store

/-! ## A coherent graph in a fresh store -/

namespace Memory

/-- A store holds what can be stored of a graph: the entities with a label, the relationships between these, and nothing
else. -/
structure Holds (scope : Option String) (g : Graph) (m : Memory) : Prop where
  node : ∀ e bag, (e, bag) ∈ g.nodes → e.label ≠ "" → m.node? e.label (scopedId scope e.id) = some bag
  edge : ∀ r bag, (r, bag) ∈ g.relationships → r.source.label ≠ "" → r.target.label ≠ "" →
    m.edge? (scopedId scope r.source.id) r.relation.name (scopedId scope r.target.id) = some bag
  onlyNodes : ∀ k ∈ m.nodes, ∃ e ∈ g.entities, e.label ≠ "" ∧ nodeKey scope e = k
  onlyEdges : ∀ k ∈ m.edges, ∃ r bag, (r, bag) ∈ g.relationships ∧ r.source.label ≠ "" ∧ r.target.label ≠ "" ∧
    edgeKey scope r = k

variable {scope : Option String} {g : Graph}

theorem takesNode_nodeRow {e : Entity} {bag : Bag} : takesNode [] (nodeRow scope e bag) = true ↔ e.label ≠ "" := by
  rw [takesNode_iff]
  exact and_iff_left List.not_mem_nil

/-- The entities with a label are stored with their bags. -/
theorem getElem?_nodes_withNodes {k : NodeKey} {bag : Bag} :
    (({} : Memory).withNodes [] scope g).nodes[k]? = some bag ↔
      ∃ e, (e, bag) ∈ g.nodes ∧ e.label ≠ "" ∧ nodeKey scope e = k := by
  rw [withNodes, nodes_mergeNodes, getElem?_mergeAll_filter_iff (nodup_keys_nodeRows scope g)]
  constructor
  · rintro ⟨_, mem, taken, rfl, rfl⟩
    obtain ⟨⟨e, bag⟩, he, rfl⟩ := List.mem_map.mp mem
    exact ⟨e, he, takesNode_nodeRow.mp taken, rfl⟩
  · rintro ⟨e, he, label, rfl⟩
    exact ⟨nodeRow scope e bag, List.mem_map_of_mem he, takesNode_nodeRow.mpr label, rfl, rfl⟩

theorem mem_nodes_withNodes {k : NodeKey} :
    k ∈ (({} : Memory).withNodes [] scope g).nodes ↔ ∃ e ∈ g.entities, e.label ≠ "" ∧ nodeKey scope e = k := by
  rw [Std.ExtTreeMap.mem_iff_isSome_getElem?, Option.isSome_iff_exists]
  constructor
  · rintro ⟨bag, stored⟩
    obtain ⟨e, he, rest⟩ := getElem?_nodes_withNodes.mp stored
    exact ⟨e, List.mem_map_of_mem he, rest⟩
  · rintro ⟨e, he, rest⟩
    obtain ⟨⟨e, bag⟩, mem, rfl⟩ := List.mem_map.mp he
    exact ⟨bag, getElem?_nodes_withNodes.mpr ⟨e, mem, rest⟩⟩

/-- Of a coherent graph, a relationship is taken when both its ends have a label. -/
theorem takesEdge_edgeRow (scope : Option String) (coherent : g.Coherent) {r : Relationship} {bag : Bag}
    (hr : (r, bag) ∈ g.relationships) :
    takesEdge [] (({} : Memory).withNodes [] scope g) (edgeRow scope r bag) = true ↔
      r.source.label ≠ "" ∧ r.target.label ≠ "" := by
  obtain ⟨source, target⟩ := coherent r bag hr
  have stored : ∀ e ∈ g.entities,
      nodeKey scope e ∈ (({} : Memory).withNodes [] scope g).nodes ↔ e.label ≠ "" := by
    intro e he
    rw [mem_nodes_withNodes]
    constructor
    · rintro ⟨e', _, label, same⟩
      exact nodeKey_injective scope same ▸ label
    · intro label
      exact ⟨e, he, label, rfl⟩
  rw [takesEdge_iff, ← stored _ source, ← stored _ target]
  constructor
  · rintro ⟨_, _, _, ends⟩
    exact ends
  · intro ends
    exact ⟨r.relation.name_ne_empty, List.not_mem_nil, List.not_mem_nil, ends⟩

/-- The relationships between entities with a label are stored with their bags. -/
theorem getElem?_edges_withGraph (scope : Option String) (coherent : g.Coherent) {k : EdgeKey} {bag : Bag} :
    (({} : Memory).withGraph [] scope g).edges[k]? = some bag ↔
      ∃ r, (r, bag) ∈ g.relationships ∧ r.source.label ≠ "" ∧ r.target.label ≠ "" ∧ edgeKey scope r = k := by
  have none_before : (({} : Memory).withNodes [] scope g).edges = ∅ := edges_mergeNodes _ _
  rw [withGraph, edges_mergeEdges, none_before, getElem?_mergeAll_filter_iff (nodup_keys_edgeRows scope g)]
  constructor
  · rintro ⟨_, mem, taken, rfl, rfl⟩
    obtain ⟨⟨r, bag⟩, hr, rfl⟩ := List.mem_map.mp mem
    obtain ⟨source, target⟩ := (takesEdge_edgeRow scope coherent hr).mp taken
    exact ⟨r, hr, source, target, rfl⟩
  · rintro ⟨r, hr, source, target, rfl⟩
    have taken := (takesEdge_edgeRow scope coherent hr).mpr ⟨source, target⟩
    exact ⟨edgeRow scope r bag, List.mem_map_of_mem hr, taken, rfl, rfl⟩

theorem mem_edges_withGraph (coherent : g.Coherent) {k : EdgeKey} :
    k ∈ (({} : Memory).withGraph [] scope g).edges ↔
      ∃ r bag, (r, bag) ∈ g.relationships ∧ r.source.label ≠ "" ∧ r.target.label ≠ "" ∧ edgeKey scope r = k := by
  rw [Std.ExtTreeMap.mem_iff_isSome_getElem?, Option.isSome_iff_exists]
  constructor
  · rintro ⟨bag, stored⟩
    obtain ⟨r, rest⟩ := (getElem?_edges_withGraph scope coherent).mp stored
    exact ⟨r, bag, rest⟩
  · rintro ⟨r, bag, rest⟩
    exact ⟨bag, (getElem?_edges_withGraph scope coherent).mpr ⟨r, rest⟩⟩

/-- A relationship is found by the ids of its ends, although these do not tell the labels. -/
theorem edge?_of_coherent (coherent : g.Coherent) {m : Memory}
    (edges : m.edges = (({} : Memory).withGraph [] scope g).edges) {r : Relationship} {bag : Bag}
    (hr : (r, bag) ∈ g.relationships) (source : r.source.label ≠ "") (target : r.target.label ≠ "") :
    m.edge? (scopedId scope r.source.id) r.relation.name (scopedId scope r.target.id) = some bag := by
  have stored := (getElem?_edges_withGraph scope coherent).mpr ⟨r, hr, source, target, rfl⟩
  rw [← edges] at stored
  refine edge?_eq_some stored ?_
  -- another stored relationship with these ids has the same key in the graph, so it is this one
  intro k' hk' sourceId targetId relation
  rw [edges] at hk'
  obtain ⟨r', bag', hr', _, _, rfl⟩ := (mem_edges_withGraph coherent).mp hk'
  have same : r'.key = r.key := by
    rw [Relationship.key, Relationship.key, (scopedId_injective sourceId).2, (scopedId_injective targetId).2,
      Relation.name_injective relation]
  cases relationship_eq_of_key_eq hr' hr same
  rfl

/-- A coherent graph is held after its export into a fresh store. -/
theorem holds_exportGraph (coherent : g.Coherent) : Holds scope g (exportGraph (store []) scope g {}).state := by
  have nodes : (exportGraph (store []) scope g {}).state.nodes = (({} : Memory).withNodes [] scope g).nodes := by
    rw [state_exportGraph, withGraph, nodes_mergeEdges]
  have edges : (exportGraph (store []) scope g {}).state.edges = (({} : Memory).withGraph [] scope g).edges := by
    rw [state_exportGraph]
  refine ⟨?_, ?_, ?_, ?_⟩
  · intro e bag he label
    rw [node?, nodes]
    exact getElem?_nodes_withNodes.mpr ⟨e, he, label, rfl⟩
  · intro r bag hr source target
    exact edge?_of_coherent coherent edges hr source target
  · intro k hk
    rw [nodes] at hk
    exact mem_nodes_withNodes.mp hk
  · intro k hk
    rw [edges] at hk
    exact (mem_edges_withGraph coherent).mp hk

/-! ## What is not taken -/

theorem nodesFailed_exportGraph :
    (exportGraph (store []) scope g {}).summary.nodesFailed = g.entities.countP fun e => e.label = "" := by
  rw [summary_exportGraph]
  show (nodeRows scope g).countP _ = _
  rw [nodeRows, entities, List.countP_map, List.countP_map]
  apply List.countP_congr
  intro n _
  simp [takesNode, nodeRow]

theorem relationshipsFailed_exportGraph (coherent : g.Coherent) :
    (exportGraph (store []) scope g {}).summary.relationshipsFailed =
      g.relationships.countP fun r => r.1.source.label = "" || r.1.target.label = "" := by
  rw [summary_exportGraph]
  show (edgeRows scope g).countP _ = _
  rw [edgeRows, List.countP_map]
  apply List.countP_congr
  intro r hr
  have taken := takesEdge_edgeRow scope coherent hr
  rw [Function.comp, Bool.not_eq_true', ← Bool.not_eq_true, taken]
  simp [Classical.or_iff_not_imp_left]

end Memory

end Store

/-! ## Labels of a world -/

namespace Program

theorem DeclCategory.label_ne_empty (c : DeclCategory) : c.label ≠ "" := by
  cases c <;> decide

theorem TypeCategory.label_ne_empty (c : TypeCategory) : c.label ≠ "" := by
  cases c <;> decide

end Program

namespace Discovery

open Program Store

/-- Whether a key is a syntax node whose kind is the empty text. -/
def World.isNameless (w : World) : EntityKey → Bool
  | .node ref => (w.units.node? ref).any fun n => n.kind = ""
  | .symbol _ => false
  | .type _ => false

theorem exists_label_symbolEntity (w : World) (d : DeclId) : ∃ c : DeclCategory, (symbolEntity w d).label = c.label := by
  rw [symbolEntity]
  split
  · exact ⟨_, rfl⟩
  · exact ⟨.other, rfl⟩

theorem exists_label_typeEntity (w : World) (t : TypeId) : ∃ c : TypeCategory, (typeEntity w t).label = c.label := by
  rw [typeEntity]
  split
  · exact ⟨_, rfl⟩
  · exact ⟨.other, rfl⟩

theorem label_symbolEntity_ne_empty (w : World) (d : DeclId) : (symbolEntity w d).label ≠ "" := by
  obtain ⟨c, label⟩ := exists_label_symbolEntity w d
  rw [label]
  exact c.label_ne_empty

theorem label_typeEntity_ne_empty (w : World) (t : TypeId) : (typeEntity w t).label ≠ "" := by
  obtain ⟨c, label⟩ := exists_label_typeEntity w t
  rw [label]
  exact c.label_ne_empty

/-- Only syntax nodes can lack a label. -/
theorem label_eq_empty_iff {w : World} {e : Entity} (h : Genuine w e) : e.label = "" ↔ w.isNameless e.key = true := by
  have label := congrArg Entity.label h.canonical
  cases hk : e.key with
  | node ref =>
    obtain ⟨n, hn⟩ := h.reachable.node?_isSome hk
    rw [label, hk, World.entity_node hn, World.isNameless, hn]
    simp [Entity.ofNode]
  | symbol d =>
    rw [label, hk]
    exact iff_of_false (label_symbolEntity_ne_empty w d) Bool.false_ne_true
  | type t =>
    rw [label, hk]
    exact iff_of_false (label_typeEntity_ne_empty w t) Bool.false_ne_true

theorem Settled.coherent {w : World} {x : Explorer} (h : Settled w x) : x.graph.Coherent :=
  fun _ _ hr => h.ends hr

/-- Only a link to a parent has an end that is a syntax node. -/
theorem Related.relation_eq {w : World} {k : RelationKey} {bag : Bag} (h : Related w k bag)
    (nameless : w.isNameless k.source = true ∨ w.isNameless k.target = true) : k.relation = .parentOf := by
  cases h with
  | parent => rfl
  | returned => simp [World.isNameless] at nameless
  | valued => simp [World.isNameless] at nameless
  | self => simp [World.isNameless] at nameless

/-- **Exporting a discovered graph.** A fresh store holds every entity with a label and every relationship between such
entities, with its bag, and nothing else. What is refused are the syntax nodes without a kind and the links from or to
them. -/
theorem export_exact (w : World) (scope : Option String) :
    let g := (discover w).graph
    let x := exportGraph (Memory.store []) scope g {}
    x.state.Holds scope g ∧
      (x.summary.nodesFailed = g.entities.countP fun e => w.isNameless e.key) ∧
      x.summary.relationshipsFailed = g.relationships.countP fun r =>
        r.1.relation = .parentOf && (w.isNameless r.1.source.key || w.isNameless r.1.target.key) := by
  intro g x
  have settled := settled_discover w
  refine ⟨Memory.holds_exportGraph settled.coherent, ?_, ?_⟩
  · rw [Memory.nodesFailed_exportGraph]
    apply List.countP_congr
    intro e he
    rw [decide_eq_true_iff, label_eq_empty_iff (settled.mem_entities_iff.mp he)]
  · rw [Memory.relationshipsFailed_exportGraph settled.coherent]
    apply List.countP_congr
    intro r hr
    obtain ⟨source, target⟩ := settled.coherent r.1 r.2 hr
    rw [Bool.or_eq_true, decide_eq_true_iff, decide_eq_true_iff, label_eq_empty_iff (settled.mem_entities_iff.mp source),
      label_eq_empty_iff (settled.mem_entities_iff.mp target), Bool.and_eq_true, Bool.or_eq_true, decide_eq_true_iff]
    have related := (settled.mem_relationships_iff.mp hr).1
    exact ⟨fun nameless => ⟨related.relation_eq nameless, nameless⟩, And.right⟩

end Discovery
end ProgramGraph
