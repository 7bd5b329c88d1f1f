import ProgramGraph.Proofs.Graph.Basic
import ProgramGraph.Proofs.Graph.Identifier

/-!
# ProgramGraph.Proofs.Store.Rows

The identities under which the rows of a graph are stored.

* `nodeKey`, `edgeKey` — the identity of an entity and of a relationship inside a scope. Different ones have different
  identities, so the rows of a graph do as well.
* `NodeKey.InScope`    — an identity belongs to at most one scope, and those of a graph belong to the scope it goes out in.
-/

namespace ProgramGraph.Store

open ProgramGraph.Graph

/-- The identity under which an entity is stored. -/
def nodeKey (scope : Option String) (e : Entity) : NodeKey :=
  ⟨e.label, scopedId scope e.id⟩

/-- The identity under which a relationship is stored. -/
def edgeKey (scope : Option String) (r : Relationship) : EdgeKey :=
  ⟨nodeKey scope r.source, nodeKey scope r.target, r.relation.name⟩

theorem nodeKey_injective (scope : Option String) : Function.Injective (nodeKey scope) := by
  intro a b h
  obtain ⟨label, id⟩ := NodeKey.mk.inj h
  obtain ⟨_, _⟩ := a
  obtain ⟨_, _⟩ := b
  cases label
  cases (scopedId_injective id).2
  rfl

theorem edgeKey_injective (scope : Option String) : Function.Injective (edgeKey scope) := by
  intro a b h
  obtain ⟨source, target, relation⟩ := EdgeKey.mk.inj h
  obtain ⟨_, _, _⟩ := a
  obtain ⟨_, _, _⟩ := b
  cases nodeKey_injective scope source
  cases nodeKey_injective scope target
  cases Relation.name_injective relation
  rfl

@[simp] theorem length_nodeRows (scope : Option String) (g : Graph) : (nodeRows scope g).length = g.nodeCount := by
  rw [nodeRows, List.length_map, nodes, List.length_map]
  rfl

@[simp] theorem length_edgeRows (scope : Option String) (g : Graph) : (edgeRows scope g).length = g.relationshipCount := by
  rw [edgeRows, List.length_map, relationships, List.length_map]
  rfl

theorem nodup_keys_nodeRows (scope : Option String) (g : Graph) : ((nodeRows scope g).map NodeRow.key).Nodup := by
  have rows : (nodeRows scope g).map NodeRow.key = g.entities.map (nodeKey scope) := by
    simp [nodeRows, entities, nodeRow, NodeRow.key, nodeKey]
  rw [rows]
  exact g.nodup_entities.map (nodeKey_injective scope)

theorem nodup_keys_edgeRows (scope : Option String) (g : Graph) : ((edgeRows scope g).map EdgeRow.key).Nodup := by
  have rows : (edgeRows scope g).map EdgeRow.key = (g.relationships.map Prod.fst).map (edgeKey scope) := by
    simp [edgeRows, edgeRow, EdgeRow.key, EdgeRow.source, EdgeRow.target, edgeKey, nodeKey]
  rw [rows]
  exact g.nodup_relationships.map (edgeKey_injective scope)

/-! ## Scopes -/

/-- An identity with the id of some entity inside a scope. -/
def NodeKey.InScope (scope : Option String) (k : NodeKey) : Prop :=
  ∃ e : EntityKey, k.id = scopedId scope e.id

variable {scope scope' : Option String} {g : Graph}

theorem NodeKey.InScope.eq {k : NodeKey} (h : k.InScope scope) (h' : k.InScope scope') : scope = scope' := by
  obtain ⟨e, he⟩ := h
  obtain ⟨e', he'⟩ := h'
  exact (scopedId_injective (he.symm.trans he')).1

theorem inScope_of_mem_nodeRows {r : NodeRow} (h : r ∈ nodeRows scope g) : r.key.InScope scope := by
  obtain ⟨n, _, rfl⟩ := List.mem_map.mp h
  exact ⟨n.1.key, rfl⟩

theorem inScope_of_mem_edgeRows {r : EdgeRow} (h : r ∈ edgeRows scope g) :
    r.source.InScope scope ∧ r.target.InScope scope := by
  obtain ⟨n, _, rfl⟩ := List.mem_map.mp h
  exact ⟨⟨n.1.source.key, rfl⟩, ⟨n.1.target.key, rfl⟩⟩

end ProgramGraph.Store
