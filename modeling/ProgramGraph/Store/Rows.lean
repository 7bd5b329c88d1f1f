import Std.Data.ExtTreeSet
import ProgramGraph.Graph.Basic
import ProgramGraph.Graph.Records

/-!
# ProgramGraph.Store.Rows

Entities and relationships as a store takes them.

* `NodeRow`, `EdgeRow` — an entity under its label and id, and a relationship under the labels and ids of its ends.
* `NodeKey`, `EdgeKey` — what makes two rows the same, with an order.
* `scopedId`           — an id inside a scope, so that several graphs can share a store.
* `nodeRows`, `edgeRows`, `nodeLabels` — the rows of a graph in order of registration, and its labels in their order,
  each once.
-/

namespace ProgramGraph.Store

open ProgramGraph.Graph Json

/-- The identity of a stored entity. -/
structure NodeKey where
  label : String
  id : String
  deriving DecidableEq, Repr

namespace NodeKey

/-- Keys are ordered by label, then by id. -/
def compare : NodeKey → NodeKey → Ordering :=
  compareLex (compareOn NodeKey.label) (compareOn NodeKey.id)

instance : Std.TransCmp compare :=
  inferInstanceAs (Std.TransCmp (compareLex _ _))

instance : Std.LawfulEqCmp compare where
  eq_of_compare {a b} h := by
    simp only [compare, compareLex, Ordering.then_eq_eq, compareOn,
      Std.LawfulEqOrd.compare_eq_iff_eq] at h
    cases a
    cases b
    simp_all

end NodeKey

/-- The identity of a stored relationship. -/
structure EdgeKey where
  source : NodeKey
  target : NodeKey
  label : String
  deriving DecidableEq, Repr

namespace EdgeKey

/-- Keys are ordered by source, then by target, then by label. -/
def compare : EdgeKey → EdgeKey → Ordering :=
  compareLex (compareOn fun k => k.source.label) (compareLex (compareOn fun k => k.source.id)
    (compareLex (compareOn fun k => k.target.label) (compareLex (compareOn fun k => k.target.id)
      (compareOn EdgeKey.label))))

instance : Std.TransCmp compare :=
  inferInstanceAs (Std.TransCmp (compareLex _ (compareLex _ (compareLex _ (compareLex _ _)))))

instance : Std.LawfulEqCmp compare where
  eq_of_compare {a b} h := by
    simp only [compare, compareLex, Ordering.then_eq_eq, compareOn,
      Std.LawfulEqOrd.compare_eq_iff_eq] at h
    obtain ⟨⟨_, _⟩, ⟨_, _⟩, _⟩ := a
    obtain ⟨⟨_, _⟩, ⟨_, _⟩, _⟩ := b
    simp_all

end EdgeKey

/-- An entity as a store takes it. -/
structure NodeRow where
  label : String
  id : String
  properties : Bag
  deriving DecidableEq

namespace NodeRow

def key (r : NodeRow) : NodeKey :=
  ⟨r.label, r.id⟩

/-- The fields of an entity of a store, in the order of its list form. -/
def fields : Fields NodeRow :=
  NodeRow.mk <$> .required "label" text <*> .required "id" text <*> .required "properties" Bag.decoder

def document (r : NodeRow) : Document :=
  .record [("label", .text r.label), ("id", .text r.id), ("properties", r.properties.document)]

end NodeRow

/-- A relationship as a store takes it. -/
structure EdgeRow where
  sourceLabel : String
  sourceId : String
  targetLabel : String
  targetId : String
  label : String
  properties : Bag
  deriving DecidableEq

namespace EdgeRow

/-- The row that must be stored at the source. -/
def source (r : EdgeRow) : NodeKey :=
  ⟨r.sourceLabel, r.sourceId⟩

/-- The row that must be stored at the target. -/
def target (r : EdgeRow) : NodeKey :=
  ⟨r.targetLabel, r.targetId⟩

def key (r : EdgeRow) : EdgeKey :=
  ⟨r.source, r.target, r.label⟩

/-- The fields of a relationship of a store, in the order of its list form. -/
def fields : Fields EdgeRow :=
  EdgeRow.mk
    <$> .required "source_label" text
    <*> .required "source_id" text
    <*> .required "target_label" text
    <*> .required "target_id" text
    <*> .required "label" text
    <*> .required "properties" Bag.decoder

def document (r : EdgeRow) : Document :=
  .record
    [("source_label", .text r.sourceLabel), ("source_id", .text r.sourceId), ("target_label", .text r.targetLabel),
     ("target_id", .text r.targetId), ("label", .text r.label), ("properties", r.properties.document)]

end EdgeRow

/-- An id inside a scope; without a scope it stays as it is. -/
def scopedId (scope : Option String) (id : String) : String :=
  match scope with
  | some s => s ++ "/" ++ id
  | none => id

def nodeRow (scope : Option String) (e : Entity) (bag : Bag) : NodeRow :=
  ⟨e.label, scopedId scope e.id, bag⟩

def edgeRow (scope : Option String) (r : Relationship) (bag : Bag) : EdgeRow :=
  ⟨r.source.label, scopedId scope r.source.id, r.target.label, scopedId scope r.target.id, r.relation.name, bag⟩

/-- The entities of a graph in order of registration. -/
def nodeRows (scope : Option String) (g : Graph) : List NodeRow :=
  g.nodes.map fun n => nodeRow scope n.1 n.2

/-- The relationships of a graph in order of registration. -/
def edgeRows (scope : Option String) (g : Graph) : List EdgeRow :=
  g.relationships.map fun r => edgeRow scope r.1 r.2

/-- The labels of the entities of a graph in their order, each once. -/
def nodeLabels (g : Graph) : List String :=
  (Std.ExtTreeSet.ofList (g.nodes.map fun n => n.1.label) compare).toList

end ProgramGraph.Store
