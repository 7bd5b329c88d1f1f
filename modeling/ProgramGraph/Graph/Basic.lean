import ProgramGraph.Graph.Entity
import ProgramGraph.Graph.Property
import ProgramGraph.Graph.Registry

/-!
# ProgramGraph.Graph.Basic

A program graph under construction: entities and relationships with their bags, and the frontier of entities that
nobody has looked at yet.

* `Graph`            — two registries and a mark. Entities before the mark have been drained, those from the mark on are
  the frontier; since entities are only ever added at the end, a drained entity never comes back.
* `Graph.register`   — make an entity known.
* `Graph.merge`, `Graph.set` — write into the bag of an entity, which becomes known if it was not.
* `Graph.relate`     — add an edge, or merge into the bag of a known one.
* `Graph.connect`    — make both ends known, then add the edge.
* `Graph.drain`      — take the frontier and leave it empty.
* `Graph.nodes`, `Graph.relationships` — the views, in order of registration.
-/

namespace ProgramGraph
namespace Graph

/-- What is kept for an entity: the label of its first registration and its bag. -/
structure Vertex where
  label : String
  bag : Bag

/-- What is kept for a relationship: the labels of its ends at its first registration and its bag. -/
structure Link where
  sourceLabel : String
  targetLabel : String
  bag : Bag

end Graph

open ProgramGraph.Graph in
/-- A program graph under construction. -/
structure Graph where
  vertices : Registry EntityKey Vertex
  links : Registry RelationKey Link
  /-- How many entities have been drained. -/
  drained : Nat

namespace Graph

def empty : Graph where
  vertices := .empty
  links := .empty
  drained := 0

def contains (g : Graph) (k : EntityKey) : Bool :=
  g.vertices.contains k

def register (g : Graph) (e : Entity) : Graph :=
  { g with vertices := g.vertices.register e.key ⟨e.label, .empty⟩ }

/-- Make an entity known, then merge a bag into its own. -/
def merge (g : Graph) (e : Entity) (bag : Bag) : Graph :=
  let known := g.vertices.register e.key ⟨e.label, .empty⟩
  { g with vertices := known.modify e.key fun v => { v with bag := v.bag.merge bag } }

/-- Make an entity known, then write one value into its bag. -/
def set (g : Graph) (e : Entity) (name : String) (value : Property) : Graph :=
  g.merge e (Bag.ofList [(name, value)])

def isRelated (g : Graph) (k : RelationKey) : Bool :=
  g.links.contains k

/-- Add an edge; if it is known, merge the bag into its own. -/
def relate (g : Graph) (r : Relationship) (bag : Bag) : Graph :=
  if g.isRelated r.key then
    { g with links := g.links.modify r.key fun l => { l with bag := l.bag.merge bag } }
  else
    { g with links := g.links.register r.key ⟨r.source.label, r.target.label, bag⟩ }

/-- Make both ends of an edge known, then add the edge. -/
def connect (g : Graph) (r : Relationship) (bag : Bag) : Graph :=
  ((g.register r.source).register r.target).relate r bag

def entityOf (entry : EntityKey × Vertex) : Entity :=
  ⟨entry.1, entry.2.label⟩

def relationshipOf (entry : RelationKey × Link) : Relationship :=
  ⟨⟨entry.1.source, entry.2.sourceLabel⟩, ⟨entry.1.target, entry.2.targetLabel⟩, entry.1.relation⟩

/-- The entities with their bags, in order of registration. -/
def nodes (g : Graph) : List (Entity × Bag) :=
  g.vertices.entries.map fun entry => (entityOf entry, entry.2.bag)

/-- The relationships with their bags, in order of registration. -/
def relationships (g : Graph) : List (Relationship × Bag) :=
  g.links.entries.map fun entry => (relationshipOf entry, entry.2.bag)

/-- The entities that have not been drained, in order of registration. -/
def frontier (g : Graph) : List Entity :=
  (g.vertices.entries.drop g.drained).map entityOf

def drain (g : Graph) : List Entity × Graph :=
  (g.frontier, { g with drained := g.vertices.size })

def get? (g : Graph) (k : EntityKey) : Option (Entity × Bag) :=
  (g.vertices.get? k).map fun v => (⟨k, v.label⟩, v.bag)

def getRelationship? (g : Graph) (k : RelationKey) : Option (Relationship × Bag) :=
  (g.links.get? k).map fun l => (relationshipOf (k, l), l.bag)

/-- The relationships of one kind, in order of registration. -/
def withRelation (g : Graph) (relation : Relation) : List Relationship :=
  (g.relationships.map Prod.fst).filter fun r => r.relation = relation

def nodeCount (g : Graph) : Nat :=
  g.vertices.size

def relationshipCount (g : Graph) : Nat :=
  g.links.size

/-- A graph has no more entities than there are keys. -/
theorem nodeCount_le_count (g : Graph) : g.nodeCount ≤ EntityKey.count := by
  have different : ((g.vertices.entries.map Prod.fst).map EntityKey.code).Nodup := by
    refine List.Pairwise.map EntityKey.code ?_ g.vertices.nodup
    intro a b hne same
    exact hne (EntityKey.code_injective same)
  have bounded : ∀ x ∈ (g.vertices.entries.map Prod.fst).map EntityKey.code, x < EntityKey.count := by
    intro x hx
    obtain ⟨k, _, rfl⟩ := List.mem_map.mp hx
    exact EntityKey.code_lt_count k
  have := length_le_of_nodup different bounded
  simpa [nodeCount, Registry.size] using this

@[simp] theorem drained_register (g : Graph) (e : Entity) : (g.register e).drained = g.drained := rfl

@[simp] theorem drained_merge (g : Graph) (e : Entity) (bag : Bag) : (g.merge e bag).drained = g.drained := rfl

@[simp] theorem drained_relate (g : Graph) (r : Relationship) (bag : Bag) :
    (g.relate r bag).drained = g.drained := by
  unfold relate
  split <;> rfl

@[simp] theorem drained_connect (g : Graph) (r : Relationship) (bag : Bag) :
    (g.connect r bag).drained = g.drained := by
  simp [connect]

end Graph
end ProgramGraph
