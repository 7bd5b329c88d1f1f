import Std.Data.HashMap
import ProgramGraph.Graph.Basic

/-!
# ProgramGraph.Graph.Arena

A program graph in memory. Entities and relationships stand in arrays with their bags, and an index says for a key at which
place its entry stands. A `Graph` holds the same without places, and answers the same.

* `Arena`       — an array of entries with its index. An access to a place outside the array ends whatever asked for it.
* `NodeArena`   — an arena of entities, with the places of those that nobody has looked at yet.
* `Arena.relate` — add an edge to an arena of relationships, or merge into the bag of a known one.
* `GraphArena`  — entities and relationships; `GraphArena.connect` makes both ends of an edge known and adds it.
-/

namespace ProgramGraph.Graph

open Program

deriving instance Hashable for NodeRef, DeclId, TypeId
deriving instance Hashable for EntityKey, Relation
deriving instance Hashable for RelationKey

/-- Items with their bags, each at its place, and the places of their keys. -/
structure Arena (κ ι : Type) [BEq κ] [Hashable κ] where
  entries : Array (ι × Bag)
  index : Std.HashMap κ Nat

namespace Arena

variable {κ ι : Type} [BEq κ] [Hashable κ]

def empty : Arena κ ι where
  entries := #[]
  index := ∅

def size (a : Arena κ ι) : Nat :=
  a.entries.size

def contains (a : Arena κ ι) (k : κ) : Bool :=
  a.index.contains k

def read (a : Arena κ ι) (place : Nat) : Except OutOfBounds (ι × Bag) :=
  if h : place < a.entries.size then .ok a.entries[place] else .error ⟨place⟩

/-- Change the bag at a place. -/
def write (a : Arena κ ι) (place : Nat) (change : Bag → Bag) : Except OutOfBounds (Arena κ ι) :=
  if h : place < a.entries.size then
    .ok { a with entries := a.entries.set place (a.entries[place].1, change a.entries[place].2) }
  else .error ⟨place⟩

/-- Put an item at the end. -/
def push (a : Arena κ ι) (k : κ) (item : ι) (bag : Bag) : Arena κ ι where
  entries := a.entries.push (item, bag)
  index := a.index.insert k a.size

def get? (a : Arena κ ι) (k : κ) : Except OutOfBounds (Option (ι × Bag)) :=
  match a.index[k]? with
  | some place => (a.read place).map some
  | none => .ok none

/-- Add an edge; if it is known, merge the bag into its own. The answer is whether it was new. -/
def relate (a : Arena RelationKey Relationship) (r : Relationship) (bag : Bag) :
    Except OutOfBounds (Bool × Arena RelationKey Relationship) :=
  match a.index[r.key]? with
  | some place => (a.write place fun old => old.merge bag).map fun written => (false, written)
  | none => .ok (true, a.push r.key r bag)

end Arena

/-- The entities in memory. -/
structure NodeArena where
  arena : Arena EntityKey Entity
  /-- The places that were filled since the last drain, in order. -/
  frontier : List Nat

namespace NodeArena

def empty : NodeArena where
  arena := .empty
  frontier := []

/-- Make an entity known. The answer is whether it was new. -/
def register (n : NodeArena) (e : Entity) : Bool × NodeArena :=
  if n.arena.contains e.key then (false, n)
  else (true, { arena := n.arena.push e.key e .empty, frontier := n.frontier ++ [n.arena.size] })

/-- The place of an entity, which becomes known if it was not: then it is the last one. -/
def placeFor (n : NodeArena) (e : Entity) : Nat × NodeArena :=
  match n.arena.index[e.key]? with
  | some place => (place, n)
  | none =>
    let (_, known) := n.register e
    (known.arena.size - 1, known)

/-- Make an entity known, then change its bag. -/
def alter (n : NodeArena) (e : Entity) (change : Bag → Bag) : Except OutOfBounds NodeArena :=
  let (place, known) := n.placeFor e
  (known.arena.write place change).map fun written => { known with arena := written }

def set (n : NodeArena) (e : Entity) (name : String) (value : Property) : Except OutOfBounds NodeArena :=
  n.alter e fun bag => bag.insert name value

def merge (n : NodeArena) (e : Entity) (bag : Bag) : Except OutOfBounds NodeArena :=
  n.alter e fun old => old.merge bag

/-- Take the entities of the frontier, and leave it empty. -/
def drain (n : NodeArena) : Except OutOfBounds (List Entity × NodeArena) :=
  (n.frontier.mapM fun place => (n.arena.read place).map Prod.fst).map fun pending => (pending, { n with frontier := [] })

end NodeArena

/-- A program graph in memory. -/
structure GraphArena where
  nodes : NodeArena
  links : Arena RelationKey Relationship

namespace GraphArena

def empty : GraphArena where
  nodes := .empty
  links := .empty

/-- Make both ends of an edge known, then add the edge. The answer is whether the edge was new. -/
def connect (s : GraphArena) (r : Relationship) (bag : Bag) : Except OutOfBounds (Bool × GraphArena) :=
  let (_, withSource) := s.nodes.register r.source
  let (_, withTarget) := withSource.register r.target
  (s.links.relate r bag).map fun (new, links) => (new, { nodes := withTarget, links })

end GraphArena
end ProgramGraph.Graph
