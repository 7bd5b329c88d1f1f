import ProgramGraph.Program.Declaration
import ProgramGraph.Program.Unit

/-!
# ProgramGraph.Graph.Entity

Entities of a program graph and the relationships between them.

* `EntityKey`    — what an entity stands for: a syntax node, a declaration or a type, by its handle. This is its identity.
* `Entity`       — a key with the label under which the entity is stored; the label is no part of the identity.
* `Relation`, `RelationKey`, `Relationship` — labelled edges; the identity of an edge is its ends and its label.
* `EntityKey.count` — there are finitely many keys.
-/

namespace ProgramGraph.Graph

open Program

/-- The three kinds of entities. -/
inductive EntityKind where
  | node
  | symbol
  | type
  deriving DecidableEq, Repr

namespace EntityKind

def name : EntityKind → String
  | .node => "syntax"
  | .symbol => "symbol"
  | .type => "type"

/-- The place of a kind in the order of keys. -/
def rank : EntityKind → Nat
  | .node => 0
  | .symbol => 1
  | .type => 2

end EntityKind

/-- What an entity stands for. -/
inductive EntityKey where
  | node (ref : NodeRef)
  | symbol (decl : DeclId)
  | type (ty : TypeId)
  deriving DecidableEq, Repr

namespace EntityKey

def kind : EntityKey → EntityKind
  | .node _ => .node
  | .symbol _ => .symbol
  | .type _ => .type

def handles : EntityKey → List Nat
  | .node r => [r.unit.toNat, r.node.toNat]
  | .symbol d => [d.index.toNat]
  | .type t => [t.index.toNat]

/-- The id under which the entity is stored: kind and handles with colons between them. -/
def id (k : EntityKey) : String :=
  k.handles.foldl (fun s n => s ++ ":" ++ n.repr) k.kind.name

/-- Keys are ordered by kind, then by handles. -/
def compare (a b : EntityKey) : Ordering :=
  (Ord.compare a.kind.rank b.kind.rank).then (Ord.compare a.handles b.handles)

def count : Nat :=
  UInt64.size + UInt32.size + UInt32.size

/-- A number for every key, below `count`. -/
def code : EntityKey → Nat
  | .node r => r.unit.toNat * UInt32.size + r.node.toNat
  | .symbol d => UInt64.size + d.index.toNat
  | .type t => UInt64.size + UInt32.size + t.index.toNat

/-- Every number of a key is below `count`. -/
theorem code_lt_count (k : EntityKey) : k.code < count := by
  cases k with
  | node r =>
    have h₁ := r.unit.toNat_lt
    have h₂ := r.node.toNat_lt
    simp only [code, count, UInt32.size, UInt64.size]
    omega
  | symbol d =>
    have h := d.index.toNat_lt
    simp only [code, count, UInt32.size, UInt64.size]
    omega
  | type t =>
    have h := t.index.toNat_lt
    simp only [code, count, UInt32.size, UInt64.size]
    omega

theorem code_injective {a b : EntityKey} (h : a.code = b.code) : a = b := by
  cases a with
  | node r =>
    have h₁ := r.unit.toNat_lt
    have h₂ := r.node.toNat_lt
    cases b with
    | node r' =>
      have h₃ := r'.unit.toNat_lt
      have h₄ := r'.node.toNat_lt
      simp only [code, UInt32.size] at h
      have hu : r.unit = r'.unit := UInt32.toNat_inj.mp (by omega)
      have hn : r.node = r'.node := UInt32.toNat_inj.mp (by omega)
      cases r; cases r'; simp_all
    | symbol d => simp only [code, UInt32.size, UInt64.size] at h; omega
    | type t => simp only [code, UInt32.size, UInt64.size] at h; omega
  | symbol d =>
    have h₁ := d.index.toNat_lt
    cases b with
    | node r =>
      have h₂ := r.unit.toNat_lt
      have h₃ := r.node.toNat_lt
      simp only [code, UInt32.size, UInt64.size] at h
      omega
    | symbol d' =>
      simp only [code, UInt64.size] at h
      have hd : d.index = d'.index := UInt32.toNat_inj.mp (by omega)
      cases d; cases d'; simp_all
    | type t => simp only [code, UInt32.size, UInt64.size] at h; omega
  | type t =>
    have h₁ := t.index.toNat_lt
    cases b with
    | node r =>
      have h₂ := r.unit.toNat_lt
      have h₃ := r.node.toNat_lt
      simp only [code, UInt32.size, UInt64.size] at h
      omega
    | symbol d =>
      have h₂ := d.index.toNat_lt
      simp only [code, UInt32.size, UInt64.size] at h
      omega
    | type t' =>
      simp only [code, UInt32.size, UInt64.size] at h
      have ht : t.index = t'.index := UInt32.toNat_inj.mp (by omega)
      cases t; cases t'; simp_all

end EntityKey

/-- An entity: what it stands for and the label under which it is stored. -/
structure Entity where
  key : EntityKey
  label : String
  deriving DecidableEq, Repr

namespace Entity

/-- The entity of a syntax node of the given kind. -/
def ofNode (ref : NodeRef) (kind : String) : Entity :=
  ⟨.node ref, kind⟩

/-- The entity of a declaration of the given kind. -/
def ofSymbol (decl : DeclId) (category : DeclCategory) : Entity :=
  ⟨.symbol decl, category.label⟩

/-- The entity of a type of the given kind. -/
def ofType (ty : TypeId) (category : TypeCategory) : Entity :=
  ⟨.type ty, category.label⟩

/-- The id under which the entity is stored. -/
def id (e : Entity) : String :=
  e.key.id

/-- Entities are the same when their keys are. -/
def same (a b : Entity) : Bool :=
  a.key = b.key

end Entity

/-- What a relationship says about its source. -/
inductive Relation where
  /-- A syntax node has a parent: the source is the child. -/
  | parentOf
  /-- A method has a return type. -/
  | returnTypeOf
  /-- A declaration has a value type. -/
  | valueTypeOf
  /-- A reference type has a view of itself. -/
  | typeOf
  deriving DecidableEq, Repr

namespace Relation

def all : List Relation :=
  [.parentOf, .returnTypeOf, .valueTypeOf, .typeOf]

/-- How a relation is written, and the label under which it is stored. -/
def name : Relation → String
  | .parentOf => "parent_of"
  | .returnTypeOf => "return_type_of"
  | .valueTypeOf => "value_type_of"
  | .typeOf => "type_of"

def ofName? (s : String) : Option Relation :=
  all.find? fun r => r.name = s

end Relation

/-- The identity of a relationship. -/
structure RelationKey where
  source : EntityKey
  target : EntityKey
  relation : Relation
  deriving DecidableEq, Repr

/-- A labelled edge between two entities. -/
structure Relationship where
  source : Entity
  target : Entity
  relation : Relation
  deriving DecidableEq, Repr

namespace Relationship

def key (r : Relationship) : RelationKey :=
  ⟨r.source.key, r.target.key, r.relation⟩

def isSelfLoop (r : Relationship) : Bool :=
  r.source.same r.target

end Relationship
end ProgramGraph.Graph
