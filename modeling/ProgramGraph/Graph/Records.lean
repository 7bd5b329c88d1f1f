import ProgramGraph.Graph.Entity
import ProgramGraph.Graph.Property
import ProgramGraph.Program.Records

/-!
# ProgramGraph.Graph.Records

The JSON form of entities, relationships and properties.

* `Property.decoder`  — a property value has no tag: it is vetted first and then taken for the first thing it can be, a
  truth value, an integer of 64 bits, a real number, a text or a reference.
* `EntityKey.decoder` — an entity key is tagged with its kind.
* `Bag.decoder`       — a bag is an object; of a repeated name the last value counts, and names are written in order.
-/

namespace ProgramGraph.Graph

open Json Program

namespace Property

def refFields : Fields Property :=
  Property.ref <$> .required "entity_ref" Json.text

def ofVetted? : Outline → Option Property
  | .bool b => some (.bool b)
  | .number n =>
    match n.signed? with
    | some i => some (.int i)
    | none => n.toBinary64?.map .real
  | .string s => s.map .text
  | .object members _ => refFields.ofVetted? members
  | .array items _ => refFields.ofVettedItems? items
  | _ => none

def decoder : Decoder Property :=
  fun depth o => do
    vet depth o
    complete (ofVetted? o)

def document : Property → Document
  | .bool b => .bool b
  | .int i => .int i.toInt
  | .real x => .real x
  | .text s => .text s
  | .ref id => .record [("entity_ref", .text id)]

end Property

namespace Bag

def decoder : Decoder Bag :=
  fun depth o => (pairs Property.decoder depth o).map Bag.ofList

def document (b : Bag) : Document :=
  .record (b.toList.map fun entry => (entry.1, entry.2.document))

end Bag

namespace EntityKind

def all : List EntityKind :=
  [.node, .symbol, .type]

def ofName? (s : String) : Option EntityKind :=
  all.find? fun k => k.name = s

/-- The fields of a key of this kind. -/
def keyFields : EntityKind → Fields EntityKey
  | .node => EntityKey.node <$> NodeRef.fields
  | .symbol => EntityKey.symbol <$> .required "decl" DeclId.decoder
  | .type => EntityKey.type <$> .required "ty" TypeId.decoder

end EntityKind

namespace EntityKey

def decoder : Decoder EntityKey :=
  tagged "kind" EntityKind.ofName? EntityKind.keyFields

/-- The handles of a key under their names. -/
def handleMembers : EntityKey → List (String × Document)
  | .node r => [("unit", wordDocument r.unit), ("node", wordDocument r.node)]
  | .symbol d => [("decl", d.document)]
  | .type t => [("ty", t.document)]

def document (k : EntityKey) : Document :=
  .record (("kind", .text k.kind.name) :: k.handleMembers)

end EntityKey

namespace Entity

/-- The fields of an entity, in the order of its list form. -/
def fields : Fields Entity :=
  Entity.mk <$> .required "key" EntityKey.decoder <*> .required "label" text

def document (e : Entity) : Document :=
  .record [("key", e.key.document), ("label", .text e.label)]

end Entity

namespace Relation

def decoder : Decoder Relation :=
  choice ofName?

def document (r : Relation) : Document :=
  .text r.name

end Relation

namespace Relationship

/-- The fields of a relationship, in the order of its list form. -/
def fields : Fields Relationship :=
  Relationship.mk
    <$> .required "source" (record Entity.fields)
    <*> .required "target" (record Entity.fields)
    <*> .required "label" Relation.decoder

def document (r : Relationship) : Document :=
  .record [("source", r.source.document), ("target", r.target.document), ("label", r.relation.document)]

end Relationship
end ProgramGraph.Graph
