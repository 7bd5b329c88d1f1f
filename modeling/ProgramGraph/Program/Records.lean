import ProgramGraph.Json.Decoder
import ProgramGraph.Json.Document
import ProgramGraph.Program.Tables

/-!
# ProgramGraph.Program.Records

The JSON form of programs: units, declarations, types and bindings.

For every kind of record there is

* `fields` or `decoder` — the way to read it, fields in the order in which they are declared, and
* `document`            — the way to write it, the same fields in the same order; what is absent is written as `null`.

A declaration or a type is written flat: its own fields first, then what the tables know about it.
-/

namespace ProgramGraph.Program

open Json

def wordDocument (n : UInt32) : Document :=
  .int n.toNat

/-! ## Units -/

namespace Position

/-- The fields of a position, in the order of its list form. -/
def fields : Fields Position :=
  Position.mk <$> .required "line" word32 <*> .required "column" word32

def document (p : Position) : Document :=
  .record [("line", wordDocument p.line), ("column", wordDocument p.column)]

end Position

namespace NodeRef

/-- The fields of a reference to a node, in the order of its list form. -/
def fields : Fields NodeRef :=
  NodeRef.mk <$> .required "unit" word32 <*> .required "node" word32

def document (r : NodeRef) : Document :=
  .record [("unit", wordDocument r.unit), ("node", wordDocument r.node)]

end NodeRef

namespace SourceNode

/-- The fields of a node, in the order of its list form. -/
def fields : Fields SourceNode :=
  SourceNode.mk
    <$> .required "kind" Json.text
    <*> .optional "begin" (record Position.fields)
    <*> .defaulted "text" Json.text ""
    <*> .optional "parent" word32
    <*> .defaulted "resolvable" bool false

def document (n : SourceNode) : Document :=
  .record
    [("kind", .text n.kind), ("begin", .orNull Position.document n.begin), ("text", .text n.text),
     ("parent", .orNull wordDocument n.parent), ("resolvable", .bool n.resolvable)]

end SourceNode

namespace SourceUnit

/-- The fields of a unit, in the order of its list form. -/
def fields : Fields SourceUnit :=
  (fun fileName package contentHash parseErrors nodes =>
      SourceUnit.mk fileName package contentHash parseErrors nodes.toArray)
    <$> .optional "file_name" text
    <*> .optional "package" text
    <*> .optional "content_hash" text
    <*> .defaulted "parse_errors" (list text) []
    <*> .defaulted "nodes" (list (record SourceNode.fields)) []

def document (u : SourceUnit) : Document :=
  .record
    [("file_name", .orNull .text u.fileName), ("package", .orNull .text u.package),
     ("content_hash", .orNull .text u.contentHash), ("parse_errors", .list (u.parseErrors.map .text)),
     ("nodes", .list (u.nodes.toList.map SourceNode.document))]

end SourceUnit

/-! ## Declarations, types and bindings -/

namespace LookupFailure

/-- The fields of a failed lookup, in the order of its list form. -/
def fields : Fields LookupFailure :=
  LookupFailure.mk <$> .required "kind" (choice FailureKind.ofName?) <*> .defaulted "message" Json.text ""

def document (f : LookupFailure) : Document :=
  .record [("kind", .text f.kind.name), ("message", .text f.text)]

end LookupFailure

namespace DeclId

def decoder : Decoder DeclId :=
  fun depth o => (word32 depth o).map DeclId.mk

def document (d : DeclId) : Document :=
  wordDocument d.index

end DeclId

namespace TypeId

def decoder : Decoder TypeId :=
  fun depth o => (word32 depth o).map TypeId.mk

def document (t : TypeId) : Document :=
  wordDocument t.index

end TypeId

namespace Declaration

/-- The fields of a declaration, which stand inside a larger record. -/
def fields : Fields Declaration :=
  Declaration.mk
    <$> .required "name" text
    <*> .required "category" (vettedChoice DeclCategory.ofName?)
    <*> .optional "qualified_name" text
    <*> .optional "qualified_signature" text

/-- The members of a declaration, which stand among those of the record around it. -/
def members (d : Declaration) : List (String × Document) :=
  [("name", .text d.name), ("category", .text d.category.name),
   ("qualified_name", .orNull .text d.qualifiedName),
   ("qualified_signature", .orNull .text d.qualifiedSignature)]

end Declaration

namespace DeclarationRecord

/-- What the tables know about the types of a declaration. -/
def outerFields : Fields (Declaration → DeclarationRecord) :=
  (fun returnType returnTypeFailure valueType valueTypeFailure declaration =>
      DeclarationRecord.mk declaration returnType returnTypeFailure valueType valueTypeFailure)
    <$> .optional "return_type" TypeId.decoder
    <*> .optional "return_type_error" (record LookupFailure.fields)
    <*> .optional "value_type" TypeId.decoder
    <*> .optional "value_type_error" (record LookupFailure.fields)

def decoder : Decoder DeclarationRecord :=
  fun depth o => (flattened outerFields Declaration.fields depth o).map fun found => found.1 found.2

def document (r : DeclarationRecord) : Document :=
  .record
    (r.declaration.members ++
      [("return_type", .orNull TypeId.document r.returnType),
       ("return_type_error", .orNull LookupFailure.document r.returnTypeFailure),
       ("value_type", .orNull TypeId.document r.valueType),
       ("value_type_error", .orNull LookupFailure.document r.valueTypeFailure)])

end DeclarationRecord

namespace ResolvedType

/-- The fields of a type, which stand inside a larger record. -/
def fields : Fields ResolvedType :=
  ResolvedType.mk
    <$> .required "description" text
    <*> .required "category" (vettedChoice TypeCategory.ofName?)
    <*> .defaulted "numeric" bool false

/-- The members of a type, which stand among those of the record around it. -/
def members (t : ResolvedType) : List (String × Document) :=
  [("description", .text t.description), ("category", .text t.category.name), ("numeric", .bool t.numeric)]

end ResolvedType

namespace TypeRecord

/-- What the tables know about the declaration behind a type. -/
def outerFields : Fields (ResolvedType → TypeRecord) :=
  (fun declaration type => TypeRecord.mk type declaration) <$> .optional "declaration" DeclId.decoder

def decoder : Decoder TypeRecord :=
  fun depth o => (flattened outerFields ResolvedType.fields depth o).map fun found => found.1 found.2

def document (r : TypeRecord) : Document :=
  .record (r.type.members ++ [("declaration", .orNull DeclId.document r.declaration)])

end TypeRecord

namespace BindingRecord

/-- The fields of a binding, in the order of its list form. -/
def fields : Fields BindingRecord :=
  BindingRecord.mk
    <$> .required "unit" word32
    <*> .required "node" word32
    <*> .optional "declaration" DeclId.decoder
    <*> .optional "error" (record LookupFailure.fields)

def document (b : BindingRecord) : Document :=
  .record
    [("unit", wordDocument b.unit), ("node", wordDocument b.node),
     ("declaration", .orNull DeclId.document b.declaration), ("error", .orNull LookupFailure.document b.failure)]

end BindingRecord
end ProgramGraph.Program
