import ProgramGraph.Digest.Fingerprint
import ProgramGraph.Event
import ProgramGraph.Graph.Basic
import ProgramGraph.Program.Units

/-!
# ProgramGraph.Discovery.Enrichment

What one entity contributes to a program graph, seen alone.

* `World`      — what is looked at: the units, the lookups and the options.
* `Finding`    — something an entity leads to: another entity, or a relationship.
* `Enrichment` — the contribution of one entity: its bag, its findings in order, and the lookup that failed, if any.
* `describe`   — the contribution of an entity. It depends on the entity and on the world only, never on the graph so
  far.

A failed lookup becomes a property of the entity that asked; it never stops anything.
-/

namespace ProgramGraph.Discovery

open Program ProgramGraph.Graph Digest

/-- Choices for one discovery. -/
structure Options where
  /-- Relate every reference type to itself. -/
  typeSelfLoops : Bool := true
  deriving DecidableEq, Repr

/-- What is looked at. -/
structure World where
  units : Units
  lookup : Lookup
  options : Options := {}

/-- Something that an entity leads to. -/
inductive Finding where
  | entity (e : Entity)
  | relationship (r : Relationship) (bag : Bag)

/-- The contribution of one entity. -/
structure Enrichment where
  bag : Bag := .empty
  findings : List Finding := []
  failure : Option (Question × LookupFailure) := none
  /-- Nothing is known about the entity: what is missing. -/
  missing : Option (String → Event) := none

/-- The value of a property without a meaningful answer. -/
def notAvailable : String := "N/A"

/-- The package of units without a package. -/
def defaultPackage : String := "default"

/-- The position of nodes without one. -/
def unknownPosition : String := "unknown"

/-- The entity of a declaration; one that cannot be described has the category `other`. -/
def symbolEntity (w : World) (d : DeclId) : Entity :=
  match w.lookup.declaration d with
  | .ok declaration => .ofSymbol d declaration.category
  | .error _ => .ofSymbol d .other

/-- The entity of a type; one that cannot be described has the category `other`. -/
def typeEntity (w : World) (t : TypeId) : Entity :=
  match w.lookup.resolvedType t with
  | .ok type => .ofType t type.category
  | .error _ => .ofType t .other

/-! ## Syntax nodes -/

def nodeProperties (n : SourceNode) : List (String × Property) :=
  [("nodeType", .text n.kind),
   ("position", .text ((n.begin.map Position.display).getD unknownPosition)),
   ("sourceText", .text n.text),
   ("structuralHash", .text (fingerprint [n.kind, n.text]))]

def beginProperties : Option Position → List (String × Property)
  | some p => [("beginLine", .ofWord p.line), ("beginColumn", .ofWord p.column)]
  | none => []

/-- The properties of a file, which its root carries. -/
def fileProperties (u : SourceUnit) : List (String × Property) :=
  let hash := match u.contentHash with
    | some h => [("contentHash", Property.text h)]
    | none => []
  [("fileName", .text (u.fileName.getD notAvailable)), ("packageName", .text (u.package.getD defaultPackage))] ++ hash

/-- What resolving a node leads to. -/
structure Resolution where
  properties : List (String × Property) := []
  findings : List Finding := []
  failure : Option (Question × LookupFailure) := none

/-- Resolve a node, if it can be resolved. -/
def resolveNode (w : World) (ref : NodeRef) (n : SourceNode) : Resolution :=
  if n.resolvable then
    match w.lookup.resolve ref with
    | .ok d =>
      let symbol := symbolEntity w d
      { properties := [("resolvedSymbol", .ref symbol.id)], findings := [.entity symbol] }
    | .error f =>
      { properties := [("resolveError", .text f.text), ("resolveErrorKind", .text f.kind.name)]
        failure := some (.resolution, f) }
  else {}

/-- The link from a node to its parent, and the properties of the file at the root. -/
def parentLink (ref : NodeRef) (u : SourceUnit) (n : SourceNode) : List (String × Property) × List Finding :=
  match n.parent with
  | none => (fileProperties u, [])
  | some p =>
    match u.node? p with
    | none => ([], [])
    | some parent =>
      ([], [.relationship ⟨.ofNode ref n.kind, .ofNode ⟨ref.unit, p⟩ parent.kind, .parentOf⟩ .empty])

def describeNode (w : World) (ref : NodeRef) : Enrichment :=
  match w.units.get? ref.unit with
  | none => { missing := some .unitMissing }
  | some u =>
    match u.node? ref.node with
    | none => { missing := some .nodeMissing }
    | some n =>
      let (fileBag, link) := parentLink ref u n
      let resolved := resolveNode w ref n
      { bag := .ofList (nodeProperties n ++ beginProperties n.begin ++ fileBag ++ resolved.properties)
        findings := link ++ resolved.findings
        failure := resolved.failure }

/-! ## Declarations -/

/-- The description of a type, as far as there is one. -/
def typeDescription (w : World) (t : TypeId) : String :=
  match w.lookup.resolvedType t with
  | .ok type => type.description
  | .error _ => notAvailable

/-- The signature of a declaration, as far as there is one. -/
def signature (w : World) (d : DeclId) (declaration : Declaration) : String :=
  if declaration.category.isMethodLike then declaration.qualifiedSignature.getD notAvailable
  else if declaration.category = .referenceType then declaration.qualifiedName.getD notAvailable
  else if declaration.category.isValueLike then
    match w.lookup.valueType d with
    | .ok t => typeDescription w t
    | .error _ => notAvailable
  else notAvailable

/-- The relationship from a symbol to one of its types. -/
def typeLink (w : World) (symbol : Entity) (t : TypeId) (relation : Relation) (uses : String) : Finding :=
  .relationship ⟨symbol, typeEntity w t, relation⟩ (.ofList [("uses", .text uses)])

/-- What the return type of a method adds. -/
def describeReturnType (w : World) (symbol : Entity) (d : DeclId) : Resolution :=
  match w.lookup.returnType d with
  | .ok t =>
    { properties := [("returnType", .text (typeDescription w t))]
      findings := [typeLink w symbol t .returnTypeOf "return_type"] }
  | .error f =>
    { properties := [("returnTypeError", .text f.message)], failure := some (.returnType, f) }

/-- The name under which a failed lookup of a value type is recorded. -/
def valueTypeFailureName (f : LookupFailure) : String :=
  if f.kind = .ambiguous then "valueTypeAmbiguity" else "valueTypeError"

/-- What the value type of a declaration adds. -/
def describeValueType (w : World) (symbol : Entity) (d : DeclId) : Resolution :=
  match w.lookup.valueType d with
  | .ok t =>
    { properties := [("valueType", .text (typeDescription w t))]
      findings := [typeLink w symbol t .valueTypeOf "value_type"] }
  | .error f =>
    { properties := [(valueTypeFailureName f, .text f.message)], failure := some (.valueType, f) }

/-- What a declared reference type adds; its members and supertypes are not looked at. -/
def describeReferenceDeclaration (declaration : Declaration) : Resolution :=
  let qualified := declaration.qualifiedName.getD declaration.name
  { properties :=
      [("simpleName", .text declaration.name), ("qualifiedName", .text qualified),
       ("identityHash", .text (fingerprint [declaration.category.name, qualified]))] }

def describeCategory (w : World) (symbol : Entity) (d : DeclId) (declaration : Declaration) : Resolution :=
  if declaration.category.hasReturnType then describeReturnType w symbol d
  else if declaration.category.isValueLike then describeValueType w symbol d
  else if declaration.category = .referenceType then describeReferenceDeclaration declaration
  else {}

def describeSymbol (w : World) (symbol : Entity) (d : DeclId) : Enrichment :=
  match w.lookup.declaration d with
  | .error f =>
    { bag := .ofList [("declarationError", .text f.message)], failure := some (.declaration, f) }
  | .ok declaration =>
    let added := describeCategory w symbol d declaration
    { bag := .ofList
        ([("name", .text declaration.name), ("category", .text declaration.category.name),
          ("qualifiedSignature", .text (signature w d declaration))] ++ added.properties)
      findings := added.findings
      failure := added.failure }

/-! ## Types -/

def typeProperties (type : ResolvedType) : List (String × Property) :=
  [("isReferenceType", .bool type.isReferenceType), ("isNullType", .bool type.isNull),
   ("isNumeric", .bool type.numeric), ("isPrimitive", .bool type.isPrimitive),
   ("isReference", .bool type.isReference),
   ("structuralHash", .text (fingerprint [type.category.name, type.description]))]

def nameProperties (full simple declaration : String) : List (String × Property) :=
  [("fullName", .text full), ("simpleName", .text simple), ("typeDeclaration", .text declaration)]

/-- The names of a type without a declaration. -/
def plainNames (type : ResolvedType) : List (String × Property) :=
  nameProperties type.description type.description notAvailable

/-- What the declaration behind a reference type adds. -/
def describeTypeDeclaration (w : World) (t : TypeId) (type : ResolvedType) : Resolution :=
  match w.lookup.typeDeclaration t with
  | none => { properties := plainNames type }
  | some d =>
    let symbol := Finding.entity (symbolEntity w d)
    match w.lookup.declaration d with
    | .ok declaration =>
      { properties :=
          nameProperties (declaration.qualifiedName.getD type.description) declaration.name declaration.name
        findings := [symbol] }
    | .error f =>
      { properties := plainNames type, findings := [symbol], failure := some (.typeDeclaration, f) }

/-- The relationship of a reference type to itself, if it is wanted. -/
def selfLoop (w : World) (entity : Entity) : List Finding :=
  if w.options.typeSelfLoops then
    [.relationship ⟨entity, entity, .typeOf⟩ (.ofList [("uses", .text "reference_type")])]
  else []

def describeType (w : World) (entity : Entity) (t : TypeId) : Enrichment :=
  match w.lookup.resolvedType t with
  | .error f => { bag := .ofList [("typeError", .text f.message)], failure := some (.type, f) }
  | .ok type =>
    if type.isReferenceType then
      let added := describeTypeDeclaration w t type
      { bag := .ofList (typeProperties type ++ added.properties)
        findings := selfLoop w entity ++ added.findings
        failure := added.failure }
    else { bag := .ofList (typeProperties type ++ plainNames type) }

def describe (w : World) (e : Entity) : Enrichment :=
  match e.key with
  | .node ref => describeNode w ref
  | .symbol d => describeSymbol w e d
  | .type t => describeType w e t

end ProgramGraph.Discovery
