import ProgramGraph.Program.Lookup

/-!
# ProgramGraph.Program.Tables

Lookups answered from recorded tables.

* `DeclarationRecord`, `TypeRecord`, `BindingRecord` — the rows. A lookup of a type may be recorded as a type or as a
  failure; a recorded type wins over a recorded failure.
* `Tables`         — the rows, declarations and types numbered from zero, bindings in the order they were made: the
  last one for a node counts.
* `Tables.lookup`  — the answers.
* `Tables.addDeclaration`, `addType`, `bind`, `setReturnType`, `setValueType` — recording.
-/

namespace ProgramGraph.Program

/-- A recorded declaration with what is known about its types. -/
structure DeclarationRecord where
  declaration : Declaration
  returnType : Option TypeId := none
  returnTypeFailure : Option LookupFailure := none
  valueType : Option TypeId := none
  valueTypeFailure : Option LookupFailure := none
  deriving DecidableEq, Repr, Inhabited

/-- A recorded type with the declaration behind it. -/
structure TypeRecord where
  type : ResolvedType
  declaration : Option DeclId := none
  deriving DecidableEq, Repr, Inhabited

/-- What one syntax node was resolved to. -/
structure BindingRecord where
  unit : UInt32
  node : UInt32
  declaration : Option DeclId := none
  failure : Option LookupFailure := none
  deriving DecidableEq, Repr, Inhabited

namespace BindingRecord

def ref (b : BindingRecord) : NodeRef :=
  ⟨b.unit, b.node⟩

/-- The recorded outcome: a declaration if there is one, else the failure, else a failure that says so. -/
def outcome (b : BindingRecord) : Except LookupFailure DeclId :=
  match b.declaration, b.failure with
  | some d, _ => .ok d
  | none, some f => .error f
  | none, none => .error ⟨.unresolved, "binding for " ++ b.ref.display ++ " names no declaration"⟩

end BindingRecord

/-- Recorded declarations, types and bindings. -/
structure Tables where
  declarations : Array DeclarationRecord := #[]
  types : Array TypeRecord := #[]
  /-- The outcomes recorded for nodes, the latest first. -/
  bindings : List (NodeRef × Except LookupFailure DeclId) := []

namespace Tables

/-- The tables of a list of declarations, types and bindings. -/
def ofRecords (declarations : List DeclarationRecord) (types : List TypeRecord) (bindings : List BindingRecord) :
    Tables where
  declarations := declarations.toArray
  types := types.toArray
  bindings := (bindings.map fun b => (b.ref, b.outcome)).reverse

/-- Add a declaration; its handle is its place in the table. -/
def addDeclaration (t : Tables) (d : Declaration) : Tables × DeclId :=
  ({ t with declarations := t.declarations.push { declaration := d } }, ⟨UInt32.ofNat t.declarations.size⟩)

/-- Add a type; its handle is its place in the table. -/
def addType (t : Tables) (type : ResolvedType) (declaration : Option DeclId) : Tables × TypeId :=
  ({ t with types := t.types.push { type := type, declaration := declaration } }, ⟨UInt32.ofNat t.types.size⟩)

def bind (t : Tables) (node : NodeRef) (outcome : Except LookupFailure DeclId) : Tables :=
  { t with bindings := (node, outcome) :: t.bindings }

/-- Change the record of a declaration, if there is one. -/
def modifyDeclaration (t : Tables) (d : DeclId) (change : DeclarationRecord → DeclarationRecord) : Tables :=
  { t with declarations := t.declarations.modify d.index.toNat change }

/-- Record the return type of a declaration, or why there is none. -/
def setReturnType (t : Tables) (d : DeclId) (outcome : Except LookupFailure TypeId) : Tables :=
  t.modifyDeclaration d fun r => match outcome with
    | .ok ty => { r with returnType := some ty }
    | .error f => { r with returnTypeFailure := some f }

/-- Record the value type of a declaration, or why there is none. -/
def setValueType (t : Tables) (d : DeclId) (outcome : Except LookupFailure TypeId) : Tables :=
  t.modifyDeclaration d fun r => match outcome with
    | .ok ty => { r with valueType := some ty }
    | .error f => { r with valueTypeFailure := some f }

def declaration? (t : Tables) (d : DeclId) : Except LookupFailure DeclarationRecord :=
  match t.declarations[d.index.toNat]? with
  | some r => .ok r
  | none => .error ⟨.other, s!"unknown declaration {d.index.toNat}"⟩

def type? (t : Tables) (ty : TypeId) : Except LookupFailure TypeRecord :=
  match t.types[ty.index.toNat]? with
  | some r => .ok r
  | none => .error ⟨.other, s!"unknown type {ty.index.toNat}"⟩

/-- The answer to the lookup of a type of the declaration with the given name: a recorded type must be in the table; a
recorded failure counts only where there is no recorded type. -/
def typeOf (t : Tables) (name what : String) (found : Option TypeId) (failure : Option LookupFailure) :
    Except LookupFailure TypeId :=
  match found, failure with
  | some ty, _ => (t.type? ty).map fun _ => ty
  | none, some f => .error f
  | none, none => .error ⟨.unresolved, what ++ " of " ++ name ++ " is not recorded"⟩

/-- The outcome recorded last for a node. -/
def binding? (t : Tables) (node : NodeRef) : Option (Except LookupFailure DeclId) :=
  t.bindings.lookup node

def lookup (t : Tables) : Lookup where
  resolve node := (t.binding? node).getD (.error ⟨.unresolved, "no binding for " ++ node.display⟩)
  declaration d := (t.declaration? d).map (·.declaration)
  returnType d := do
    let r ← t.declaration? d
    t.typeOf r.declaration.name "return type" r.returnType r.returnTypeFailure
  valueType d := do
    let r ← t.declaration? d
    t.typeOf r.declaration.name "value type" r.valueType r.valueTypeFailure
  resolvedType ty := (t.type? ty).map (·.type)
  typeDeclaration ty := t.types[ty.index.toNat]?.bind (·.declaration)

end Tables
end ProgramGraph.Program
