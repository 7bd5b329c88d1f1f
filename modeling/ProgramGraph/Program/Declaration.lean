/-!
# ProgramGraph.Program.Declaration

What names and types of a program resolve to.

* `DeclId`, `TypeId`         — handles of 32 bits.
* `DeclCategory`, `Declaration` — declarations and their kinds.
* `TypeCategory`, `ResolvedType` — types and their kinds.

Each category has a name, which is how it is written, and a label, which its entities carry in a graph.
-/

namespace ProgramGraph.Program

/-- The handle of a declaration. -/
structure DeclId where
  index : UInt32
  deriving DecidableEq, Repr, Inhabited

/-- The handle of a type. -/
structure TypeId where
  index : UInt32
  deriving DecidableEq, Repr, Inhabited

/-- The kind of a declaration. -/
inductive DeclCategory where
  | method
  | constructor
  | field
  | parameter
  | localVariable
  | enumConstant
  | referenceType
  | other
  deriving DecidableEq, Repr, Inhabited

namespace DeclCategory

def all : List DeclCategory :=
  [.method, .constructor, .field, .parameter, .localVariable, .enumConstant, .referenceType, .other]

def name : DeclCategory → String
  | .method => "method"
  | .constructor => "constructor"
  | .field => "field"
  | .parameter => "parameter"
  | .localVariable => "local_variable"
  | .enumConstant => "enum_constant"
  | .referenceType => "reference_type"
  | .other => "other"

def ofName? (s : String) : Option DeclCategory :=
  all.find? fun c => c.name = s

def label : DeclCategory → String
  | .method => "ResolvedMethod"
  | .constructor => "ResolvedConstructor"
  | .field => "ResolvedField"
  | .parameter => "ResolvedParameter"
  | .localVariable => "ResolvedLocalVariable"
  | .enumConstant => "ResolvedEnumConstant"
  | .referenceType => "ResolvedReferenceTypeDeclaration"
  | .other => "ResolvedDeclaration"

def isMethodLike : DeclCategory → Bool
  | .method | .constructor => true
  | _ => false

/-- Declarations with a return type; constructors have none. -/
def hasReturnType : DeclCategory → Bool
  | .method => true
  | _ => false

def isValueLike : DeclCategory → Bool
  | .field | .parameter | .localVariable | .enumConstant => true
  | _ => false

theorem hasReturnType_iff {c : DeclCategory} : c.hasReturnType = true ↔ c = .method := by
  cases c <;> simp [hasReturnType]

theorem hasReturnType_of_isValueLike {c : DeclCategory} (h : c.isValueLike = true) : c.hasReturnType = false := by
  cases c <;> simp [isValueLike] at h <;> rfl

end DeclCategory

/-- A declaration. -/
structure Declaration where
  name : String
  category : DeclCategory
  qualifiedName : Option String := none
  qualifiedSignature : Option String := none
  deriving DecidableEq, Repr, Inhabited

/-- The kind of a type. -/
inductive TypeCategory where
  | primitive
  | reference
  | array
  | typeVariable
  | wildcard
  | null
  | void
  | other
  deriving DecidableEq, Repr, Inhabited

namespace TypeCategory

def all : List TypeCategory :=
  [.primitive, .reference, .array, .typeVariable, .wildcard, .null, .void, .other]

def name : TypeCategory → String
  | .primitive => "primitive"
  | .reference => "reference"
  | .array => "array"
  | .typeVariable => "type_variable"
  | .wildcard => "wildcard"
  | .null => "null"
  | .void => "void"
  | .other => "other"

def ofName? (s : String) : Option TypeCategory :=
  all.find? fun c => c.name = s

def label : TypeCategory → String
  | .primitive => "ResolvedPrimitiveType"
  | .reference => "ResolvedReferenceType"
  | .array => "ResolvedArrayType"
  | .typeVariable => "ResolvedTypeVariable"
  | .wildcard => "ResolvedWildcard"
  | .null => "NullType"
  | .void => "ResolvedVoidType"
  | .other => "ResolvedType"

end TypeCategory

/-- A type. -/
structure ResolvedType where
  description : String
  category : TypeCategory
  numeric : Bool := false
  deriving DecidableEq, Repr, Inhabited

namespace ResolvedType

/-- A reference type proper. -/
def isReferenceType (t : ResolvedType) : Bool :=
  t.category = .reference

theorem isReferenceType_iff {t : ResolvedType} : t.isReferenceType = true ↔ t.category = .reference := by
  simp [isReferenceType]

def isNull (t : ResolvedType) : Bool :=
  t.category = .null

def isPrimitive (t : ResolvedType) : Bool :=
  t.category = .primitive

/-- Anything held by reference. -/
def isReference (t : ResolvedType) : Bool :=
  match t.category with
  | .reference | .array | .typeVariable | .wildcard | .null => true
  | _ => false

end ResolvedType
end ProgramGraph.Program
