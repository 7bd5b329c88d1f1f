import ProgramGraph.Proofs.Discovery.Reachability
import ProgramGraph.Proofs.Graph.Basic

/-!
# ProgramGraph.Proofs.Discovery.Names

The names under which something is told about entities.

* `propertyNames`      — all of them.
* `names_describe`     — whatever an entity is, its bag has no other names.
-/

namespace ProgramGraph.Discovery

open Program ProgramGraph.Graph

/-- The names of the properties of entities. -/
def propertyNames : List String :=
  ["nodeType", "position", "sourceText", "structuralHash", "beginLine", "beginColumn", "fileName", "packageName",
   "contentHash", "resolvedSymbol", "resolveError", "resolveErrorKind", "declarationError", "name", "category",
   "qualifiedSignature", "returnType", "returnTypeError", "valueType", "valueTypeError", "valueTypeAmbiguity",
   "simpleName", "qualifiedName", "identityHash", "typeError", "isReferenceType", "isNullType", "isNumeric",
   "isPrimitive", "isReference", "fullName", "typeDeclaration"]

/-- Properties with no other names. -/
def Named (entries : List (String × Property)) : Prop :=
  entries.map Prod.fst ⊆ propertyNames

namespace Named

protected theorem nil : Named [] :=
  List.nil_subset _

theorem append {entries entries' : List (String × Property)} (h : Named entries) (h' : Named entries') :
    Named (entries ++ entries') := by
  rw [Named, List.map_append]
  exact List.append_subset.mpr ⟨h, h'⟩

theorem mem {entries : List (String × Property)} (h : Named entries) {name : String} (hn : name ∈ Bag.ofList entries) :
    name ∈ propertyNames :=
  h (Bag.mem_ofList.mp hn)

end Named

variable (w : World)

/-! ## Syntax nodes -/

theorem named_nodeProperties (n : SourceNode) : Named (nodeProperties n) := by
  simp [Named, nodeProperties, propertyNames]

theorem named_beginProperties (p : Option Position) : Named (beginProperties p) := by
  cases p <;> simp [Named, beginProperties, propertyNames]

theorem named_fileProperties (u : SourceUnit) : Named (fileProperties u) := by
  rw [fileProperties]
  cases u.contentHash <;> simp [Named, propertyNames]

theorem named_parentLink (ref : NodeRef) (u : SourceUnit) (n : SourceNode) : Named (parentLink ref u n).1 := by
  rw [parentLink]
  cases n.parent with
  | none => exact named_fileProperties u
  | some p => cases hp : u.node? p <;> simp [hp, Named.nil]

theorem named_resolveNode (ref : NodeRef) (n : SourceNode) : Named (resolveNode w ref n).properties := by
  rw [resolveNode]
  split
  · cases w.lookup.resolve ref <;> simp [Named, propertyNames]
  · exact .nil

/-! ## Declarations and types -/

theorem named_describeCategory (symbol : Entity) (d : DeclId) (declaration : Declaration) :
    Named (describeCategory w symbol d declaration).properties := by
  rw [describeCategory]
  split
  · rw [describeReturnType]
    cases w.lookup.returnType d <;> simp [Named, propertyNames]
  · split
    · rw [describeValueType]
      cases w.lookup.valueType d with
      | ok t => simp [Named, propertyNames]
      | error f =>
        show [valueTypeFailureName f] ⊆ propertyNames
        rw [valueTypeFailureName]
        split <;> simp [propertyNames]
    · split
      · simp [Named, describeReferenceDeclaration, propertyNames]
      · exact .nil

theorem named_nameProperties (full simple declaration : String) : Named (nameProperties full simple declaration) := by
  simp [Named, nameProperties, propertyNames]

theorem named_plainNames (type : ResolvedType) : Named (plainNames type) :=
  named_nameProperties ..

theorem named_describeTypeDeclaration (t : TypeId) (type : ResolvedType) :
    Named (describeTypeDeclaration w t type).properties := by
  rw [describeTypeDeclaration]
  cases w.lookup.typeDeclaration t with
  | none => exact named_plainNames type
  | some d =>
    cases hd : w.lookup.declaration d with
    | ok declaration =>
      simp only [hd]
      exact named_nameProperties ..
    | error f =>
      simp only [hd]
      exact named_plainNames type

theorem named_typeProperties (type : ResolvedType) : Named (typeProperties type) := by
  simp [Named, typeProperties, propertyNames]

/-! ## Entities -/

theorem names_describeNode (ref : NodeRef) {name : String} (h : name ∈ (describeNode w ref).bag) :
    name ∈ propertyNames := by
  cases hu : w.units.get? ref.unit with
  | none =>
    rw [describeNode, hu] at h
    exact Named.nil.mem h
  | some u =>
    cases hn : u.node? ref.node with
    | none =>
      simp only [describeNode, hu, hn] at h
      exact Named.nil.mem h
    | some n =>
      rw [describeNode_of_node? hu hn] at h
      exact ((((named_nodeProperties n).append (named_beginProperties _)).append (named_parentLink ref u n)).append
        (named_resolveNode w ref n)).mem h

theorem names_describeSymbol (symbol : Entity) (d : DeclId) {name : String} (h : name ∈ (describeSymbol w symbol d).bag) :
    name ∈ propertyNames := by
  rw [describeSymbol] at h
  cases hd : w.lookup.declaration d with
  | error f =>
    rw [hd] at h
    refine Named.mem ?_ h
    simp [Named, propertyNames]
  | ok declaration =>
    rw [hd] at h
    refine Named.mem (.append ?_ (named_describeCategory w symbol d declaration)) h
    simp [Named, propertyNames]

theorem names_describeType (entity : Entity) (t : TypeId) {name : String} (h : name ∈ (describeType w entity t).bag) :
    name ∈ propertyNames := by
  rw [describeType] at h
  cases ht : w.lookup.resolvedType t with
  | error f =>
    rw [ht] at h
    refine Named.mem ?_ h
    simp [Named, propertyNames]
  | ok type =>
    simp only [ht] at h
    split at h <;> dsimp only at h
    · exact ((named_typeProperties type).append (named_describeTypeDeclaration w t type)).mem h
    · exact ((named_typeProperties type).append (named_plainNames type)).mem h

theorem names_describe (e : Entity) {name : String} (h : name ∈ (describe w e).bag) : name ∈ propertyNames := by
  cases hk : e.key with
  | node ref =>
    rw [describe, hk] at h
    exact names_describeNode w ref h
  | symbol d =>
    rw [describe, hk] at h
    exact names_describeSymbol w e d h
  | type t =>
    rw [describe, hk] at h
    exact names_describeType w e t h

end ProgramGraph.Discovery
