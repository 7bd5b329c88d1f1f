import ProgramGraph.Program.Records
import ProgramGraph.Program.Snapshot
import ProgramGraph.Proofs.Json.Reading

/-!
# ProgramGraph.Proofs.Program.Records

The records of a program are read back as they were written.

There is one law for every record: its fields are restored one by one, each from the member with its name.
-/

namespace ProgramGraph.Program

open Json

variable {levels : Nat}

theorem FailureKind.ofName?_name (k : FailureKind) : FailureKind.ofName? k.name = some k := by
  cases k <;> decide

theorem DeclCategory.ofName?_name (c : DeclCategory) : DeclCategory.ofName? c.name = some c := by
  cases c <;> decide

theorem TypeCategory.ofName?_name (c : TypeCategory) : TypeCategory.ofName? c.name = some c := by
  cases c <;> decide

/-! ## Units -/

theorem readsAs_wordDocument (n : UInt32) : (wordDocument n).ReadsAs word32 levels n :=
  readsAs_word32 n

theorem Position.readsAs (p : Position) : p.document.ReadsAs (record fields) (levels + 1) p :=
  Fields.Restores.readsAs
    (.seq (.map _ (.required (by simp) (readsAs_wordDocument p.line)))
      (.required (by simp) (readsAs_wordDocument p.column)) (by simp))
    (by simp [fields])

theorem NodeRef.restores (r : NodeRef) :
    fields.Restores levels [("unit", wordDocument r.unit), ("node", wordDocument r.node)] r :=
  .seq (.map _ (.required (by simp) (readsAs_wordDocument r.unit)))
    (.required (by simp) (readsAs_wordDocument r.node)) (by simp)

theorem readsAs_orNull_word (x : Option UInt32) :
    (Document.orNull wordDocument x).ReadsAs (optional word32) levels x :=
  readsAs_orNull (fun n _ => readsAs_wordDocument n) nofun

theorem readsAs_orNull_text (x : Option String) : (Document.orNull .text x).ReadsAs (optional text) levels x :=
  readsAs_orNull (fun s _ => readsAs_text s) nofun

theorem SourceNode.readsAs (n : SourceNode) : n.document.ReadsAs (record fields) (levels + 2) n := by
  have begin_restores : (Document.orNull Position.document n.begin).ReadsAs (optional (record Position.fields))
      (levels + 1) n.begin := readsAs_orNull (fun p _ => p.readsAs) nofun
  refine Fields.Restores.readsAs
    (.seq (.seq (.seq (.seq (.map _ ?kind) ?begin ?_) ?text ?_) ?parent ?_) ?resolvable ?_) (by simp [fields])
  case kind => exact .required (by simp) (readsAs_text n.kind)
  case begin => exact .optional (by simp) begin_restores
  case text => exact .defaulted (by simp) (readsAs_text n.text)
  case parent => exact .optional (by simp) (readsAs_orNull_word n.parent)
  case resolvable => exact .defaulted (by simp) (readsAs_bool n.resolvable)
  all_goals simp

theorem SourceUnit.readsAs (u : SourceUnit) : u.document.ReadsAs (record fields) (levels + 4) u := by
  refine Fields.Restores.readsAs (x := u)
    (.seq (.seq (.seq (.seq (.map _ ?fileName) ?package ?_) ?contentHash ?_) ?parseErrors ?_) ?nodes ?_) (by simp [fields])
  case fileName => exact .optional (by simp) (readsAs_orNull_text u.fileName)
  case package => exact .optional (by simp) (readsAs_orNull_text u.package)
  case contentHash => exact .optional (by simp) (readsAs_orNull_text u.contentHash)
  case parseErrors => exact .defaulted (by simp) (readsAs_list fun s _ => readsAs_text s)
  case nodes => exact .defaulted (by simp) (readsAs_list fun n _ => n.readsAs)
  all_goals simp

/-! ## Declarations, types and bindings -/

theorem LookupFailure.readsAs (f : LookupFailure) : f.document.ReadsAs (record fields) (levels + 1) f := by
  refine Fields.Restores.readsAs (.seq (.map _ ?kind) ?message ?_) (by simp [fields])
  case kind => exact .required (by simp) (readsAs_choice (FailureKind.ofName?_name f.kind))
  case message => exact .defaulted (by simp) (readsAs_text f.text)
  all_goals simp

theorem DeclId.readsAs (d : DeclId) : d.document.ReadsAs decoder levels d :=
  (readsAs_wordDocument d.index).map DeclId.mk

theorem TypeId.readsAs (t : TypeId) : t.document.ReadsAs decoder levels t :=
  (readsAs_wordDocument t.index).map TypeId.mk

theorem readsAs_orNull_failure (x : Option LookupFailure) :
    (Document.orNull LookupFailure.document x).ReadsAs (optional (record LookupFailure.fields)) (levels + 1) x :=
  readsAs_orNull (fun f _ => f.readsAs) nofun

theorem readsAs_orNull_decl (x : Option DeclId) :
    (Document.orNull DeclId.document x).ReadsAs (optional DeclId.decoder) levels x :=
  readsAs_orNull (fun d _ => d.readsAs) nofun

theorem readsAs_orNull_type (x : Option TypeId) :
    (Document.orNull TypeId.document x).ReadsAs (optional TypeId.decoder) levels x :=
  readsAs_orNull (fun t _ => t.readsAs) nofun

theorem Declaration.restores (d : Declaration) : fields.Restores levels d.members d := by
  refine .seq (.seq (.seq (.map _ ?name) ?category ?_) ?qualifiedName ?_) ?qualifiedSignature ?_
  case name => exact .required (by simp [members]) (readsAs_text d.name)
  case category => exact .required (by simp [members]) (readsAs_vettedChoice (DeclCategory.ofName?_name d.category))
  case qualifiedName => exact .optional (by simp [members]) (readsAs_orNull_text d.qualifiedName)
  case qualifiedSignature => exact .optional (by simp [members]) (readsAs_orNull_text d.qualifiedSignature)
  all_goals simp

theorem Declaration.vets (d : Declaration) : ∀ m ∈ d.members, m.2.ReadsAs vet levels () := by
  simp [members, vets_text, vets_orNull_text]

/-- The members that stand after those of the declaration. -/
def DeclarationRecord.outerMembers (r : DeclarationRecord) : List (String × Document) :=
  [("return_type", .orNull TypeId.document r.returnType),
   ("return_type_error", .orNull LookupFailure.document r.returnTypeFailure),
   ("value_type", .orNull TypeId.document r.valueType),
   ("value_type_error", .orNull LookupFailure.document r.valueTypeFailure)]

theorem DeclarationRecord.restores (r : DeclarationRecord) :
    outerFields.Restores (levels + 1) (r.declaration.members ++ r.outerMembers) fun d => { r with declaration := d } := by
  refine .seq (.seq (.seq (.map _ ?returnType) ?returnTypeFailure ?_) ?valueType ?_) ?valueTypeFailure ?_
  case returnType =>
    exact .optional (by simp [Declaration.members, outerMembers]) (readsAs_orNull_type r.returnType)
  case returnTypeFailure =>
    exact .optional (by simp [Declaration.members, outerMembers]) (readsAs_orNull_failure r.returnTypeFailure)
  case valueType =>
    exact .optional (by simp [Declaration.members, outerMembers]) (readsAs_orNull_type r.valueType)
  case valueTypeFailure =>
    exact .optional (by simp [Declaration.members, outerMembers]) (readsAs_orNull_failure r.valueTypeFailure)
  all_goals simp

theorem DeclarationRecord.readsAs (r : DeclarationRecord) : r.document.ReadsAs decoder (levels + 2) r := by
  have inner : Declaration.fields.Restores (levels + 1) r.declaration.members r.declaration := r.declaration.restores
  have flat := readsAs_flattened r.restores inner r.declaration.vets
    (by simp [Declaration.members, Declaration.fields]) (by simp [Declaration.members, outerFields])
    (by simp [outerMembers, outerFields])
  exact flat.map fun found => found.1 found.2

theorem ResolvedType.restores (t : ResolvedType) : fields.Restores levels t.members t := by
  refine .seq (.seq (.map _ ?description) ?category ?_) ?numeric ?_
  case description => exact .required (by simp [members]) (readsAs_text t.description)
  case category => exact .required (by simp [members]) (readsAs_vettedChoice (TypeCategory.ofName?_name t.category))
  case numeric => exact .defaulted (by simp [members]) (readsAs_bool t.numeric)
  all_goals simp

theorem ResolvedType.vets (t : ResolvedType) : ∀ m ∈ t.members, m.2.ReadsAs vet levels () := by
  simp [members, vets_text, vets_bool]

theorem TypeRecord.restores (r : TypeRecord) :
    outerFields.Restores levels (r.type.members ++ [("declaration", .orNull DeclId.document r.declaration)])
      fun t => { r with type := t } :=
  .map _ (.optional (by simp [ResolvedType.members]) (readsAs_orNull_decl r.declaration))

theorem TypeRecord.readsAs (r : TypeRecord) : r.document.ReadsAs decoder (levels + 1) r := by
  have inner : ResolvedType.fields.Restores levels r.type.members r.type := r.type.restores
  have flat := readsAs_flattened r.restores inner r.type.vets
    (by simp [ResolvedType.members, ResolvedType.fields]) (by simp [ResolvedType.members, outerFields])
    (by simp [outerFields])
  exact flat.map fun found => found.1 found.2

theorem BindingRecord.readsAs (b : BindingRecord) : b.document.ReadsAs (record fields) (levels + 2) b := by
  refine Fields.Restores.readsAs (.seq (.seq (.seq (.map _ ?unit) ?node ?_) ?declaration ?_) ?failure ?_) (by simp [fields])
  case unit => exact .required (by simp) (readsAs_wordDocument b.unit)
  case node => exact .required (by simp) (readsAs_wordDocument b.node)
  case declaration => exact .optional (by simp) (readsAs_orNull_decl b.declaration)
  case failure => exact .optional (by simp) (readsAs_orNull_failure b.failure)
  all_goals simp

/-! ## Snapshots -/

theorem Snapshot.readsAs (s : Snapshot) : s.document.ReadsAs (record fields) (levels + 6) s := by
  refine Fields.Restores.readsAs (.seq (.seq (.seq (.map _ ?units) ?declarations ?_) ?types ?_) ?bindings ?_)
    (by simp [fields])
  case units => exact .defaulted (by simp) (readsAs_list fun u _ => u.readsAs)
  case declarations => exact .defaulted (by simp) (readsAs_list fun d _ => d.readsAs)
  case types => exact .defaulted (by simp) (readsAs_list fun t _ => t.readsAs)
  case bindings => exact .defaulted (by simp) (readsAs_list fun b _ => b.readsAs)
  all_goals simp

end ProgramGraph.Program
