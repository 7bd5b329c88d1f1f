import ProgramGraph.Proofs.Json.Stability
import ProgramGraph.Proofs.Program.Records
import ProgramGraph.Store.Rows

/-!
# ProgramGraph.Proofs.Store.Rearrangement

Records are read from their members, whatever their order and whatever else stands beside them.

* `Snapshot.shape`, `EntityKey.shape`, `NodeRow.shape` and others — where the records stand and which members they have.
* `read_rearranged` — rearranged texts are read to the same value.
-/

namespace ProgramGraph

open Json

namespace Program

/-! ## Programs -/

def Position.shape : Shape :=
  .record [("line", .any), ("column", .any)]

theorem Position.stable : Stable shape (record fields) :=
  Fields.Fits.record
    (.seq (.map _ (.required "line" stable_word32))
      (.required "column" stable_word32) (by simp))

def SourceNode.shape : Shape :=
  .record [("kind", .any), ("begin", Position.shape), ("text", .any), ("parent", .any), ("resolvable", .any)]

theorem SourceNode.stable : Stable shape (record fields) :=
  Fields.Fits.record
    (.seq (.seq (.seq (.seq (.map _ (.required "kind" stable_text))
      (.optional "begin" Position.stable) (by simp))
      (.defaulted "text" stable_text) (by simp))
      (.optional "parent" stable_word32) (by simp))
      (.defaulted "resolvable" stable_bool) (by simp))

def SourceUnit.shape : Shape :=
  .record
    [("file_name", .any), ("package", .any), ("content_hash", .any), ("parse_errors", .list .any),
     ("nodes", .list SourceNode.shape)]

theorem SourceUnit.stable : Stable shape (record fields) :=
  Fields.Fits.record
    (.seq (.seq (.seq (.seq (.map _ (.optional "file_name" stable_text))
      (.optional "package" stable_text) (by simp))
      (.optional "content_hash" stable_text) (by simp))
      (.defaulted "parse_errors" stable_text.list) (by simp))
      (.defaulted "nodes" SourceNode.stable.list) (by simp))

def LookupFailure.shape : Shape :=
  .record [("kind", .any), ("message", .any)]

theorem LookupFailure.stable : Stable shape (record fields) :=
  Fields.Fits.record
    (.seq (.map _ (.required "kind" stable_choice))
      (.defaulted "message" stable_text) (by simp))

theorem DeclId.stable {shape : Shape} : Stable shape decoder :=
  stable_word32.map DeclId.mk

theorem TypeId.stable {shape : Shape} : Stable shape decoder :=
  stable_word32.map TypeId.mk

/-- The fields of a declaration stand after those of what the tables know about it; the order does not matter in an
object. -/
def DeclarationRecord.shape : Shape :=
  .record
    [("return_type", .any), ("return_type_error", LookupFailure.shape), ("value_type", .any),
     ("value_type_error", LookupFailure.shape), ("name", .any), ("category", .any), ("qualified_name", .any),
     ("qualified_signature", .any)]

theorem Declaration.fits :
    fields.Fits [("name", .any), ("category", .any), ("qualified_name", .any), ("qualified_signature", .any)] :=
  .seq (.seq (.seq (.map _ (.required "name" stable_text))
    (.required "category" stable_vettedChoice) (by simp))
    (.optional "qualified_name" stable_text) (by simp))
    (.optional "qualified_signature" stable_text) (by simp)

theorem DeclarationRecord.fits :
    outerFields.Fits
      [("return_type", .any), ("return_type_error", LookupFailure.shape), ("value_type", .any),
       ("value_type_error", LookupFailure.shape)] :=
  .seq (.seq (.seq (.map _ (.optional "return_type" TypeId.stable))
    (.optional "return_type_error" LookupFailure.stable) (by simp))
    (.optional "value_type" TypeId.stable) (by simp))
    (.optional "value_type_error" LookupFailure.stable) (by simp)

theorem DeclarationRecord.stable : Stable shape decoder := by
  have apart : ∀ n ∈ outerFields.names, n ∉ Declaration.fields.names := by simp [outerFields, Declaration.fields]
  exact (fits.flattened Declaration.fits apart).map fun found => found.1 found.2

def TypeRecord.shape : Shape :=
  .record [("declaration", .any), ("description", .any), ("category", .any), ("numeric", .any)]

theorem ResolvedType.fits : fields.Fits [("description", .any), ("category", .any), ("numeric", .any)] :=
  .seq (.seq (.map _ (.required "description" stable_text))
    (.required "category" stable_vettedChoice) (by simp))
    (.defaulted "numeric" stable_bool) (by simp)

theorem TypeRecord.stable : Stable shape decoder := by
  have fits : outerFields.Fits [("declaration", .any)] := .map _ (.optional "declaration" DeclId.stable)
  have apart : ∀ n ∈ outerFields.names, n ∉ ResolvedType.fields.names := by simp [outerFields, ResolvedType.fields]
  exact (fits.flattened ResolvedType.fits apart).map fun found => found.1 found.2

def BindingRecord.shape : Shape :=
  .record [("unit", .any), ("node", .any), ("declaration", .any), ("error", LookupFailure.shape)]

theorem BindingRecord.stable : Stable shape (record fields) :=
  Fields.Fits.record
    (.seq (.seq (.seq (.map _ (.required "unit" stable_word32))
      (.required "node" stable_word32) (by simp))
      (.optional "declaration" DeclId.stable) (by simp))
      (.optional "error" LookupFailure.stable) (by simp))

def Snapshot.shape : Shape :=
  .record
    [("units", .list SourceUnit.shape), ("declarations", .list DeclarationRecord.shape),
     ("types", .list TypeRecord.shape), ("bindings", .list BindingRecord.shape)]

theorem Snapshot.stable : Stable shape (record fields) :=
  Fields.Fits.record
    (.seq (.seq (.seq (.map _ (.defaulted "units" SourceUnit.stable.list))
      (.defaulted "declarations" DeclarationRecord.stable.list) (by simp))
      (.defaulted "types" TypeRecord.stable.list) (by simp))
      (.defaulted "bindings" BindingRecord.stable.list) (by simp))

end Program

namespace Graph

open Program

/-! ## Entities -/

/-- The fields beside the tag of a key of this kind. -/
def EntityKind.handles : EntityKind → List (String × Shape)
  | .node => [("unit", .any), ("node", .any)]
  | .symbol => [("decl", .any)]
  | .type => [("ty", .any)]

/-- What is unknown in a key depends on its kind. -/
def EntityKey.shape (k : EntityKey) : Shape :=
  .record (("kind", .any) :: k.kind.handles)

theorem EntityKind.fits (kind : EntityKind) : kind.keyFields.Fits kind.handles := by
  cases kind with
  | node => exact .map _ (.seq (.map _ (.required "unit" stable_word32)) (.required "node" stable_word32) (by simp))
  | symbol => exact .map _ (.required "decl" DeclId.stable)
  | type => exact .map _ (.required "ty" TypeId.stable)

theorem EntityKind.not_mem_names (kind : EntityKind) : "kind" ∉ kind.keyFields.names := by
  cases kind <;> simp [keyFields, NodeRef.fields]

theorem EntityKind.kind_of_finish (kind : EntityKind) (d : kind.keyFields.Draft) (k : EntityKey)
    (h : kind.keyFields.finish d = some k) : k.kind = kind := by
  cases kind <;>
  · obtain ⟨_, _, rfl⟩ := Option.map_eq_some_iff.mp h
    rfl

theorem EntityKey.read_step {k : EntityKey} {depth : Nat} {o o' : Outline} (distinct : o.Distinct)
    (step : Step k.shape o o') (read : decoder depth o = .ok k) : decoder depth o' = .ok k :=
  tagged_step EntityKind.fits EntityKind.not_mem_names EntityKind.kind_of_finish distinct step read

/-! ## Properties -/

def Property.shape : Shape :=
  .record [("entity_ref", .any)]

theorem Property.stable : Stable shape decoder := by
  intro depth o o' p distinct step read
  obtain ⟨vetted, found⟩ := then_eq_ok_iff.mp read
  have found := complete_eq_ok_iff.mp found
  have fits : refFields.Fits [("entity_ref", .any)] := .map _ (.required "entity_ref" stable_text)
  refine then_eq_ok_iff.mpr ⟨step.vet vetted, complete_eq_ok_iff.mpr ?_⟩
  cases o with
  | object members ending =>
    obtain ⟨members', rfl⟩ := step.exists_eq_object
    exact fits.ofVetted? fits.within_self distinct step found
  | array items ending =>
    cases step with
    | item step => exact fits.ofVettedItems? distinct.item step found
  | _ => cases step

def Bag.shape : Shape :=
  .map Property.shape

/-- Different names may be written in any order. -/
theorem Bag.ofList_perm {entries entries' : List (String × Property)} (perm : entries.Perm entries')
    (nodup : (entries'.map Prod.fst).Nodup) : ofList entries = ofList entries' := by
  refine (perm.symm.foldl_eq' ?_ empty).symm
  intro x hx y hy b
  by_cases same : x.1 = y.1
  · rw [List.inj_on_of_nodup_map nodup hx hy same]
  · apply Std.ExtTreeMap.ext_getElem?
    intro name
    simp only [Std.ExtTreeMap.getElem?_insert, Std.LawfulEqOrd.compare_eq_iff_eq]
    split_ifs with second first
    · exact absurd (first.trans second.symm) same
    all_goals rfl

theorem Bag.stable : Stable shape decoder := by
  intro depth o o' b distinct step read
  obtain ⟨entries, here, rfl⟩ := map_eq_ok_iff.mp read
  obtain ⟨entries', here', perm, nodup⟩ := Property.stable.pairs distinct step here
  exact map_eq_ok_iff.mpr ⟨entries', here', ofList_perm perm nodup⟩

end Graph

namespace Store

open Program ProgramGraph.Graph

def NodeRow.shape : Shape :=
  .record [("label", .any), ("id", .any), ("properties", Bag.shape)]

theorem NodeRow.stable : Stable shape (record fields) :=
  Fields.Fits.record
    (.seq (.seq (.map _ (.required "label" stable_text))
      (.required "id" stable_text) (by simp))
      (.required "properties" Bag.stable) (by simp))

/-! ## Texts -/

section

variable {source source' : String} {o' : Outline} (distinct : (Text.parse source).value.Distinct)
  (spelled : o'.SpelledBy source')

include distinct spelled

theorem read_of_stable {α : Type} {decode : Decoder α} {shape : Shape} (h : Stable shape decode)
    (moved : Rearranged shape (Text.parse source).value o') {a : α} (found : read decode source = .ok a) :
    read decode source' = .ok a := by
  rw [read_of_spelledBy decode spelled]
  exact h.rearranged distinct moved (decode_of_read found)

/-- **Neither the order of members nor unknown scalars matter.** Let the members of each object of a text have different
names. A text of the same value, but for the order of the members of any objects and for new members with unknown names in
records, is read to the same record. -/
theorem read_rearranged :
    ((∀ s, Rearranged Snapshot.shape (Text.parse source).value o' →
        Snapshot.read source = .ok s → Snapshot.read source' = .ok s) ∧
      (∀ u, Rearranged SourceUnit.shape (Text.parse source).value o' →
        read (record SourceUnit.fields) source = .ok u → read (record SourceUnit.fields) source' = .ok u) ∧
      (∀ r, Rearranged DeclarationRecord.shape (Text.parse source).value o' →
        read DeclarationRecord.decoder source = .ok r → read DeclarationRecord.decoder source' = .ok r) ∧
      (∀ r, Rearranged TypeRecord.shape (Text.parse source).value o' →
        read TypeRecord.decoder source = .ok r → read TypeRecord.decoder source' = .ok r) ∧
      (∀ r, Rearranged BindingRecord.shape (Text.parse source).value o' →
        read (record BindingRecord.fields) source = .ok r → read (record BindingRecord.fields) source' = .ok r)) ∧
    (∀ k : EntityKey, Rearranged k.shape (Text.parse source).value o' →
      read EntityKey.decoder source = .ok k → read EntityKey.decoder source' = .ok k) ∧
    (∀ r, Rearranged NodeRow.shape (Text.parse source).value o' →
      read (record NodeRow.fields) source = .ok r → read (record NodeRow.fields) source' = .ok r) := by
  refine ⟨⟨fun s moved found => ?_, fun u moved found => ?_, fun r moved found => ?_, fun r moved found => ?_,
    fun r moved found => ?_⟩, fun k moved found => ?_, fun r moved found => ?_⟩
  · exact read_of_stable distinct spelled Snapshot.stable moved found
  · exact read_of_stable distinct spelled SourceUnit.stable moved found
  · exact read_of_stable distinct spelled DeclarationRecord.stable moved found
  · exact read_of_stable distinct spelled TypeRecord.stable moved found
  · exact read_of_stable distinct spelled BindingRecord.stable moved found
  · -- What may be inserted depends on the kind of the key that is read.
    rw [read_of_spelledBy _ spelled]
    exact rearranged_read EntityKey.read_step distinct moved (decode_of_read found)
  · exact read_of_stable distinct spelled NodeRow.stable moved found

end

/-- A name that could not be resolved. -/
def lostBinding : BindingRecord :=
  ⟨1, 2, none, some ⟨.unresolved, "no"⟩⟩

/-- The same with the failure first and a note in the failure. -/
def notedBinding : Document :=
  .record
    [("error", .record [("note", .int (-1)), ("kind", .text "unresolved"), ("message", .text "no")]), ("unit", .int 1),
     ("node", .int 2), ("declaration", .null)]

theorem parse_lostBinding : (Text.parse lostBinding.document.compact).value = lostBinding.document.outline := by
  rw [Text.parse_of_spelled (Document.spelledBy_compact rfl)]

theorem distinct_lostBinding : lostBinding.document.outline.Distinct := by
  simp [lostBinding, BindingRecord.document, LookupFailure.document, wordDocument, Document.orNull, Document.outline,
    Document.memberOutlines, distinct_object_iff, distinct_null, distinct_number, distinct_string]

theorem rearranged_notedBinding : Rearranged BindingRecord.shape lostBinding.document.outline notedBinding.outline := by
  let handles := Document.memberOutlines [("unit", .int 1), ("node", .int 2), ("declaration", .null)]
  let failure := Document.memberOutlines [("kind", .text "unresolved"), ("message", .text "no")]
  have front : Step BindingRecord.shape (.object (handles ++ [(some "error", .object failure .closed)]) .closed)
      (.object ([(some "error", .object failure .closed)] ++ handles) .closed) := .reorder List.perm_append_comm
  have noted : Step LookupFailure.shape (.object ([] ++ failure) .closed)
      (.object ([] ++ (some "note", (Document.int (-1)).outline) :: failure) .closed) :=
    .insert (by decide) (by decide) (.int (by decide))
  have inside : Step BindingRecord.shape (.object ([] ++ (some "error", .object failure .closed) :: handles) .closed)
      (.object ([] ++ (some "error", .object ((some "note", (Document.int (-1)).outline) :: failure) .closed) :: handles)
        .closed) := .member noted
  exact .tail (.single front) inside

theorem read_rearranged_note :
    (Text.parse lostBinding.document.compact).value.Distinct ∧
      Rearranged BindingRecord.shape (Text.parse lostBinding.document.compact).value notedBinding.outline ∧
      read (record BindingRecord.fields) notedBinding.compact = .ok lostBinding := by
  rw [parse_lostBinding]
  refine ⟨distinct_lostBinding, rearranged_notedBinding, ?_⟩
  have distinct := distinct_lostBinding
  have moved := rearranged_notedBinding
  rw [← parse_lostBinding] at distinct moved
  have spelled : notedBinding.outline.SpelledBy notedBinding.compact := Document.spelledBy_compact rfl
  have written : read (record BindingRecord.fields) lostBinding.document.compact = .ok lostBinding :=
    lostBinding.readsAs.read_compact (by decide : 0 + 2 ≤ nestingLimit)
  exact (read_rearranged distinct spelled).1.2.2.2.2 lostBinding moved written

end Store
end ProgramGraph
