import ProgramGraph.Graph.Records
import ProgramGraph.Proofs.Graph.Basic
import ProgramGraph.Proofs.Program.Records

/-!
# ProgramGraph.Proofs.Graph.Records

Entities, relationships and properties are read back as they were written.

* `Property.IsPlain`, `Bag.IsPlain` — no real numbers; their texts are not covered here.
* `Property.readsAs` — a property has no tag: it is taken for the first thing it can be, and that is what it was.
* `Bag.readsAs`      — a bag is written in the order of names and read in any.
-/

namespace ProgramGraph.Graph

open Json Program

variable {levels : Nat}

/-! ## Properties -/

def Property.IsPlain (p : Property) : Prop :=
  ∀ x, p ≠ .real x

def Bag.IsPlain (b : Bag) : Prop :=
  ∀ e ∈ b.toList, e.2.IsPlain

theorem signed?_toInt (i : Int64) : Numeral.signed? ⟨i.toInt < 0, i.toInt.natAbs, 0, true⟩ = some i := by
  have low := i.le_toInt
  have high := i.toInt_lt
  have limit : Numeral.signedLimit = 2 ^ 63 := rfl
  rw [Numeral.signed?]
  by_cases negative : i.toInt < 0
  · have digits : 0 < i.toInt.natAbs ∧ i.toInt.natAbs ≤ Numeral.signedLimit := by omega
    have same : Int64.ofInt (-(i.toInt.natAbs : Int)) = i := by
      rw [show -(i.toInt.natAbs : Int) = i.toInt by omega, Int64.ofInt_toInt]
    simp only [negative, digits, same, decide_true, Bool.not_true, Bool.and_self, Bool.false_eq_true, if_false, if_true]
  · have digits : i.toInt.natAbs < Numeral.signedLimit := by omega
    have same : Int64.ofNat i.toInt.natAbs = i := by
      rw [← Int64.ofInt_eq_ofNat, show (i.toInt.natAbs : Int) = i.toInt by omega, Int64.ofInt_toInt]
    simp only [negative, digits, same, decide_false, Bool.not_true, Bool.not_false, Bool.false_eq_true, if_false, if_true]

theorem natAbs_toInt_lt (i : Int64) : i.toInt.natAbs < 2 ^ 64 := by
  have low := i.le_toInt
  have high := i.toInt_lt
  omega

theorem Property.readsAs_of_vets {d : Document} {p : Property} (vets : d.ReadsAs vet levels ())
    (found : ofVetted? d.outline = some p) : d.ReadsAs decoder levels p := by
  refine ⟨vets.plain, fun depth room => ?_⟩
  rw [decoder, vets.reads depth room, found]
  rfl

theorem vets_reference (id : String) : (Document.record [("entity_ref", .text id)]).ReadsAs vet (levels + 1) () := by
  refine ⟨rfl, fun depth room => ?_⟩
  have inside : enter depth = .ok (depth + 1) := enter_eq_ok_iff.mpr ⟨by omega, rfl⟩
  simp [Document.outline, Document.memberOutlines, vet, vetMembers, inside, bind, Except.bind, Ending.read]

theorem Property.refFields_restores (id : String) : refFields.Restores levels [("entity_ref", .text id)] (.ref id) :=
  .map _ (.required (by simp) (readsAs_text id))

theorem Property.readsAs {p : Property} (plain : p.IsPlain) : p.document.ReadsAs decoder (levels + 1) p := by
  cases p with
  | bool b => exact readsAs_of_vets (vets_bool b) rfl
  | int i =>
    refine readsAs_of_vets (vets_int (natAbs_toInt_lt i)) ?_
    rw [document, Document.outline]
    simp only [ofVetted?, signed?_toInt]
  | real x => exact absurd rfl (plain x)
  | text s => exact readsAs_of_vets (vets_text s) rfl
  | ref id =>
    have restores : refFields.Restores 0 [("entity_ref", .text id)] (.ref id) := refFields_restores id
    have found : refFields.ofVetted? (Document.memberOutlines [("entity_ref", .text id)]) = some (.ref id) := by
      refine Fields.ofVetted?_eq_some_iff.mpr ⟨restores.gives 0 (by decide), ?_⟩
      rw [Fields.others_memberOutlines_eq_nil (by simp [refFields])]
      exact List.forall_mem_nil _
    exact readsAs_of_vets (vets_reference id) found

theorem Bag.ofList_toList (b : Bag) : Bag.ofList b.toList = b := by
  have inserted : ∀ (entries : List (String × Property)) (b : Bag),
      entries.foldl (fun b e => b.insert e.1 e.2) b = b.insertMany entries := by
    intro entries
    induction entries with
    | nil => intro b; exact Std.ExtTreeMap.insertMany_nil.symm
    | cons e entries ih => intro b; rw [List.foldl_cons, ih, ← Std.ExtTreeMap.insertMany_cons]
  rw [ofList, inserted]
  apply Std.ExtTreeMap.ext_getElem?
  intro name
  rw [getElem?_insertMany_toList]
  simp [empty]

theorem Bag.readsAs {b : Bag} (plain : b.IsPlain) : b.document.ReadsAs decoder (levels + 2) b := by
  have properties : ∀ e ∈ b.toList, e.2.document.ReadsAs Property.decoder (levels + 1) e.2 :=
    fun e he => Property.readsAs (plain e he)
  have read := (readsAs_pairs properties).map Bag.ofList
  rw [ofList_toList] at read
  exact read

/-! ## Entities and relationships -/

theorem EntityKind.ofName?_name (k : EntityKind) : EntityKind.ofName? k.name = some k := by
  cases k <;> decide

theorem Relation.ofName?_name (r : Relation) : Relation.ofName? r.name = some r := by
  cases r <;> decide

theorem EntityKey.restores (k : EntityKey) : k.kind.keyFields.Restores levels k.handleMembers k := by
  cases k with
  | node r => exact .map _ r.restores
  | symbol d => exact .map _ (.required (by simp [handleMembers]) d.readsAs)
  | type t => exact .map _ (.required (by simp [handleMembers]) t.readsAs)

theorem EntityKey.vets (k : EntityKey) : ∀ m ∈ k.handleMembers, m.2.ReadsAs vet levels () := by
  cases k <;> simp [handleMembers, wordDocument, DeclId.document, TypeId.document, vets_word32]

theorem EntityKey.readsAs (k : EntityKey) : k.document.ReadsAs decoder (levels + 1) k := by
  refine readsAs_tagged (EntityKind.ofName?_name k.kind) k.restores k.vets ?_ ?_
  · cases k <;> simp [handleMembers, kind, EntityKind.keyFields, NodeRef.fields]
  · cases k <;> simp [handleMembers]

theorem Entity.readsAs (e : Entity) : e.document.ReadsAs (record fields) (levels + 2) e := by
  refine Fields.Restores.readsAs (.seq (.map _ ?key) ?label ?_) (by simp [fields])
  case key => exact .required (by simp) e.key.readsAs
  case label => exact .required (by simp) (readsAs_text e.label)
  all_goals simp

theorem Relation.readsAs (r : Relation) : r.document.ReadsAs decoder levels r :=
  readsAs_choice (ofName?_name r)

theorem Relationship.readsAs (r : Relationship) : r.document.ReadsAs (record fields) (levels + 3) r := by
  refine Fields.Restores.readsAs (.seq (.seq (.map _ ?source) ?target ?_) ?label ?_) (by simp [fields])
  case source => exact .required (by simp) r.source.readsAs
  case target => exact .required (by simp) r.target.readsAs
  case label => exact .required (by simp) r.relation.readsAs
  all_goals simp

end ProgramGraph.Graph
