import ProgramGraph.Program.Snapshot
import ProgramGraph.Proofs.Graph.Records
import ProgramGraph.Store.Rows

/-!
# ProgramGraph.Proofs.Store.Records

The entities and relationships of a store are read back as they were written, and with them all records: `records_survive`.
-/

namespace ProgramGraph.Store

open ProgramGraph.Graph Json Program

variable {levels : Nat}

theorem NodeRow.readsAs {r : NodeRow} (plain : r.properties.IsPlain) :
    r.document.ReadsAs (record fields) (levels + 3) r := by
  refine Fields.Restores.readsAs (.seq (.seq (.map _ ?label) ?id ?_) ?properties ?_) (by simp [fields])
  case label => exact .required (by simp) (readsAs_text r.label)
  case id => exact .required (by simp) (readsAs_text r.id)
  case properties => exact .required (by simp) (Bag.readsAs plain)
  all_goals simp

theorem EdgeRow.readsAs {r : EdgeRow} (plain : r.properties.IsPlain) :
    r.document.ReadsAs (record fields) (levels + 3) r := by
  refine Fields.Restores.readsAs
    (.seq (.seq (.seq (.seq (.seq (.map _ ?sourceLabel) ?sourceId ?_) ?targetLabel ?_) ?targetId ?_) ?label ?_)
      ?properties ?_)
    (by simp [fields])
  case sourceLabel => exact .required (by simp) (readsAs_text r.sourceLabel)
  case sourceId => exact .required (by simp) (readsAs_text r.sourceId)
  case targetLabel => exact .required (by simp) (readsAs_text r.targetLabel)
  case targetId => exact .required (by simp) (readsAs_text r.targetId)
  case label => exact .required (by simp) (readsAs_text r.label)
  case properties => exact .required (by simp) (Bag.readsAs plain)
  all_goals simp

/-- **Records survive writing and reading.** Whatever the texts, handles and integers in it and whatever is absent from it,
the compact text of a record is read back as the same record. Only real numbers are left aside. -/
theorem records_survive :
    ((∀ s : Snapshot, Snapshot.read s.document.compact = .ok s) ∧
      (∀ u : SourceUnit, Json.read (record SourceUnit.fields) u.document.compact = .ok u) ∧
      (∀ n : SourceNode, Json.read (record SourceNode.fields) n.document.compact = .ok n) ∧
      (∀ r : DeclarationRecord, Json.read DeclarationRecord.decoder r.document.compact = .ok r) ∧
      (∀ r : TypeRecord, Json.read TypeRecord.decoder r.document.compact = .ok r) ∧
      (∀ r : BindingRecord, Json.read (record BindingRecord.fields) r.document.compact = .ok r) ∧
      (∀ f : LookupFailure, Json.read (record LookupFailure.fields) f.document.compact = .ok f)) ∧
    ((∀ k : EntityKey, Json.read EntityKey.decoder k.document.compact = .ok k) ∧
      (∀ e : Entity, Json.read (record Entity.fields) e.document.compact = .ok e) ∧
      (∀ r : Relationship, Json.read (record Relationship.fields) r.document.compact = .ok r)) ∧
    ((∀ p : Property, p.IsPlain → Json.read Property.decoder p.document.compact = .ok p) ∧
      (∀ b : Bag, b.IsPlain → Json.read Bag.decoder b.document.compact = .ok b) ∧
      (∀ r : NodeRow, r.properties.IsPlain → Json.read (record NodeRow.fields) r.document.compact = .ok r) ∧
      (∀ r : EdgeRow, r.properties.IsPlain → Json.read (record EdgeRow.fields) r.document.compact = .ok r)) := by
  refine ⟨⟨fun s => ?_, fun u => ?_, fun n => ?_, fun r => ?_, fun r => ?_, fun r => ?_, fun f => ?_⟩,
    ⟨fun k => ?_, fun e => ?_, fun r => ?_⟩,
    ⟨fun p plain => ?_, fun b plain => ?_, fun r plain => ?_, fun r plain => ?_⟩⟩
  · exact s.readsAs.read_compact (by decide : 0 + 6 ≤ nestingLimit)
  · exact u.readsAs.read_compact (by decide : 0 + 4 ≤ nestingLimit)
  · exact n.readsAs.read_compact (by decide : 0 + 2 ≤ nestingLimit)
  · exact r.readsAs.read_compact (by decide : 0 + 2 ≤ nestingLimit)
  · exact r.readsAs.read_compact (by decide : 0 + 1 ≤ nestingLimit)
  · exact r.readsAs.read_compact (by decide : 0 + 2 ≤ nestingLimit)
  · exact f.readsAs.read_compact (by decide : 0 + 1 ≤ nestingLimit)
  · exact k.readsAs.read_compact (by decide : 0 + 1 ≤ nestingLimit)
  · exact e.readsAs.read_compact (by decide : 0 + 2 ≤ nestingLimit)
  · exact r.readsAs.read_compact (by decide : 0 + 3 ≤ nestingLimit)
  · exact (Property.readsAs plain).read_compact (by decide : 0 + 1 ≤ nestingLimit)
  · exact (Bag.readsAs plain).read_compact (by decide : 0 + 2 ≤ nestingLimit)
  · exact (NodeRow.readsAs plain).read_compact (by decide : 0 + 3 ≤ nestingLimit)
  · exact (EdgeRow.readsAs plain).read_compact (by decide : 0 + 3 ≤ nestingLimit)

/-- A value of every kind but a real number. -/
def mixedBag : Bag :=
  .ofList [("count", .int (-5)), ("final", .bool true), ("owner", .ref "Owner"), ("doc", .text "\t\"λ\"")]

theorem mixedBag_isPlain : mixedBag.IsPlain := by
  have entries : mixedBag.toList =
      [("count", .int (-5)), ("doc", .text "\t\"λ\""), ("final", .bool true), ("owner", .ref "Owner")] := by decide
  intro e he
  rw [entries] at he
  simp only [List.mem_cons, List.not_mem_nil, or_false] at he
  rcases he with rfl | rfl | rfl | rfl <;> nofun

theorem records_survive_mixed :
    let node : NodeRow := ⟨"Method", "a\\b", mixedBag⟩
    let edge : EdgeRow := ⟨"Method", "a\\b", "Type", "λ", "RETURNS", mixedBag⟩
    (Property.ref "Owner").IsPlain ∧ mixedBag.IsPlain ∧
      Json.read Property.decoder (Property.ref "Owner").document.compact = .ok (.ref "Owner") ∧
      Json.read Bag.decoder mixedBag.document.compact = .ok mixedBag ∧
      Json.read (record NodeRow.fields) node.document.compact = .ok node ∧
      Json.read (record EdgeRow.fields) edge.document.compact = .ok edge := by
  intro node edge
  have reference : (Property.ref "Owner").IsPlain := nofun
  obtain ⟨-, -, property, bag, row, link⟩ := records_survive
  exact ⟨reference, mixedBag_isPlain, property _ reference, bag _ mixedBag_isPlain, row node mixedBag_isPlain,
    link edge mixedBag_isPlain⟩

end ProgramGraph.Store
