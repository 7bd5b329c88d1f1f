import ProgramGraph.Proofs.Discovery.Settled

/-!
# ProgramGraph.Proofs.Discovery.Outgoing

What starts at a key of a discovered graph: of every kind at most one relationship.

* `Graph.outgoing`       — the relationships of one kind that start at a key.
* `Related.unique` — a key has no two relationships of one kind.
* `Settled.outgoing_of_related`, `Settled.outgoing_eq_nil` — so there is the one that the world tells, or none.
-/

namespace ProgramGraph

open Program ProgramGraph.Graph

namespace Graph

/-- The relationships of one kind that start at a key. -/
def outgoing (g : Graph) (relation : Relation) (k : EntityKey) : List Relationship :=
  (g.withRelation relation).filter fun r => r.source.key = k

theorem mem_outgoing {g : Graph} {relation : Relation} {k : EntityKey} {r : Relationship} :
    r ∈ g.outgoing relation k ↔ (∃ bag, (r, bag) ∈ g.relationships) ∧ r.relation = relation ∧ r.source.key = k := by
  rw [outgoing, List.mem_filter, mem_withRelation, decide_eq_true_iff, and_assoc]

theorem nodup_outgoing (g : Graph) (relation : Relation) (k : EntityKey) : (g.outgoing relation k).Nodup :=
  (g.nodup_relationships.filter _).filter _

end Graph

namespace Discovery

variable {w : World} {x : Explorer}

/-- A key has no two relationships of one kind. -/
theorem Related.unique {k k' : RelationKey} {bag bag' : Bag} (h : Related w k bag) (h' : Related w k' bag')
    (source : k.source = k'.source) (relation : k.relation = k'.relation) : k = k' := by
  cases h with
  | parent hn hp =>
    cases h' with
    | parent hn' hp' =>
      cases source
      cases hn.symm.trans hn'
      cases hp.symm.trans hp'
      rfl
    | _ => cases relation
  | returned _ _ _ ht =>
    cases h' with
    | returned _ _ _ ht' =>
      cases source
      cases ht.symm.trans ht'
      rfl
    | _ => cases relation
  | valued _ _ _ ht =>
    cases h' with
    | valued _ _ _ ht' =>
      cases source
      cases ht.symm.trans ht'
      rfl
    | _ => cases relation
  | self =>
    cases h' with
    | self =>
      cases source
      rfl
    | _ => cases relation

namespace Settled

theorem mem_outgoing_iff (h : Settled w x) {relation : Relation} {k : EntityKey} {r : Relationship} :
    r ∈ x.graph.outgoing relation k ↔
      (∃ bag, Related w r.key bag) ∧ r.key.source = k ∧ r.key.relation = relation ∧ r = w.relationship r.key := by
  simp only [mem_outgoing, h.mem_relationships_iff]
  constructor
  · rintro ⟨⟨bag, related, source, target⟩, relation, start⟩
    refine ⟨⟨bag, related⟩, start, relation, ?_⟩
    rw [World.relationship, Relationship.key, ← source, ← target]
  · rintro ⟨⟨bag, related⟩, start, relation, canonical⟩
    have source := congrArg Relationship.source canonical
    have target := congrArg Relationship.target canonical
    exact ⟨⟨bag, related, source, target⟩, relation, start⟩

theorem outgoing_of_related (h : Settled w x) {k : RelationKey} {bag : Bag} (related : Related w k bag) :
    x.graph.outgoing k.relation k.source = [w.relationship k] := by
  have same : (x.graph.outgoing k.relation k.source).Perm [w.relationship k] := by
    rw [List.perm_ext_iff_of_nodup (nodup_outgoing _ _ _) (List.nodup_singleton _)]
    intro r
    rw [h.mem_outgoing_iff, List.mem_singleton]
    constructor
    · rintro ⟨⟨bag', related'⟩, source, relation, canonical⟩
      rw [canonical, related'.unique related source relation]
    · rintro rfl
      simp only [World.key_relationship, and_true]
      exact ⟨bag, related⟩
  exact List.perm_singleton.mp same

theorem outgoing_eq_nil (h : Settled w x) {relation : Relation} {k : EntityKey}
    (none : ∀ k' bag, ¬ Related w ⟨k, k', relation⟩ bag) : x.graph.outgoing relation k = [] := by
  rw [List.eq_nil_iff_forall_not_mem]
  intro r hr
  obtain ⟨⟨bag, related⟩, source, relation, _⟩ := h.mem_outgoing_iff.mp hr
  subst source relation
  exact none _ _ related

end Settled

end Discovery
end ProgramGraph
