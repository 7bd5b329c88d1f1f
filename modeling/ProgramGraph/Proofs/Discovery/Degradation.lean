import ProgramGraph.Proofs.Discovery.Confluence
import ProgramGraph.Proofs.Discovery.Locality

/-!
# ProgramGraph.Proofs.Discovery.Degradation

What is lost when lookups fail.

* `Withholds`         — an answer is the same, or it was there and has become a failure.
* `Lookup.Withholds`  — a lookup that withholds some answers of another one: what nodes resolve to and which types
  declarations have. What it does describe, it describes alike.
* `discover_withheld` — such failures only take entities and relationships away, and never the syntax nodes. What stays is
  as it was, except for the bags of the entities whose own lookups failed.
-/

namespace ProgramGraph.Program

/-- An answer is the same, or it was there and has become a failure. -/
inductive Withholds {α : Type} : Except LookupFailure α → Except LookupFailure α → Prop where
  | same (answer : Except LookupFailure α) : Withholds answer answer
  | failed (a : α) (f : LookupFailure) : Withholds (.ok a) (.error f)

theorem Withholds.of_ok {α : Type} {answer answer' : Except LookupFailure α} {a : α} (h : Withholds answer answer')
    (ok : answer' = .ok a) : answer = .ok a := by
  cases h with
  | same => exact ok
  | failed => cases ok

/-- A lookup that withholds some answers of another one. -/
structure Lookup.Withholds (l l' : Lookup) : Prop where
  resolve : ∀ ref, Program.Withholds (l.resolve ref) (l'.resolve ref)
  returnType : ∀ d, Program.Withholds (l.returnType d) (l'.returnType d)
  valueType : ∀ d, Program.Withholds (l.valueType d) (l'.valueType d)
  declaration : l'.declaration = l.declaration
  resolvedType : l'.resolvedType = l.resolvedType
  typeDeclaration : l'.typeDeclaration = l.typeDeclaration

end ProgramGraph.Program

namespace ProgramGraph.Discovery

open Program ProgramGraph.Graph

variable {units : Units} {l l' : Lookup} {options : Options}

/-- What is shown under a key is never withheld. -/
theorem sameSubject_of_withholds (h : l.Withholds l') (k : EntityKey) :
    SameSubject ⟨units, l, options⟩ ⟨units, l', options⟩ k := by
  cases k with
  | node ref => rfl
  | symbol d => exact congrFun h.declaration d
  | type t => exact congrFun h.resolvedType t

theorem Leads.of_withholds (h : l.Withholds l') {k k' : EntityKey} (leads : Leads ⟨units, l', options⟩ k k') :
    Leads ⟨units, l, options⟩ k k' := by
  cases leads with
  | resolved hn resolvable hd => exact .resolved hn resolvable ((h.resolve _).of_ok hd)
  | returned hd method ht => exact .returned (h.declaration ▸ hd) method ((h.returnType _).of_ok ht)
  | valued hd value ht => exact .valued (h.declaration ▸ hd) value ((h.valueType _).of_ok ht)
  | declared ht reference hd => exact .declared (h.resolvedType ▸ ht) reference (h.typeDeclaration ▸ hd)

theorem Reachable.of_withholds (h : l.Withholds l') {k : EntityKey} (reachable : Reachable ⟨units, l', options⟩ k) :
    Reachable ⟨units, l, options⟩ k := by
  induction reachable with
  | node hn => exact .node hn
  | step _ leads ih => exact ih.step (leads.of_withholds h)

theorem Related.of_withholds (h : l.Withholds l') {k : RelationKey} {bag : Bag}
    (related : Related ⟨units, l', options⟩ k bag) : Related ⟨units, l, options⟩ k bag := by
  have reachable := related.reachable_source.of_withholds h
  cases related with
  | parent hn hp => exact .parent hn hp
  | returned _ hd method ht => exact .returned reachable (h.declaration ▸ hd) method ((h.returnType _).of_ok ht)
  | valued _ hd value ht => exact .valued reachable (h.declaration ▸ hd) value ((h.valueType _).of_ok ht)
  | self wanted _ ht reference => exact .self wanted reachable (h.resolvedType ▸ ht) reference

/-- **Failures degrade the graph gracefully.** When some answers become failures, the graph loses entities and
relationships and gains none. It keeps every syntax node; it keeps the label and the bag of every entity whose own answers
are the same; and it keeps the bags of its relationships. -/
theorem discover_withheld (units : Units) (options : Options) {l l' : Lookup} (h : l.Withholds l') :
    let w : World := ⟨units, l, options⟩
    let w' : World := ⟨units, l', options⟩
    (discover w').graph.keys ⊆ (discover w).graph.keys ∧
      (discover w').graph.relationKeys ⊆ (discover w).graph.relationKeys ∧
      (∀ ref, .node ref ∈ (discover w').graph.keys ↔ .node ref ∈ (discover w).graph.keys) ∧
      (∀ ref n, units.node? ref = some n → .node ref ∈ (discover w').graph.keys) ∧
      (∀ k ∈ (discover w').graph.keys, SameAnswers w w' k →
        (discover w').graph.get? k = (discover w).graph.get? k) ∧
      ∀ k ∈ (discover w').graph.relationKeys,
        (discover w').graph.getRelationship? k = (discover w).graph.getRelationship? k := by
  intro w w'
  have settled := settled_discover w
  have settled' := settled_discover w'
  have subject : ∀ k, SameSubject w w' k := sameSubject_of_withholds h
  have fewer : (discover w').graph.keys ⊆ (discover w).graph.keys := by
    intro k hk
    exact settled.mem_keys_of_reachable ((settled'.mem_keys_iff.mp hk).of_withholds h)
  refine ⟨fewer, ?_, ?_, ?_, ?_, ?_⟩
  · intro k hk
    obtain ⟨bag, related⟩ := settled'.mem_relationKeys_iff.mp hk
    exact settled.mem_relationKeys_iff.mpr ⟨bag, related.of_withholds h⟩
  · intro ref
    refine ⟨fun hk => fewer hk, fun hk => ?_⟩
    obtain ⟨n, hn⟩ := (settled.mem_keys_iff.mp hk).node?_isSome rfl
    exact settled'.covers ref n hn
  · exact settled'.covers
  · intro k hk answers
    have reachable' := settled'.mem_keys_iff.mp hk
    have entity : w'.entity k = w.entity k := entity_congr (subject k)
    -- the keys that an entity leads to are shown alike in any case, so only its own answers are asked for
    have contribution : describe w' (w.entity k) = describe w (w.entity k) := by
      refine describe_congr rfl (subject _) ?_ fun k' _ => subject k'
      rwa [World.key_entity]
    rw [settled'.get?_of_reachable reachable', settled.get?_of_reachable (reachable'.of_withholds h), entity,
      contribution]
  · intro k hk
    obtain ⟨bag, related⟩ := settled'.mem_relationKeys_iff.mp hk
    have relationship : w'.relationship k = w.relationship k := by
      rw [World.relationship, World.relationship, entity_congr (subject k.source), entity_congr (subject k.target)]
    rw [settled'.getRelationship?_of_related related, settled.getRelationship?_of_related (related.of_withholds h),
      relationship]

/-- The knot, when the name in its second unit is ambiguous and the return type of its method is not known. -/
def frayed : Lookup :=
  { knot.lookup with
    resolve := fun ref => if ref.unit = 1 then .error { kind := .ambiguous } else .ok ⟨0⟩
    returnType := fun _ => .error { kind := .unresolved } }

theorem withholds_frayed : knot.lookup.Withholds frayed where
  resolve ref := by
    show Program.Withholds (.ok (⟨0⟩ : DeclId)) (if ref.unit = 1 then .error { kind := .ambiguous } else .ok ⟨0⟩)
    split
    · exact .failed _ _
    · exact .same _
  returnType _ := .failed _ _
  valueType _ := .same _
  declaration := rfl
  resolvedType := rfl
  typeDeclaration := rfl

/-- The name in the first unit of the knot is not touched by what happens to the other one. -/
theorem discover_withheld_knot :
    knot.lookup.Withholds frayed ∧
      (discover ⟨knot.units, frayed, {}⟩).graph.get? (.node ⟨0, 1⟩) = (discover knot).graph.get? (.node ⟨0, 1⟩) := by
  have name : knot.units.node? ⟨0, 1⟩ = nameUnit.node? 1 := by
    simp [Units.node?, knot, Units.get?_insert]
  obtain ⟨_, _, _, nodes, bags, _⟩ := discover_withheld knot.units {} withholds_frayed
  exact ⟨withholds_frayed, bags _ (nodes _ _ name) fun _ _ _ => rfl⟩

end ProgramGraph.Discovery
