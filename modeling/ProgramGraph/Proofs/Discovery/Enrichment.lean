import ProgramGraph.Discovery.Explorer
import ProgramGraph.Proofs.Discovery.Reachability
import ProgramGraph.Proofs.Graph.Basic

/-!
# ProgramGraph.Proofs.Discovery.Enrichment

The contribution of one entity, and what adding it does to a graph.

* `mem_findings_iff` — the findings of an entity are those that `Finds` gives, and no others.
* `Genuine.of_found`, `found_of_leads` — a genuine entity finds genuine entities only, and finds all it leads to.
* `mem_relationships_iff` — the relationships of a genuine entity are those of the world with that source.
* `Enrichment.addTo_of_split` — what a contribution finds is appended, and its bag goes to its entity.
-/

namespace ProgramGraph.Discovery

open Program ProgramGraph.Graph

theorem mem_findings_describeSymbol_iff {w : World} {d : DeclId} {label : String} {f : Finding} :
    f ∈ (describeSymbol w ⟨.symbol d, label⟩ d).findings ↔ Finds w ⟨.symbol d, label⟩ f := by
  rw [describeSymbol]
  cases hd : w.lookup.declaration d with
  | error failure =>
    constructor
    · intro h
      cases h
    · intro h
      cases h with
      | returned hd' => rw [hd] at hd'; cases hd'
      | valued hd' => rw [hd] at hd'; cases hd'
  | ok declaration =>
    constructor
    · intro h
      simp only [describeCategory] at h
      split at h
      · rename_i method
        rw [describeReturnType] at h
        cases ht : w.lookup.returnType d with
        | error failure => simp [ht] at h
        | ok t =>
          simp only [ht, List.mem_singleton] at h
          subst h
          exact .returned hd (DeclCategory.hasReturnType_iff.mp method) ht
      · split at h
        · rename_i value
          rw [describeValueType] at h
          cases ht : w.lookup.valueType d with
          | error failure => simp [ht] at h
          | ok t =>
            simp only [ht, List.mem_singleton] at h
            subst h
            exact .valued hd value ht
        · split at h <;> cases h
    · intro h
      cases h with
      | returned hd' method ht =>
        cases hd.symm.trans hd'
        simp [describeCategory, method, DeclCategory.hasReturnType, describeReturnType, ht, typeLink, usedAs]
      | valued hd' value ht =>
        cases hd.symm.trans hd'
        have noMethod := DeclCategory.hasReturnType_of_isValueLike value
        simp [describeCategory, noMethod, value, describeValueType, ht, typeLink, usedAs]

theorem mem_selfLoop_iff {w : World} {e : Entity} {f : Finding} :
    f ∈ selfLoop w e ↔
      w.options.typeSelfLoops = true ∧ f = .relationship ⟨e, e, .typeOf⟩ (usedAs "reference_type") := by
  rw [selfLoop]
  split
  · simp [usedAs, *]
  · simp [*]

theorem mem_describeTypeDeclaration_iff {w : World} {t : TypeId} {type : ResolvedType} {f : Finding} :
    f ∈ (describeTypeDeclaration w t type).findings ↔
      ∃ d, w.lookup.typeDeclaration t = some d ∧ f = .entity (symbolEntity w d) := by
  rw [describeTypeDeclaration]
  cases ht : w.lookup.typeDeclaration t with
  | none => simp
  | some d => cases hd : w.lookup.declaration d <;> simp [hd]

theorem mem_findings_describeType_iff {w : World} {t : TypeId} {label : String} {f : Finding} :
    f ∈ (describeType w ⟨.type t, label⟩ t).findings ↔ Finds w ⟨.type t, label⟩ f := by
  rw [describeType]
  cases ht : w.lookup.resolvedType t with
  | error failure =>
    constructor
    · intro h
      cases h
    · intro h
      cases h with
      | self _ ht' => rw [ht] at ht'; cases ht'
      | declared ht' => rw [ht] at ht'; cases ht'
  | ok type =>
    by_cases reference : type.category = .reference
    · have isReference := ResolvedType.isReferenceType_iff.mpr reference
      simp only [isReference, if_true, List.mem_append, mem_selfLoop_iff, mem_describeTypeDeclaration_iff]
      constructor
      · rintro (⟨wanted, rfl⟩ | ⟨d, hd, rfl⟩)
        · exact .self wanted ht reference
        · exact .declared ht reference hd
      · intro h
        cases h with
        | self wanted => exact .inl ⟨wanted, rfl⟩
        | declared _ _ hd => exact .inr ⟨_, hd, rfl⟩
    · have noReference : type.isReferenceType = false := by
        rwa [Bool.eq_false_iff, ne_eq, ResolvedType.isReferenceType_iff]
      simp only [noReference, Bool.false_eq_true, if_false, List.not_mem_nil, false_iff]
      intro h
      cases h with
      | self _ ht' reference' => cases ht.symm.trans ht'; exact reference reference'
      | declared ht' reference' => cases ht.symm.trans ht'; exact reference reference'

/-- The findings of an entity are those for which there is a reason. -/
theorem mem_findings_iff {w : World} {e : Entity} {f : Finding} : f ∈ (describe w e).findings ↔ Finds w e f := by
  obtain ⟨k, label⟩ := e
  cases k with
  | node ref => exact mem_findings_describeNode_iff
  | symbol d => exact mem_findings_describeSymbol_iff
  | type t => exact mem_findings_describeType_iff

/-! ## The entities that are found -/

/-- The entities that a contribution makes known. -/
def Enrichment.found (c : Enrichment) : List Entity :=
  c.findings.flatMap Finding.entities

theorem mem_found_iff {w : World} {e e' : Entity} :
    e' ∈ (describe w e).found ↔ ∃ f, Finds w e f ∧ e' ∈ f.entities := by
  simp only [Enrichment.found, List.mem_flatMap, mem_findings_iff]

/-- What an entity finds is itself, an entity that its key leads to, or a node of its unit. -/
theorem cases_of_found {w : World} {e e' : Entity} (found : e' ∈ (describe w e).found) :
    e' = e ∨ (∃ k, Leads w e.key k ∧ e' = w.entity k) ∨
      ∃ ref ref' n, e.key = .node ref ∧ ref'.unit = ref.unit ∧ w.units.node? ref' = some n ∧
        e' = w.entity (.node ref') := by
  obtain ⟨f, hf, he'⟩ := mem_found_iff.mp found
  cases hf with
  | @parent ref _ n m p hn hp hm =>
    simp only [Finding.entities, List.mem_cons, List.not_mem_nil, or_false] at he'
    rcases he' with rfl | rfl
    · exact .inr (.inr ⟨ref, ref, n, rfl, rfl, hn, (World.entity_node hn).symm⟩)
    · exact .inr (.inr ⟨ref, ⟨ref.unit, p⟩, m, rfl, rfl, hm, (World.entity_node hm).symm⟩)
  | resolved hn resolvable hd =>
    rw [Finding.entities, List.mem_singleton] at he'
    exact .inr (.inl ⟨_, .resolved hn resolvable hd, he'⟩)
  | returned hd method ht =>
    simp only [Finding.entities, List.mem_cons, List.not_mem_nil, or_false] at he'
    rcases he' with rfl | rfl
    · exact .inl rfl
    · exact .inr (.inl ⟨_, .returned hd method ht, rfl⟩)
  | valued hd value ht =>
    simp only [Finding.entities, List.mem_cons, List.not_mem_nil, or_false] at he'
    rcases he' with rfl | rfl
    · exact .inl rfl
    · exact .inr (.inl ⟨_, .valued hd value ht, rfl⟩)
  | self =>
    simp only [Finding.entities, List.mem_cons, List.not_mem_nil, or_false, or_self] at he'
    exact .inl he'
  | declared ht reference hd =>
    rw [Finding.entities, List.mem_singleton] at he'
    exact .inr (.inl ⟨_, .declared ht reference hd, he'⟩)

/-- A genuine entity finds genuine entities only. -/
theorem Genuine.of_found {w : World} {e e' : Entity} (h : Genuine w e) (found : e' ∈ (describe w e).found) :
    Genuine w e' := by
  rcases cases_of_found found with rfl | ⟨k, leads, rfl⟩ | ⟨_, _, _, _, _, hn, rfl⟩
  · exact h
  · exact .of_key (h.reachable.step leads)
  · exact .of_key (.node hn)

/-- A syntax node is found by nodes of its own unit only. -/
theorem unit_of_found_node {w : World} {e e' : Entity} {ref : NodeRef} (found : e' ∈ (describe w e).found)
    (hk : e'.key = .node ref) : ∃ ref₀, e.key = .node ref₀ ∧ ref₀.unit = ref.unit := by
  obtain ⟨k₀, label⟩ := e
  rcases cases_of_found found with rfl | ⟨k, leads, rfl⟩ | ⟨ref₀, ref', _, he, same, _, rfl⟩
  · exact ⟨ref, hk, rfl⟩
  · rw [World.key_entity] at hk
    subst hk
    cases leads
  · rw [World.key_entity] at hk
    cases hk
    exact ⟨ref₀, he, same.symm⟩

/-- An entity finds whatever its key leads to. -/
theorem found_of_leads {w : World} {e : Entity} {k : EntityKey} (h : Leads w e.key k) :
    ∃ e' ∈ (describe w e).found, e'.key = k := by
  obtain ⟨k₀, label⟩ := e
  cases h with
  | resolved hn resolvable hd =>
    exact ⟨_, mem_found_iff.mpr ⟨_, .resolved hn resolvable hd, List.mem_singleton_self _⟩, key_symbolEntity w _⟩
  | returned hd method ht =>
    exact ⟨_, mem_found_iff.mpr ⟨_, .returned hd method ht, List.mem_cons_of_mem _ List.mem_cons_self⟩,
      key_typeEntity w _⟩
  | valued hd value ht =>
    exact ⟨_, mem_found_iff.mpr ⟨_, .valued hd value ht, List.mem_cons_of_mem _ List.mem_cons_self⟩,
      key_typeEntity w _⟩
  | declared ht reference hd =>
    exact ⟨_, mem_found_iff.mpr ⟨_, .declared ht reference hd, List.mem_singleton_self _⟩, key_symbolEntity w _⟩

/-! ## The relationships that are found -/

/-- The relationships that a contribution adds, with their bags. -/
def Enrichment.relationships (c : Enrichment) : List (Relationship × Bag) :=
  c.findings.filterMap Finding.relationship?

theorem mem_relationships_iff_finds {w : World} {e : Entity} {r : Relationship} {bag : Bag} :
    (r, bag) ∈ (describe w e).relationships ↔ Finds w e (.relationship r bag) := by
  simp only [Enrichment.relationships, List.mem_filterMap, mem_findings_iff]
  constructor
  · rintro ⟨f, hf, hr⟩
    cases f with
    | entity => cases hr
    | relationship => cases hr; exact hf
  · intro h
    exact ⟨_, h, rfl⟩

theorem source_of_mem_relationships {w : World} {e : Entity} {r : Relationship × Bag}
    (h : r ∈ (describe w e).relationships) : r.1.source.key = e.key := by
  obtain ⟨r, bag⟩ := r
  cases mem_relationships_iff_finds.mp h <;> rfl

/-- The relationships of a genuine entity are those of the world with this source, with the labels of the world. -/
theorem mem_relationships_iff {w : World} {e : Entity} (h : Genuine w e) {r : Relationship} {bag : Bag} :
    (r, bag) ∈ (describe w e).relationships ↔
      Related w r.key bag ∧ r.source = e ∧ r.target = w.entity r.target.key := by
  rw [mem_relationships_iff_finds]
  constructor
  · intro hf
    cases hf with
    | parent hn hp hm =>
      refine ⟨.parent hn hp, ?_, (World.entity_node hm).symm⟩
      exact (World.entity_node hn).symm.trans h.canonical.symm
    | returned hd method ht =>
      refine ⟨?_, rfl, ?_⟩
      · simpa [Relationship.key] using Related.returned h.reachable hd method ht
      · simp [World.entity]
    | valued hd value ht =>
      refine ⟨?_, rfl, ?_⟩
      · simpa [Relationship.key] using Related.valued h.reachable hd value ht
      · simp [World.entity]
    | self wanted ht reference =>
      exact ⟨.self wanted h.reachable ht reference, rfl, h.canonical⟩
  · obtain ⟨source, ⟨targetKey, targetLabel⟩, relation⟩ := r
    rintro ⟨related, rfl, target⟩
    obtain ⟨sourceKey, sourceLabel⟩ := source
    dsimp only at target
    rw [target]
    cases related with
    | parent hn hp =>
      obtain ⟨m, hm⟩ := Units.node?_parent hn hp
      have := h.canonical
      dsimp only at this
      rw [this, World.entity_node hn, World.entity_node hm]
      exact .parent hn hp hm
    | returned _ hd method ht => exact .returned hd method ht
    | valued _ hd value ht => exact .valued hd value ht
    | self wanted _ ht reference =>
      rw [← h.canonical]
      exact .self wanted ht reference

theorem relationships_resolveNode (w : World) (ref : NodeRef) (n : SourceNode) :
    (resolveNode w ref n).findings.filterMap Finding.relationship? = [] := by
  rw [List.filterMap_eq_nil_iff]
  intro f hf
  obtain ⟨_, d, _, rfl⟩ := mem_resolveNode_iff.mp hf
  rfl

theorem relationships_describeTypeDeclaration (w : World) (t : TypeId) (type : ResolvedType) :
    (describeTypeDeclaration w t type).findings.filterMap Finding.relationship? = [] := by
  rw [List.filterMap_eq_nil_iff]
  intro f hf
  obtain ⟨d, _, rfl⟩ := mem_describeTypeDeclaration_iff.mp hf
  rfl

theorem length_findings_describeCategory (w : World) (e : Entity) (d : DeclId) (declaration : Declaration) :
    (describeCategory w e d declaration).findings.length ≤ 1 := by
  unfold describeCategory
  split
  · unfold describeReturnType
    split <;> simp
  · split
    · unfold describeValueType
      split <;> simp
    · split <;> simp [describeReferenceDeclaration]

/-- No entity contributes two relationships. -/
theorem length_relationships_le_one (w : World) (e : Entity) : (describe w e).relationships.length ≤ 1 := by
  obtain ⟨k, label⟩ := e
  cases k with
  | node ref =>
    show (describeNode w ref).relationships.length ≤ 1
    unfold describeNode
    split
    · simp [Enrichment.relationships]
    · split
      · simp [Enrichment.relationships]
      · rw [Enrichment.relationships, List.filterMap_append, relationships_resolveNode, List.append_nil]
        refine Nat.le_trans (List.length_filterMap_le _ _) ?_
        unfold parentLink
        split
        · simp
        · split <;> simp
  | symbol d =>
    show (describeSymbol w _ d).relationships.length ≤ 1
    unfold describeSymbol
    split
    · simp [Enrichment.relationships]
    · exact Nat.le_trans (List.length_filterMap_le _ _) (length_findings_describeCategory w _ d _)
  | type t =>
    show (describeType w _ t).relationships.length ≤ 1
    unfold describeType
    split
    · simp [Enrichment.relationships]
    · split
      · rw [Enrichment.relationships, List.filterMap_append, relationships_describeTypeDeclaration, List.append_nil]
        refine Nat.le_trans (List.length_filterMap_le _ _) ?_
        unfold selfLoop
        split <;> simp
      · simp [Enrichment.relationships]

theorem nodup_keys_relationships (w : World) (e : Entity) :
    ((describe w e).relationships.map fun r => r.1.key).Nodup := by
  have short := length_relationships_le_one w e
  match h : (describe w e).relationships with
  | [] => simp
  | [r] => simp
  | _ :: _ :: _ => rw [h] at short; simp at short

/-! ## Adding a contribution -/

theorem missing_of_reachable {w : World} {e : Entity} (h : Reachable w e.key) : (describe w e).missing = none := by
  obtain ⟨k, label⟩ := e
  cases k with
  | node ref =>
    obtain ⟨n, hn⟩ := h.node?_isSome rfl
    obtain ⟨u, hu, hnode⟩ := Units.node?_eq_some_iff.mp hn
    show (describeNode w ref).missing = none
    rw [describeNode_of_node? hu hnode]
  | symbol d =>
    show (describeSymbol w _ d).missing = none
    unfold describeSymbol
    split <;> rfl
  | type t =>
    show (describeType w _ t).missing = none
    unfold describeType
    split
    · rfl
    · split <;> rfl

/-- Adding findings makes their entities known and then adds their relationships. -/
theorem addFindings_eq (g : Graph) (findings : List Finding) :
    addFindings g findings =
      (g.registerAll (findings.flatMap Finding.entities)).relateAll (findings.filterMap Finding.relationship?) := by
  induction findings generalizing g with
  | nil => rfl
  | cons f rest ih =>
    show addFindings (f.addTo g) rest = _
    rw [ih, List.flatMap_cons, registerAll_append]
    cases f with
    | entity e => rfl
    | relationship r bag =>
      rw [Finding.addTo, connect, registerAll_relate]
      rfl

/-- A contribution to a known entity with an empty bag: the new entities are appended, the bag is written in its place,
and the new relationships are appended. -/
theorem Enrichment.addTo_of_split {g : Graph} {e : Entity} {c : Enrichment} {before after : List (Entity × Bag)}
    (present : c.missing = none) (split : g.nodes = before ++ (e, .empty) :: after)
    (different : (c.relationships.map fun r => r.1.key).Nodup)
    (new : ∀ r ∈ c.relationships, r.1.key ∉ g.relationKeys) :
    ∃ fresh : List Entity,
      (c.addTo g e).nodes = before ++ (e, c.bag) :: (after ++ fresh.map fun e => (e, .empty)) ∧
      (c.addTo g e).relationships = g.relationships ++ c.relationships ∧
      ∀ e' ∈ fresh, e' ∈ c.found ∧ e'.key ∉ g.keys := by
  obtain ⟨fresh, nodes, hfresh⟩ := g.nodes_registerAll c.found
  refine ⟨fresh, ?_, ?_, hfresh⟩
  · have here : (addFindings g c.findings).nodes =
        before ++ (e, .empty) :: (after ++ fresh.map fun e => (e, .empty)) := by
      rw [addFindings_eq, nodes_relateAll]
      show (g.registerAll c.found).nodes = _
      rw [nodes, split, List.append_assoc, List.cons_append]
    rw [addTo, present, Option.isSome_none, if_neg Bool.false_ne_true, nodes_merge_of_split here, Bag.empty_merge]
  · rw [addTo, present, Option.isSome_none, if_neg Bool.false_ne_true, relationships_merge, addFindings_eq]
    have unknown : ∀ r ∈ c.relationships, r.1.key ∉ (g.registerAll c.found).relationKeys := by
      intro r hr
      rw [← map_key_relationships, relationships_registerAll, map_key_relationships]
      exact new r hr
    have := relationships_relateAll different unknown
    rwa [relationships_registerAll] at this

theorem mem_keys_addFindings {g : Graph} {c : Enrichment} {k : EntityKey} :
    k ∈ (addFindings g c.findings).keys ↔ k ∈ g.keys ∨ k ∈ c.found.map Entity.key := by
  rw [addFindings_eq, ← map_key_entities, entities, nodes_relateAll, ← entities, map_key_entities]
  exact mem_keys_registerAll

/-- After a contribution, the known keys are those known before and those found. -/
theorem Enrichment.mem_keys_addTo {g : Graph} {e : Entity} {c : Enrichment} (present : c.missing = none)
    (known : e.key ∈ g.keys) {k : EntityKey} :
    k ∈ (c.addTo g e).keys ↔ k ∈ g.keys ∨ k ∈ c.found.map Entity.key := by
  rw [addTo, present, Option.isSome_none, if_neg Bool.false_ne_true, mem_keys_merge, mem_keys_addFindings]
  constructor
  · rintro (h | rfl)
    · exact h
    · exact .inl known
  · exact .inl

theorem Enrichment.keys_subset_addTo (g : Graph) (e : Entity) (c : Enrichment) : g.keys ⊆ (c.addTo g e).keys := by
  intro k hk
  unfold addTo
  split
  · exact hk
  · exact mem_keys_merge.mpr (.inl (mem_keys_addFindings.mpr (.inl hk)))

end ProgramGraph.Discovery
