import ProgramGraph.Proofs.Discovery.Bags
import ProgramGraph.Proofs.Discovery.Outgoing
import ProgramGraph.Proofs.Graph.Identifier

/-!
# ProgramGraph.Proofs.Discovery.Agreement

The bags and the relationships of a discovered graph say the same.

* `exists_resolved_of_ref` — only resolved nodes refer to entities.
* `Shows`            — a symbol has one relationship of a kind and shows the type at its end, or has none and shows nothing.
* `bags_agree`       — references, types shown by symbols, reference types and ends of relationships agree throughout.
-/

namespace ProgramGraph

open Program ProgramGraph.Graph

namespace Discovery

variable {w : World} {x : Explorer}

/-! ## References -/

/-- Properties without references. -/
def RefFree (entries : List (String × Property)) : Prop :=
  ∀ name id, (name, Property.ref id) ∉ entries

theorem RefFree.append {entries entries' : List (String × Property)} (h : RefFree entries) (h' : RefFree entries') :
    RefFree (entries ++ entries') := by
  intro name id mem
  exact (List.mem_append.mp mem).elim (h name id) (h' name id)

theorem refFree_nodeProperties (n : SourceNode) : RefFree (nodeProperties n) := by
  simp [RefFree, nodeProperties]

theorem refFree_beginProperties (p : Option Position) : RefFree (beginProperties p) := by
  cases p <;> simp [RefFree, beginProperties, Property.ofWord]

theorem refFree_parentLink (ref : NodeRef) (u : SourceUnit) (n : SourceNode) : RefFree (parentLink ref u n).1 := by
  rw [parentLink]
  cases n.parent with
  | none => cases hash : u.contentHash <;> simp [RefFree, fileProperties, hash]
  | some p => cases hp : u.node? p <;> simp [hp, RefFree]

theorem refFree_describeCategory (symbol : Entity) (d : DeclId) (declaration : Declaration) :
    RefFree (describeCategory w symbol d declaration).properties := by
  rw [describeCategory]
  split
  · rw [describeReturnType]
    cases w.lookup.returnType d <;> simp [RefFree]
  · split
    · rw [describeValueType]
      cases w.lookup.valueType d <;> simp [RefFree]
    · split <;> simp [RefFree, describeReferenceDeclaration]

theorem refFree_describeTypeDeclaration (t : TypeId) (type : ResolvedType) :
    RefFree (describeTypeDeclaration w t type).properties := by
  rw [describeTypeDeclaration]
  cases w.lookup.typeDeclaration t with
  | none => simp [RefFree, plainNames, nameProperties]
  | some d => cases hd : w.lookup.declaration d <;> simp [hd, RefFree, plainNames, nameProperties]

theorem refFree_typeProperties (type : ResolvedType) : RefFree (typeProperties type) := by
  simp [RefFree, typeProperties]

theorem RefFree.getElem?_ofList {entries : List (String × Property)} (h : RefFree entries) (name id : String) :
    (Bag.ofList entries)[name]? ≠ some (.ref id) :=
  fun held => h name id (Bag.mem_of_getElem?_ofList held)

/-- Only a resolved node refers to an entity, and it refers to what it resolves to. -/
theorem exists_resolved_of_ref {e : Entity} {name id : String} (h : (describe w e).bag[name]? = some (.ref id)) :
    ∃ d, Leads w e.key (.symbol d) ∧ id = (w.entity (.symbol d)).id := by
  obtain ⟨k, label⟩ := e
  cases k with
  | node ref =>
    change (describeNode w ref).bag[name]? = some (.ref id) at h
    cases node : w.units.node? ref with
    | none =>
      rw [bag_describeNode_of_none node] at h
      simp [Bag.empty] at h
    | some n =>
      obtain ⟨u, hu, hn⟩ := Units.node?_eq_some_iff.mp node
      rw [describeNode_of_node? hu hn] at h
      have entry := Bag.mem_of_getElem?_ofList h
      rw [List.mem_append] at entry
      rcases entry with entry | entry
      · have free := ((refFree_nodeProperties n).append (refFree_beginProperties n.begin)).append
          (refFree_parentLink ref u n)
        exact absurd entry (free name id)
      · rw [resolveNode] at entry
        split at entry
        · rename_i resolvable
          cases hd : w.lookup.resolve ref with
          | ok d =>
            simp only [hd, List.mem_singleton, Prod.mk.injEq, Property.ref.injEq] at entry
            exact ⟨d, .resolved node resolvable hd, entry.2⟩
          | error f => simp [hd] at entry
        · cases entry
  | symbol d =>
    change (describeSymbol w _ d).bag[name]? = some (.ref id) at h
    cases hd : w.lookup.declaration d with
    | error f =>
      simp only [describeSymbol, hd] at h
      exact absurd h (RefFree.getElem?_ofList (by simp [RefFree]) name id)
    | ok declaration =>
      rw [describeSymbol_of_ok hd] at h
      have free : RefFree
          [("name", .text declaration.name), ("category", .text declaration.category.name),
            ("qualifiedSignature", .text (signature w d declaration))] := by simp [RefFree]
      exact absurd h ((free.append (refFree_describeCategory _ d declaration)).getElem?_ofList name id)
  | type t =>
    change (describeType w _ t).bag[name]? = some (.ref id) at h
    rw [describeType] at h
    cases ht : w.lookup.resolvedType t with
    | error f =>
      simp only [ht] at h
      exact absurd h (RefFree.getElem?_ofList (by simp [RefFree]) name id)
    | ok type =>
      by_cases reference : type.isReferenceType = true
      · simp only [ht, reference, if_true] at h
        have free := (refFree_typeProperties type).append (refFree_describeTypeDeclaration (w := w) t type)
        exact absurd h (free.getElem?_ofList name id)
      · simp only [ht, reference, Bool.false_eq_true, if_false] at h
        have free : RefFree (plainNames type) := by simp [RefFree, plainNames, nameProperties]
        exact absurd h (((refFree_typeProperties type).append free).getElem?_ofList name id)

/-- What is referred to is one entity, and that is a symbol. -/
theorem Settled.exists_symbol_of_ref (h : Settled w x) {e : Entity} {bag : Bag} (mem : (e, bag) ∈ x.graph.nodes)
    {name id : String} (held : bag[name]? = some (.ref id)) :
    ∃ s ∈ x.graph.entities, s.key.kind = .symbol ∧ ∀ s' ∈ x.graph.entities, s'.id = id ↔ s' = s := by
  obtain ⟨known, rfl⟩ := h.genuine_of_mem_nodes mem
  obtain ⟨d, leads, rfl⟩ := exists_resolved_of_ref held
  have symbol : Genuine w (w.entity (.symbol d)) := .of_key (known.reachable.step leads)
  refine ⟨_, h.mem_entities_iff.mpr symbol, by simp [EntityKey.kind], fun s' hs' => ⟨fun same => ?_, ?_⟩⟩
  · rw [(h.mem_entities_iff.mp hs').canonical, EntityKey.id_injective same, World.key_entity]
  · rintro rfl
    rfl

theorem Related.not_ref {k : RelationKey} {bag : Bag} (h : Related w k bag) (name id : String) :
    bag[name]? ≠ some (.ref id) := by
  have used : ∀ use, (usedAs use)[name]? ≠ some (.ref id) :=
    fun use => RefFree.getElem?_ofList (by simp [RefFree]) name id
  cases h with
  | parent => simp [Bag.empty]
  | returned | valued | self => exact used _

/-! ## Types of symbols -/

/-- How a type is described. -/
inductive Described (w : World) (t : TypeId) : String → Prop where
  | known {type : ResolvedType} : w.lookup.resolvedType t = .ok type → Described w t type.description
  | unknown {f : LookupFailure} : w.lookup.resolvedType t = .error f → Described w t "N/A"

theorem described (w : World) (t : TypeId) : Described w t (typeDescription w t) := by
  rw [typeDescription]
  cases ht : w.lookup.resolvedType t with
  | ok type => exact .known ht
  | error f => exact .unknown ht

/-- A symbol has one relationship of a kind and shows the type at its end under a name, or it has none and shows
nothing. -/
def Shows (w : World) (g : Graph) (k : EntityKey) (bag : Bag) (name : String) (relation : Relation) : Prop :=
  (name ∈ bag ∧ ∃ r t text, g.outgoing relation k = [r] ∧ r.target.key = .type t ∧
      bag[name]? = some (.text text) ∧ Described w t text) ∨
    (name ∉ bag ∧ g.outgoing relation k = [])

/-- The return type of a method is known. -/
structure Returned (w : World) (d : DeclId) (declaration : Declaration) (t : TypeId) : Prop where
  declared : w.lookup.declaration d = .ok declaration
  method : declaration.category = .method
  answer : w.lookup.returnType d = .ok t

/-- The type of a value is known. -/
structure Valued (w : World) (d : DeclId) (declaration : Declaration) (t : TypeId) : Prop where
  declared : w.lookup.declaration d = .ok declaration
  value : declaration.category.isValueLike = true
  answer : w.lookup.valueType d = .ok t

theorem Tells.exists_returned {d : DeclId} (h : Tells w (.symbol d) "returnType") :
    ∃ declaration t, Returned w d declaration t := by
  generalize name_eq : "returnType" = name at h
  cases h with
  | returned hd method ht => exact ⟨_, _, hd, method, ht⟩
  | declared _ here => subst name_eq; simp at here
  | reference _ _ here => subst name_eq; simp at here
  | _ => simp at name_eq

theorem Tells.exists_valued {d : DeclId} (h : Tells w (.symbol d) "valueType") :
    ∃ declaration t, Valued w d declaration t := by
  generalize name_eq : "valueType" = name at h
  cases h with
  | valued hd value ht => exact ⟨_, _, hd, value, ht⟩
  | declared _ here => subst name_eq; simp at here
  | reference _ _ here => subst name_eq; simp at here
  | _ => simp at name_eq

theorem Returned.bag {d : DeclId} {declaration : Declaration} {t : TypeId} (h : Returned w d declaration t)
    (symbol : Entity) : (describeSymbol w symbol d).bag["returnType"]? = some (.text (typeDescription w t)) := by
  rw [describeSymbol_of_ok h.declared, describeCategory_of_method symbol h.method, describeReturnType, h.answer]
  exact Bag.getElem?_ofList_of_mem (by simp) (by simp)

theorem Valued.bag {d : DeclId} {declaration : Declaration} {t : TypeId} (h : Valued w d declaration t)
    (symbol : Entity) : (describeSymbol w symbol d).bag["valueType"]? = some (.text (typeDescription w t)) := by
  rw [describeSymbol_of_ok h.declared, describeCategory_of_value symbol h.value, describeValueType, h.answer]
  exact Bag.getElem?_ofList_of_mem (by simp) (by simp)

/-- The signature of a value is the description of its type. -/
theorem Valued.signature_eq {d : DeclId} {declaration : Declaration} {t : TypeId} (h : Valued w d declaration t) :
    signature w d declaration = typeDescription w t := by
  have value := h.value
  rw [signature, h.answer]
  cases category : declaration.category <;> simp_all [DeclCategory.isValueLike, DeclCategory.isMethodLike]

theorem Valued.bag_signature {d : DeclId} {declaration : Declaration} {t : TypeId} (h : Valued w d declaration t)
    (symbol : Entity) :
    (describeSymbol w symbol d).bag["qualifiedSignature"]? = some (.text (typeDescription w t)) := by
  rw [describeSymbol_of_ok h.declared, describeCategory_of_value symbol h.value, describeValueType, h.answer,
    h.signature_eq]
  exact Bag.getElem?_ofList_of_mem (by simp) (by simp)

namespace Settled

/-- A symbol shows the type at the end of each relationship, and nothing without one. -/
theorem shows (h : Settled w x) {k : EntityKey} {bag : Bag} {name : String} {relation : Relation}
    (type : ∀ k' b, Related w ⟨k, k', relation⟩ b →
      ∃ t, k' = .type t ∧ bag[name]? = some (.text (typeDescription w t)))
    (related : name ∈ bag → ∃ k' b, Related w ⟨k, k', relation⟩ b) : Shows w x.graph k bag name relation := by
  by_cases known : ∃ k' b, Related w ⟨k, k', relation⟩ b
  · obtain ⟨k', b, related⟩ := known
    obtain ⟨t, rfl, text⟩ := type k' b related
    have held : name ∈ bag := by
      rw [Std.ExtTreeMap.mem_iff_isSome_getElem?, text]
      rfl
    exact .inl ⟨held, _, t, _, h.outgoing_of_related related, World.key_entity w _, text, described w t⟩
  · exact .inr ⟨mt related known, h.outgoing_eq_nil fun k' b related => known ⟨k', b, related⟩⟩

theorem shows_returnType (h : Settled w x) {d : DeclId} (reachable : Reachable w (.symbol d)) (symbol : Entity) :
    Shows w x.graph (.symbol d) (describeSymbol w symbol d).bag "returnType" .returnTypeOf := by
  refine h.shows (fun k' b related => ?_) fun held => ?_
  · cases related with
    | returned _ hd method ht => exact ⟨_, rfl, Returned.bag ⟨hd, method, ht⟩ symbol⟩
  · obtain ⟨declaration, t, hd, method, ht⟩ := (mem_bag_describeSymbol_iff_tells.mp held).exists_returned
    exact ⟨_, _, .returned reachable hd method ht⟩

theorem shows_valueType (h : Settled w x) {d : DeclId} (reachable : Reachable w (.symbol d)) (symbol : Entity) :
    Shows w x.graph (.symbol d) (describeSymbol w symbol d).bag "valueType" .valueTypeOf := by
  refine h.shows (fun k' b related => ?_) fun held => ?_
  · cases related with
    | valued _ hd value ht => exact ⟨_, rfl, Valued.bag ⟨hd, value, ht⟩ symbol⟩
  · obtain ⟨declaration, t, hd, value, ht⟩ := (mem_bag_describeSymbol_iff_tells.mp held).exists_valued
    exact ⟨_, _, .valued reachable hd value ht⟩

/-- A method is no value, so a symbol has a return type or a value type, but not both. -/
theorem outgoing_returnTypeOf_or_valueTypeOf (h : Settled w x) (k : EntityKey) :
    x.graph.outgoing .returnTypeOf k = [] ∨ x.graph.outgoing .valueTypeOf k = [] := by
  by_cases none : ∃ k' bag, Related w ⟨k, k', .returnTypeOf⟩ bag
  · obtain ⟨k', bag, related⟩ := none
    refine .inr (h.outgoing_eq_nil fun k'' bag' related' => ?_)
    cases related with
    | returned _ hd method _ =>
      cases related' with
      | valued _ hd' value _ =>
        cases hd.symm.trans hd'
        rw [method] at value
        cases value
  · exact .inl (h.outgoing_eq_nil fun k' bag related => none ⟨k', bag, related⟩)

/-! ## Reference types -/

theorem outgoing_typeOf_iff (h : Settled w x) (wanted : w.options.typeSelfLoops = true) {t : TypeId}
    (reachable : Reachable w (.type t)) :
    x.graph.outgoing .typeOf (.type t) ≠ [] ↔
      ∃ type, w.lookup.resolvedType t = .ok type ∧ type.category = .reference := by
  constructor
  · intro some_link
    obtain ⟨r, hr⟩ := List.exists_mem_of_ne_nil _ some_link
    obtain ⟨⟨bag, related⟩, source, relation, _⟩ := h.mem_outgoing_iff.mp hr
    generalize r.key = k at related source relation
    cases related with
    | self _ _ ht reference =>
      cases source
      exact ⟨_, ht, reference⟩
    | _ => cases relation
  · rintro ⟨type, ht, reference⟩
    have related := Related.self wanted reachable ht reference
    have one : x.graph.outgoing .typeOf (.type t) = [_] := h.outgoing_of_related related
    simp [one]

end Settled

theorem isReferenceType_describeType_iff {t : TypeId} {e : Entity} :
    (describeType w e t).bag["isReferenceType"]? = some (.bool true) ↔
      ∃ type, w.lookup.resolvedType t = .ok type ∧ type.category = .reference := by
  cases ht : w.lookup.resolvedType t with
  | error f =>
    simp only [describeType, ht]
    constructor
    · intro held
      simpa using Bag.mem_of_getElem?_ofList held
    · rintro ⟨type, ok, _⟩
      cases ok
  | ok type =>
    obtain ⟨added, names, bag⟩ := exists_bag_describeType ht e
    have held : (describeType w e t).bag["isReferenceType"]? = some (.bool type.isReferenceType) := by
      rw [bag]
      refine Bag.getElem?_ofList_of_mem ?_ (by simp [typeProperties])
      rw [List.map_append, names]
      simp [typeProperties]
    rw [held]
    simp [ResolvedType.isReferenceType_iff]

/-! ## Agreement -/

/-- **Bags and relationships agree.** In a discovered graph a reference is the id of one entity, and that is a symbol. A
symbol shows a return type, or a value type, when it has a relationship to it, and never both; the value type that it shows
is its signature. With links of reference types to themselves, these start at the types that say that they are reference
types. The ends of all relationships are known under the labels that the relationships have for them. -/
theorem bags_agree (w : World) :
    let g := (discover w).graph
    (∀ bag : Bag, (∃ e, (e, bag) ∈ g.nodes) ∨ (∃ r, (r, bag) ∈ g.relationships) →
        ∀ name id : String, bag[name]? = some (.ref id) →
          ∃ s ∈ g.entities, s.key.kind = .symbol ∧ ∀ s' ∈ g.entities, s'.id = id ↔ s' = s) ∧
      (∀ e, ∀ bag : Bag, (e, bag) ∈ g.nodes → e.key.kind = .symbol →
        Shows w g e.key bag "returnType" .returnTypeOf ∧ Shows w g e.key bag "valueType" .valueTypeOf ∧
          ("valueType" ∈ bag → bag["valueType"]? = bag["qualifiedSignature"]?) ∧
          (g.outgoing .returnTypeOf e.key = [] ∨ g.outgoing .valueTypeOf e.key = [])) ∧
      (w.options.typeSelfLoops = true → ∀ e, ∀ bag : Bag, (e, bag) ∈ g.nodes → e.key.kind = .type →
        (g.outgoing .typeOf e.key ≠ [] ↔ bag["isReferenceType"]? = some (.bool true))) ∧
      ∀ r bag, (r, bag) ∈ g.relationships → r.source ∈ g.entities ∧ r.target ∈ g.entities := by
  intro g
  have settled : Settled w (discover w) := settled_discover w
  refine ⟨?references, ?symbols, ?types, ?ends⟩
  case references =>
    rintro bag (⟨e, mem⟩ | ⟨r, mem⟩) name id held
    · exact settled.exists_symbol_of_ref mem held
    · exact absurd held ((settled.mem_relationships_iff.mp mem).1.not_ref name id)
  case symbols =>
    intro e bag mem kind
    obtain ⟨known, rfl⟩ := settled.genuine_of_mem_nodes mem
    obtain ⟨k, label⟩ := e
    cases k with
    | node ref => cases kind
    | type t => cases kind
    | symbol d =>
      refine ⟨settled.shows_returnType known.reachable _, settled.shows_valueType known.reachable _, fun held => ?_,
        settled.outgoing_returnTypeOf_or_valueTypeOf _⟩
      obtain ⟨declaration, t, valued⟩ := (mem_bag_describeSymbol_iff_tells.mp held).exists_valued
      exact (valued.bag _).trans (valued.bag_signature _).symm
  case types =>
    intro wanted e bag mem kind
    obtain ⟨known, rfl⟩ := settled.genuine_of_mem_nodes mem
    obtain ⟨k, label⟩ := e
    cases k with
    | node ref => cases kind
    | symbol d => cases kind
    | type t => exact (settled.outgoing_typeOf_iff wanted known.reachable).trans isReferenceType_describeType_iff.symm
  case ends => exact fun r bag mem => settled.ends mem

theorem bags_agree_knot :
    knot.options.typeSelfLoops = true ∧ (discover knot).graph.outgoing .typeOf (.type ⟨0⟩) ≠ [] := by
  obtain ⟨n, node, resolvable⟩ := node?_knot
  have reachable : Reachable knot (.type ⟨0⟩) :=
    ((Reachable.node node).step (.resolved node resolvable rfl)).step (.returned rfl rfl rfl)
  obtain ⟨mem, _⟩ := get?_eq_some_iff.mp ((settled_discover knot).get?_of_reachable reachable)
  obtain ⟨_, _, types, _⟩ := bags_agree knot
  exact ⟨rfl, (types rfl _ _ mem rfl).mpr (isReferenceType_describeType_iff.mpr ⟨_, rfl, rfl⟩)⟩

end Discovery
end ProgramGraph
