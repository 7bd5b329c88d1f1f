import ProgramGraph.Discovery.Enrichment
import ProgramGraph.Proofs.Program.Units

/-!
# ProgramGraph.Proofs.Discovery.Reachability

What there is to discover in a world, said without graphs and waves.

* `Leads`        — one step of resolution, from the key that is looked up to the key that is the answer.
* `Reachable`    — the syntax nodes, and whatever they lead to.
* `Related`      — the relationships between reachable keys, each with its bag.
* `World.entity` — the entity of a key: its label follows from the world. `Genuine` entities are these, at reachable keys.
* `Finds`        — what the contribution of an entity can hold, rule by rule; `mem_findings_iff` says that this is all.
-/

namespace ProgramGraph.Discovery

open Program ProgramGraph.Graph

/-- One step of resolution. -/
inductive Leads (w : World) : EntityKey → EntityKey → Prop where
  /-- From a resolvable node to what it resolves to. -/
  | resolved {ref : NodeRef} {n : SourceNode} {d : DeclId} : w.units.node? ref = some n → n.resolvable = true →
      w.lookup.resolve ref = .ok d → Leads w (.node ref) (.symbol d)
  /-- From a method to its return type. -/
  | returned {d : DeclId} {declaration : Declaration} {t : TypeId} : w.lookup.declaration d = .ok declaration →
      declaration.category = .method → w.lookup.returnType d = .ok t → Leads w (.symbol d) (.type t)
  /-- From a value to its type. -/
  | valued {d : DeclId} {declaration : Declaration} {t : TypeId} : w.lookup.declaration d = .ok declaration →
      declaration.category.isValueLike = true → w.lookup.valueType d = .ok t → Leads w (.symbol d) (.type t)
  /-- From a reference type to its declaration. -/
  | declared {t : TypeId} {type : ResolvedType} {d : DeclId} : w.lookup.resolvedType t = .ok type →
      type.category = .reference → w.lookup.typeDeclaration t = some d → Leads w (.type t) (.symbol d)

/-- The least set of keys that holds every syntax node and whatever its members lead to. -/
inductive Reachable (w : World) : EntityKey → Prop where
  | node {ref : NodeRef} {n : SourceNode} : w.units.node? ref = some n → Reachable w (.node ref)
  | step {k k' : EntityKey} : Reachable w k → Leads w k k' → Reachable w k'

/-- The bag of a relationship that says what it is used as. -/
def usedAs (use : String) : Bag :=
  .ofList [("uses", .text use)]

/-- The relationships of a world, each with its bag. -/
inductive Related (w : World) : RelationKey → Bag → Prop where
  /-- A node has a parent in its unit. -/
  | parent {ref : NodeRef} {n : SourceNode} {p : UInt32} : w.units.node? ref = some n → n.parent = some p →
      Related w ⟨.node ref, .node ⟨ref.unit, p⟩, .parentOf⟩ .empty
  | returned {d : DeclId} {declaration : Declaration} {t : TypeId} : Reachable w (.symbol d) →
      w.lookup.declaration d = .ok declaration → declaration.category = .method → w.lookup.returnType d = .ok t →
      Related w ⟨.symbol d, .type t, .returnTypeOf⟩ (usedAs "return_type")
  | valued {d : DeclId} {declaration : Declaration} {t : TypeId} : Reachable w (.symbol d) →
      w.lookup.declaration d = .ok declaration → declaration.category.isValueLike = true →
      w.lookup.valueType d = .ok t → Related w ⟨.symbol d, .type t, .valueTypeOf⟩ (usedAs "value_type")
  | self {t : TypeId} {type : ResolvedType} : w.options.typeSelfLoops = true → Reachable w (.type t) →
      w.lookup.resolvedType t = .ok type → type.category = .reference →
      Related w ⟨.type t, .type t, .typeOf⟩ (usedAs "reference_type")

/-- The entity of a key. -/
def World.entity (w : World) : EntityKey → Entity
  | .node ref => .ofNode ref (((w.units.node? ref).map SourceNode.kind).getD "")
  | .symbol d => symbolEntity w d
  | .type t => typeEntity w t

/-- The entity of a reachable key. -/
structure Genuine (w : World) (e : Entity) : Prop where
  reachable : Reachable w e.key
  canonical : e = w.entity e.key

@[simp] theorem key_symbolEntity (w : World) (d : DeclId) : (symbolEntity w d).key = .symbol d := by
  rw [symbolEntity]
  split <;> rfl

@[simp] theorem key_typeEntity (w : World) (t : TypeId) : (typeEntity w t).key = .type t := by
  rw [typeEntity]
  split <;> rfl

@[simp] theorem World.key_entity (w : World) (k : EntityKey) : (w.entity k).key = k := by
  cases k with
  | node ref => rfl
  | symbol d => exact key_symbolEntity w d
  | type t => exact key_typeEntity w t

/-- The relationship of a key. -/
def World.relationship (w : World) (k : RelationKey) : Relationship :=
  ⟨w.entity k.source, w.entity k.target, k.relation⟩

@[simp] theorem World.key_relationship (w : World) (k : RelationKey) : (w.relationship k).key = k := by
  rw [relationship, Relationship.key, key_entity, key_entity]

theorem World.entity_node {w : World} {ref : NodeRef} {n : SourceNode} (h : w.units.node? ref = some n) :
    w.entity (.node ref) = .ofNode ref n.kind := by
  simp [entity, h]

theorem Genuine.of_key {w : World} {k : EntityKey} (h : Reachable w k) : Genuine w (w.entity k) :=
  ⟨by rwa [World.key_entity], by rw [World.key_entity]⟩

theorem Reachable.node?_isSome {w : World} {k : EntityKey} (h : Reachable w k) {ref : NodeRef} (hk : k = .node ref) :
    ∃ n, w.units.node? ref = some n := by
  cases h with
  | node hn => cases hk; exact ⟨_, hn⟩
  | step _ hl => subst hk; cases hl

theorem Related.reachable_source {w : World} {k : RelationKey} {bag : Bag} (h : Related w k bag) :
    Reachable w k.source := by
  cases h with
  | parent hn => exact .node hn
  | returned reachable => exact reachable
  | valued reachable => exact reachable
  | self _ reachable => exact reachable

theorem Related.reachable_target {w : World} {k : RelationKey} {bag : Bag} (h : Related w k bag) :
    Reachable w k.target := by
  cases h with
  | parent hn hp =>
    obtain ⟨m, hm⟩ := Units.node?_parent hn hp
    exact .node hm
  | returned reachable hd method ht => exact reachable.step (.returned hd method ht)
  | valued reachable hd value ht => exact reachable.step (.valued hd value ht)
  | self _ reachable => exact reachable

/-! ## What an entity finds -/

/-- The entities that a finding makes known. -/
def Finding.entities : Finding → List Entity
  | .entity e => [e]
  | .relationship r _ => [r.source, r.target]

/-- The relationship that a finding adds, with its bag. -/
def Finding.relationship? : Finding → Option (Relationship × Bag)
  | .entity _ => none
  | .relationship r bag => some (r, bag)

/-- What the contribution of an entity can hold, with the reason why. -/
inductive Finds (w : World) : Entity → Finding → Prop where
  | parent {ref : NodeRef} {label : String} {n m : SourceNode} {p : UInt32} : w.units.node? ref = some n →
      n.parent = some p → w.units.node? ⟨ref.unit, p⟩ = some m →
      Finds w ⟨.node ref, label⟩
        (.relationship ⟨.ofNode ref n.kind, .ofNode ⟨ref.unit, p⟩ m.kind, .parentOf⟩ .empty)
  | resolved {ref : NodeRef} {label : String} {n : SourceNode} {d : DeclId} : w.units.node? ref = some n →
      n.resolvable = true → w.lookup.resolve ref = .ok d → Finds w ⟨.node ref, label⟩ (.entity (symbolEntity w d))
  | returned {d : DeclId} {label : String} {declaration : Declaration} {t : TypeId} :
      w.lookup.declaration d = .ok declaration → declaration.category = .method → w.lookup.returnType d = .ok t →
      Finds w ⟨.symbol d, label⟩
        (.relationship ⟨⟨.symbol d, label⟩, typeEntity w t, .returnTypeOf⟩ (usedAs "return_type"))
  | valued {d : DeclId} {label : String} {declaration : Declaration} {t : TypeId} :
      w.lookup.declaration d = .ok declaration → declaration.category.isValueLike = true →
      w.lookup.valueType d = .ok t →
      Finds w ⟨.symbol d, label⟩
        (.relationship ⟨⟨.symbol d, label⟩, typeEntity w t, .valueTypeOf⟩ (usedAs "value_type"))
  | self {t : TypeId} {label : String} {type : ResolvedType} : w.options.typeSelfLoops = true →
      w.lookup.resolvedType t = .ok type → type.category = .reference →
      Finds w ⟨.type t, label⟩
        (.relationship ⟨⟨.type t, label⟩, ⟨.type t, label⟩, .typeOf⟩ (usedAs "reference_type"))
  | declared {t : TypeId} {label : String} {type : ResolvedType} {d : DeclId} :
      w.lookup.resolvedType t = .ok type → type.category = .reference → w.lookup.typeDeclaration t = some d →
      Finds w ⟨.type t, label⟩ (.entity (symbolEntity w d))

theorem describeNode_of_node? {w : World} {ref : NodeRef} {u : SourceUnit} {n : SourceNode}
    (hu : w.units.get? ref.unit = some u) (hn : u.node? ref.node = some n) :
    describeNode w ref =
      { bag := .ofList (nodeProperties n ++ beginProperties n.begin ++ (parentLink ref u n).1 ++
          (resolveNode w ref n).properties)
        findings := (parentLink ref u n).2 ++ (resolveNode w ref n).findings
        failure := (resolveNode w ref n).failure } := by
  simp [describeNode, hu, hn]

theorem mem_parentLink_iff {w : World} {ref : NodeRef} {u : SourceUnit} {n : SourceNode} {f : Finding}
    (hu : w.units.get? ref.unit = some u) :
    f ∈ (parentLink ref u n).2 ↔ ∃ p m, n.parent = some p ∧ w.units.node? ⟨ref.unit, p⟩ = some m ∧
      f = .relationship ⟨.ofNode ref n.kind, .ofNode ⟨ref.unit, p⟩ m.kind, .parentOf⟩ .empty := by
  rw [parentLink]
  cases hp : n.parent with
  | none => simp
  | some p =>
    have look : w.units.node? ⟨ref.unit, p⟩ = u.node? p := by
      rw [Units.node?, hu]
      rfl
    cases hm : u.node? p with
    | none => simp [look, hm]
    | some m => simp [look, hm]

theorem mem_resolveNode_iff {w : World} {ref : NodeRef} {n : SourceNode} {f : Finding} :
    f ∈ (resolveNode w ref n).findings ↔
      n.resolvable = true ∧ ∃ d, w.lookup.resolve ref = .ok d ∧ f = .entity (symbolEntity w d) := by
  rw [resolveNode]
  split
  · rename_i resolvable
    cases hd : w.lookup.resolve ref <;> simp [resolvable]
  · simp [*]

theorem mem_findings_describeNode_iff {w : World} {ref : NodeRef} {label : String} {f : Finding} :
    f ∈ (describeNode w ref).findings ↔ Finds w ⟨.node ref, label⟩ f := by
  cases hn : w.units.node? ref with
  | none =>
    have nothing : (describeNode w ref).findings = [] := by
      rw [describeNode]
      cases hu : w.units.get? ref.unit with
      | none => rfl
      | some u =>
        have : u.node? ref.node = none := by simpa [Units.node?, hu] using hn
        simp [this]
    rw [nothing]
    constructor
    · intro h
      cases h
    · intro h
      cases h with
      | parent hn' => rw [hn] at hn'; cases hn'
      | resolved hn' => rw [hn] at hn'; cases hn'
  | some n =>
    obtain ⟨u, hu, hnode⟩ := Units.node?_eq_some_iff.mp hn
    rw [describeNode_of_node? hu hnode, List.mem_append, mem_parentLink_iff hu, mem_resolveNode_iff]
    constructor
    · rintro (⟨p, m, hp, hm, rfl⟩ | ⟨resolvable, d, hd, rfl⟩)
      · exact .parent hn hp hm
      · exact .resolved hn resolvable hd
    · intro h
      cases h with
      | parent hn' hp hm =>
        cases hn.symm.trans hn'
        exact .inl ⟨_, _, hp, hm, rfl⟩
      | resolved hn' resolvable hd =>
        cases hn.symm.trans hn'
        exact .inr ⟨resolvable, _, hd, rfl⟩

end ProgramGraph.Discovery
