import ProgramGraph.Proofs.Discovery.Enrichment

/-!
# ProgramGraph.Proofs.Discovery.Locality

How far a discovery looks. Two worlds are compared key by key:

* `SameSubject`    — they show the same unit, declaration or type under a key.
* `SameAnswers`    — what they are asked about the key to get on from there has the same answers.
* `describe_congr` — the contribution of an entity depends on its own subject and answers and on the subjects of the keys
  it leads to, and on nothing else.
* `Embeds`         — one world looks like another wherever the other one reaches. What is reached from the inside is then
  described alike, leads to the same keys and has the same relationships.
-/

namespace ProgramGraph.Discovery

open Program ProgramGraph.Graph

/-- Two worlds show the same unit, declaration or type under a key. -/
def SameSubject (w w' : World) : EntityKey → Prop
  | .node ref => w'.units.get? ref.unit = w.units.get? ref.unit
  | .symbol d => w'.lookup.declaration d = w.lookup.declaration d
  | .type t => w'.lookup.resolvedType t = w.lookup.resolvedType t

/-- Two worlds answer alike what is asked to get on from a key. Only nodes that can be resolved are asked about. -/
def SameAnswers (w w' : World) : EntityKey → Prop
  | .node ref => ∀ n, w.units.node? ref = some n → n.resolvable = true → w'.lookup.resolve ref = w.lookup.resolve ref
  | .symbol d => w'.lookup.returnType d = w.lookup.returnType d ∧ w'.lookup.valueType d = w.lookup.valueType d
  | .type t => w'.lookup.typeDeclaration t = w.lookup.typeDeclaration t

section

variable {w w' : World}

/-! ## Subjects -/

theorem symbolEntity_congr {d : DeclId} (subject : SameSubject w w' (.symbol d)) :
    symbolEntity w' d = symbolEntity w d := by
  have declaration : w'.lookup.declaration d = w.lookup.declaration d := subject
  rw [symbolEntity, symbolEntity, declaration]

theorem typeEntity_congr {t : TypeId} (subject : SameSubject w w' (.type t)) :
    typeEntity w' t = typeEntity w t := by
  have type : w'.lookup.resolvedType t = w.lookup.resolvedType t := subject
  rw [typeEntity, typeEntity, type]

theorem typeDescription_congr {t : TypeId} (subject : SameSubject w w' (.type t)) :
    typeDescription w' t = typeDescription w t := by
  have type : w'.lookup.resolvedType t = w.lookup.resolvedType t := subject
  rw [typeDescription, typeDescription, type]

theorem node?_congr {ref : NodeRef} (subject : SameSubject w w' (.node ref)) :
    w'.units.node? ref = w.units.node? ref := by
  have unit : w'.units.get? ref.unit = w.units.get? ref.unit := subject
  rw [Units.node?, Units.node?, unit]

/-- The entity of a key depends on its subject only. -/
theorem entity_congr {k : EntityKey} (subject : SameSubject w w' k) : w'.entity k = w.entity k := by
  cases k with
  | node ref => rw [World.entity, World.entity, node?_congr subject]
  | symbol d => exact symbolEntity_congr subject
  | type t => exact typeEntity_congr subject

/-! ## Contributions -/

theorem resolveNode_congr {ref : NodeRef} {n : SourceNode} (hn : w.units.node? ref = some n)
    (answers : SameAnswers w w' (.node ref)) (further : ∀ k, Leads w (.node ref) k → SameSubject w w' k) :
    resolveNode w' ref n = resolveNode w ref n := by
  rw [resolveNode, resolveNode]
  split
  · rename_i resolvable
    rw [answers n hn resolvable]
    cases hd : w.lookup.resolve ref with
    | error f => rfl
    | ok d =>
      have symbol := symbolEntity_congr (further _ (.resolved hn resolvable hd))
      simp only [symbol]
  · rfl

theorem describeNode_congr {ref : NodeRef} (subject : SameSubject w w' (.node ref))
    (answers : SameAnswers w w' (.node ref)) (further : ∀ k, Leads w (.node ref) k → SameSubject w w' k) :
    describeNode w' ref = describeNode w ref := by
  have unit : w'.units.get? ref.unit = w.units.get? ref.unit := subject
  rw [describeNode, describeNode, unit]
  cases hu : w.units.get? ref.unit with
  | none => rfl
  | some u =>
    cases hn : u.node? ref.node with
    | none => simp only [hn]
    | some n =>
      have node : w.units.node? ref = some n := Units.node?_eq_some_iff.mpr ⟨u, hu, hn⟩
      simp only [hn, resolveNode_congr node answers further]

theorem signature_congr {d : DeclId} {declaration : Declaration} (hd : w.lookup.declaration d = .ok declaration)
    (answers : SameAnswers w w' (.symbol d)) (further : ∀ k, Leads w (.symbol d) k → SameSubject w w' k) :
    signature w' d declaration = signature w d declaration := by
  obtain ⟨_, valueType⟩ := answers
  rw [signature, signature, valueType]
  split
  · rfl
  · split
    · rfl
    · split
      · rename_i value
        cases ht : w.lookup.valueType d with
        | error f => rfl
        | ok t => exact typeDescription_congr (further _ (.valued hd value ht))
      · rfl

theorem describeReturnType_congr {d : DeclId} {declaration : Declaration} (symbol : Entity)
    (hd : w.lookup.declaration d = .ok declaration) (method : declaration.category = .method)
    (answers : SameAnswers w w' (.symbol d)) (further : ∀ k, Leads w (.symbol d) k → SameSubject w w' k) :
    describeReturnType w' symbol d = describeReturnType w symbol d := by
  obtain ⟨returnType, _⟩ := answers
  rw [describeReturnType, describeReturnType, returnType]
  cases ht : w.lookup.returnType d with
  | error f => rfl
  | ok t =>
    have subject := further _ (.returned hd method ht)
    simp only [typeLink, typeDescription_congr subject, typeEntity_congr subject]

theorem describeValueType_congr {d : DeclId} {declaration : Declaration} (symbol : Entity)
    (hd : w.lookup.declaration d = .ok declaration) (value : declaration.category.isValueLike = true)
    (answers : SameAnswers w w' (.symbol d)) (further : ∀ k, Leads w (.symbol d) k → SameSubject w w' k) :
    describeValueType w' symbol d = describeValueType w symbol d := by
  obtain ⟨_, valueType⟩ := answers
  rw [describeValueType, describeValueType, valueType]
  cases ht : w.lookup.valueType d with
  | error f => rfl
  | ok t =>
    have subject := further _ (.valued hd value ht)
    simp only [typeLink, typeDescription_congr subject, typeEntity_congr subject]

theorem describeCategory_congr {d : DeclId} {declaration : Declaration} (symbol : Entity)
    (hd : w.lookup.declaration d = .ok declaration) (answers : SameAnswers w w' (.symbol d))
    (further : ∀ k, Leads w (.symbol d) k → SameSubject w w' k) :
    describeCategory w' symbol d declaration = describeCategory w symbol d declaration := by
  rw [describeCategory, describeCategory]
  split
  · rename_i returns
    exact describeReturnType_congr symbol hd (DeclCategory.hasReturnType_iff.mp returns) answers further
  · split
    · rename_i value
      exact describeValueType_congr symbol hd value answers further
    · rfl

theorem describeSymbol_congr {d : DeclId} (symbol : Entity) (subject : SameSubject w w' (.symbol d))
    (answers : SameAnswers w w' (.symbol d)) (further : ∀ k, Leads w (.symbol d) k → SameSubject w w' k) :
    describeSymbol w' symbol d = describeSymbol w symbol d := by
  have declaration : w'.lookup.declaration d = w.lookup.declaration d := subject
  rw [describeSymbol, describeSymbol, declaration]
  cases hd : w.lookup.declaration d with
  | error f => rfl
  | ok declaration =>
    simp only [signature_congr hd answers further, describeCategory_congr symbol hd answers further]

theorem describeTypeDeclaration_congr {t : TypeId} {type : ResolvedType} (ht : w.lookup.resolvedType t = .ok type)
    (reference : type.category = .reference) (answers : SameAnswers w w' (.type t))
    (further : ∀ k, Leads w (.type t) k → SameSubject w w' k) :
    describeTypeDeclaration w' t type = describeTypeDeclaration w t type := by
  have declared : w'.lookup.typeDeclaration t = w.lookup.typeDeclaration t := answers
  rw [describeTypeDeclaration, describeTypeDeclaration, declared]
  cases hd : w.lookup.typeDeclaration t with
  | none => rfl
  | some d =>
    have subject := further _ (.declared ht reference hd)
    have declaration : w'.lookup.declaration d = w.lookup.declaration d := subject
    simp only [symbolEntity_congr subject, declaration]

theorem describeType_congr {t : TypeId} (entity : Entity) (options : w'.options = w.options)
    (subject : SameSubject w w' (.type t)) (answers : SameAnswers w w' (.type t))
    (further : ∀ k, Leads w (.type t) k → SameSubject w w' k) :
    describeType w' entity t = describeType w entity t := by
  have type : w'.lookup.resolvedType t = w.lookup.resolvedType t := subject
  rw [describeType, describeType, type]
  cases ht : w.lookup.resolvedType t with
  | error f => rfl
  | ok type =>
    by_cases isReference : type.isReferenceType = true
    · have reference := ResolvedType.isReferenceType_iff.mp isReference
      have loop : selfLoop w' entity = selfLoop w entity := by
        rw [selfLoop, selfLoop, options]
      simp only [loop, describeTypeDeclaration_congr ht reference answers further]
    · simp only [isReference]
      rfl

/-- **Locality.** The contribution of an entity depends on its own subject and answers, and on the subjects of the keys it
leads to. -/
theorem describe_congr {e : Entity} (options : w'.options = w.options) (subject : SameSubject w w' e.key)
    (answers : SameAnswers w w' e.key) (further : ∀ k, Leads w e.key k → SameSubject w w' k) :
    describe w' e = describe w e := by
  obtain ⟨k, label⟩ := e
  cases k with
  | node ref => exact describeNode_congr subject answers further
  | symbol d => exact describeSymbol_congr _ subject answers further
  | type t => exact describeType_congr _ options subject answers further

/-! ## Steps and relationships -/

theorem SameSubject.symm {k : EntityKey} (h : SameSubject w w' k) : SameSubject w' w k := by
  cases k with
  | node ref => exact Eq.symm h
  | symbol d => exact Eq.symm h
  | type t => exact Eq.symm h

theorem SameAnswers.symm {k : EntityKey} (subject : SameSubject w w' k) (h : SameAnswers w w' k) :
    SameAnswers w' w k := by
  cases k with
  | node ref =>
    intro n hn resolvable
    rw [node?_congr subject] at hn
    exact (h n hn resolvable).symm
  | symbol d => exact ⟨h.1.symm, h.2.symm⟩
  | type t => exact Eq.symm h

theorem Leads.congr {k k' : EntityKey} (h : Leads w k k') (subject : SameSubject w w' k)
    (answers : SameAnswers w w' k) : Leads w' k k' := by
  cases h with
  | resolved hn resolvable hd =>
    exact .resolved ((node?_congr subject).trans hn) resolvable ((answers _ hn resolvable).trans hd)
  | returned hd method ht => exact .returned (Eq.trans subject hd) method (answers.1.trans ht)
  | valued hd value ht => exact .valued (Eq.trans subject hd) value (answers.2.trans ht)
  | declared ht reference hd => exact .declared (Eq.trans subject ht) reference (Eq.trans answers hd)

theorem Related.congr {k : RelationKey} {bag : Bag} (h : Related w k bag) (options : w'.options = w.options)
    (reachable : Reachable w' k.source) (subject : SameSubject w w' k.source) (answers : SameAnswers w w' k.source) :
    Related w' k bag := by
  cases h with
  | parent hn hp => exact .parent ((node?_congr subject).trans hn) hp
  | returned _ hd method ht => exact .returned reachable (Eq.trans subject hd) method (answers.1.trans ht)
  | valued _ hd value ht => exact .valued reachable (Eq.trans subject hd) value (answers.2.trans ht)
  | self wanted _ ht reference =>
    rw [← options] at wanted
    exact .self wanted reachable (Eq.trans subject ht) reference

end

/-! ## Embedded worlds -/

/-- One world looks like another wherever the other one reaches. -/
structure Embeds (w w' : World) : Prop where
  options : w'.options = w.options
  subject : ∀ k, Reachable w k → SameSubject w w' k
  answers : ∀ k, Reachable w k → SameAnswers w w' k

namespace Embeds

variable {w w' : World}

theorem entity (h : Embeds w w') {k : EntityKey} (reachable : Reachable w k) : w'.entity k = w.entity k :=
  entity_congr (h.subject k reachable)

theorem describe (h : Embeds w w') {e : Entity} (reachable : Reachable w e.key) :
    describe w' e = Discovery.describe w e := by
  refine describe_congr h.options (h.subject _ reachable) (h.answers _ reachable) ?_
  intro k leads
  exact h.subject k (reachable.step leads)

theorem reachable (h : Embeds w w') {k : EntityKey} (reached : Reachable w k) : Reachable w' k := by
  induction reached with
  | node hn => exact .node ((node?_congr (h.subject _ (.node hn))).trans hn)
  | step before leads ih => exact ih.step (leads.congr (h.subject _ before) (h.answers _ before))

/-- From a key that is reached from the inside, only the inside is reached. -/
theorem leads_of_leads (h : Embeds w w') {k k' : EntityKey} (reachable : Reachable w k) (leads : Leads w' k k') :
    Leads w k k' := by
  have subject := h.subject k reachable
  exact leads.congr subject.symm ((h.answers k reachable).symm subject)

theorem related_iff (h : Embeds w w') {k : RelationKey} {bag : Bag} (reachable : Reachable w k.source) :
    Related w' k bag ↔ Related w k bag := by
  have subject := h.subject _ reachable
  have answers := h.answers _ reachable
  constructor
  · intro related
    exact related.congr h.options.symm reachable subject.symm (answers.symm subject)
  · intro related
    exact related.congr h.options (h.reachable reachable) subject answers

end Embeds
end ProgramGraph.Discovery
