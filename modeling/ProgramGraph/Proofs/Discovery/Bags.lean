import ProgramGraph.Proofs.Discovery.Confluence

/-!
# ProgramGraph.Proofs.Discovery.Bags

What is told about an entity is told by its own enrichment alone.

* `Tells`        — the names under which something is told about a key, rule by rule.
* `mem_bag_iff`  — the bag of a contribution has these names and no others.
* `WrittenAlone` — the bag that enriching one entity writes into an empty graph.
* `bags_local`   — at every point of a discovery an enriched entity holds this bag, and one that waits holds nothing.
-/

namespace ProgramGraph

open Program ProgramGraph.Graph

namespace Graph

/-- A graph in which an entity is known, if at all, with an empty bag. -/
def IsBlank (g : Graph) (e : Entity) : Prop :=
  ∀ n ∈ g.nodes, n.1.key = e.key → n = (e, .empty)

theorem IsBlank.register {g : Graph} {e : Entity} (h : g.IsBlank e) : (g.register e).IsBlank e := by
  intro n hn same
  by_cases known : e.key ∈ g.keys
  · rw [register_of_mem known] at hn
    exact h n hn same
  · rw [nodes_register_of_not_mem known, List.mem_append, List.mem_singleton] at hn
    exact hn.elim (fun hn => h n hn same) id

/-- A bag that is written over nothing is held as it is. -/
theorem IsBlank.get?_merge {g : Graph} {e : Entity} (h : g.IsBlank e) (bag : Bag) :
    (g.merge e bag).get? e.key = some (e, bag) := by
  have known : e.key ∈ (g.register e).keys := mem_keys_register.mpr (.inr rfl)
  rw [← map_key_entities, entities, List.map_map] at known
  obtain ⟨n, hn, same⟩ := List.mem_map.mp known
  rw [h.register n hn same] at hn
  obtain ⟨before, after, split⟩ := List.append_of_mem hn
  have nodes : (g.merge e bag).nodes = before ++ (e, bag) :: after := by
    rw [← merge_register, nodes_merge_of_split split, Bag.empty_merge]
  refine get?_eq_some_iff.mpr ⟨?_, rfl⟩
  simp [nodes]

end Graph

namespace Discovery

/-! ## Names -/

/-- The names under which something is told about a key. -/
inductive Tells (w : World) : EntityKey → String → Prop where
  | node {ref : NodeRef} {n : SourceNode} {name : String} : w.units.node? ref = some n →
      name ∈ ["nodeType", "position", "sourceText", "structuralHash"] → Tells w (.node ref) name
  | begins {ref : NodeRef} {n : SourceNode} {name : String} : w.units.node? ref = some n → n.begin ≠ none →
      name ∈ ["beginLine", "beginColumn"] → Tells w (.node ref) name
  | file {ref : NodeRef} {n : SourceNode} {name : String} : w.units.node? ref = some n → n.parent = none →
      name ∈ ["fileName", "packageName"] → Tells w (.node ref) name
  | hashed {ref : NodeRef} {u : SourceUnit} {n : SourceNode} : w.units.get? ref.unit = some u →
      u.node? ref.node = some n → n.parent = none → u.contentHash ≠ none → Tells w (.node ref) "contentHash"
  | resolved {ref : NodeRef} {n : SourceNode} {d : DeclId} : w.units.node? ref = some n → n.resolvable = true →
      w.lookup.resolve ref = .ok d → Tells w (.node ref) "resolvedSymbol"
  | unresolved {ref : NodeRef} {n : SourceNode} {f : LookupFailure} {name : String} : w.units.node? ref = some n →
      n.resolvable = true → w.lookup.resolve ref = .error f → name ∈ ["resolveError", "resolveErrorKind"] →
      Tells w (.node ref) name
  | undeclared {d : DeclId} {f : LookupFailure} : w.lookup.declaration d = .error f →
      Tells w (.symbol d) "declarationError"
  | declared {d : DeclId} {declaration : Declaration} {name : String} : w.lookup.declaration d = .ok declaration →
      name ∈ ["name", "category", "qualifiedSignature"] → Tells w (.symbol d) name
  | returned {d : DeclId} {declaration : Declaration} {t : TypeId} : w.lookup.declaration d = .ok declaration →
      declaration.category = .method → w.lookup.returnType d = .ok t → Tells w (.symbol d) "returnType"
  | unreturned {d : DeclId} {declaration : Declaration} {f : LookupFailure} :
      w.lookup.declaration d = .ok declaration → declaration.category = .method →
      w.lookup.returnType d = .error f → Tells w (.symbol d) "returnTypeError"
  | valued {d : DeclId} {declaration : Declaration} {t : TypeId} : w.lookup.declaration d = .ok declaration →
      declaration.category.isValueLike = true → w.lookup.valueType d = .ok t → Tells w (.symbol d) "valueType"
  | ambiguous {d : DeclId} {declaration : Declaration} {f : LookupFailure} :
      w.lookup.declaration d = .ok declaration → declaration.category.isValueLike = true →
      w.lookup.valueType d = .error f → f.kind = .ambiguous → Tells w (.symbol d) "valueTypeAmbiguity"
  | unvalued {d : DeclId} {declaration : Declaration} {f : LookupFailure} :
      w.lookup.declaration d = .ok declaration → declaration.category.isValueLike = true →
      w.lookup.valueType d = .error f → f.kind ≠ .ambiguous → Tells w (.symbol d) "valueTypeError"
  | reference {d : DeclId} {declaration : Declaration} {name : String} : w.lookup.declaration d = .ok declaration →
      declaration.category = .referenceType → name ∈ ["simpleName", "qualifiedName", "identityHash"] →
      Tells w (.symbol d) name
  | untyped {t : TypeId} {f : LookupFailure} : w.lookup.resolvedType t = .error f → Tells w (.type t) "typeError"
  | typed {t : TypeId} {type : ResolvedType} {name : String} : w.lookup.resolvedType t = .ok type →
      name ∈ ["isReferenceType", "isNullType", "isNumeric", "isPrimitive", "isReference", "structuralHash", "fullName",
        "simpleName", "typeDeclaration"] → Tells w (.type t) name

variable {w : World} {name : String}

/-! ### Syntax nodes -/

theorem mem_names_beginProperties_iff {p : Option Position} :
    name ∈ (beginProperties p).map Prod.fst ↔ p ≠ none ∧ name ∈ ["beginLine", "beginColumn"] := by
  cases p <;> simp [beginProperties]

theorem mem_names_fileProperties_iff {u : SourceUnit} :
    name ∈ (fileProperties u).map Prod.fst ↔
      name ∈ ["fileName", "packageName"] ∨ u.contentHash ≠ none ∧ name = "contentHash" := by
  rw [fileProperties]
  cases u.contentHash <;> simp [or_assoc]

theorem mem_names_parentLink {ref : NodeRef} {u : SourceUnit} {n : SourceNode} :
    name ∈ (parentLink ref u n).1.map Prod.fst ↔ n.parent = none ∧ name ∈ (fileProperties u).map Prod.fst := by
  rw [parentLink]
  cases n.parent with
  | none => simp
  | some p => cases hm : u.node? p <;> simp [hm]

theorem mem_names_resolveNode_iff {ref : NodeRef} {n : SourceNode} :
    name ∈ (resolveNode w ref n).properties.map Prod.fst ↔
      n.resolvable = true ∧ ((∃ d, w.lookup.resolve ref = .ok d) ∧ name = "resolvedSymbol" ∨
        (∃ f, w.lookup.resolve ref = .error f) ∧ name ∈ ["resolveError", "resolveErrorKind"]) := by
  rw [resolveNode]
  by_cases resolvable : n.resolvable = true
  · cases hd : w.lookup.resolve ref <;> simp [resolvable]
  · simp [resolvable]

theorem mem_bag_describeNode {ref : NodeRef} {u : SourceUnit} {n : SourceNode} (hu : w.units.get? ref.unit = some u)
    (hn : u.node? ref.node = some n) :
    name ∈ (describeNode w ref).bag ↔
      name ∈ ["nodeType", "position", "sourceText", "structuralHash"] ∨
      (n.begin ≠ none ∧ name ∈ ["beginLine", "beginColumn"]) ∨
      (n.parent = none ∧ (name ∈ ["fileName", "packageName"] ∨ u.contentHash ≠ none ∧ name = "contentHash")) ∨
      (n.resolvable = true ∧ ((∃ d, w.lookup.resolve ref = .ok d) ∧ name = "resolvedSymbol" ∨
        (∃ f, w.lookup.resolve ref = .error f) ∧ name ∈ ["resolveError", "resolveErrorKind"])) := by
  have names : (nodeProperties n).map Prod.fst = ["nodeType", "position", "sourceText", "structuralHash"] := rfl
  rw [describeNode_of_node? hu hn, Bag.mem_ofList]
  simp only [List.map_append, List.mem_append, names, mem_names_beginProperties_iff, mem_names_parentLink,
    mem_names_fileProperties_iff, mem_names_resolveNode_iff, or_assoc]

theorem bag_describeNode_of_none {ref : NodeRef} (h : w.units.node? ref = none) : (describeNode w ref).bag = .empty := by
  rw [describeNode]
  cases hu : w.units.get? ref.unit with
  | none => rfl
  | some u =>
    have : u.node? ref.node = none := by simpa [Units.node?, hu] using h
    simp [this]

theorem mem_bag_describeNode_iff_tells {ref : NodeRef} :
    name ∈ (describeNode w ref).bag ↔ Tells w (.node ref) name := by
  cases node : w.units.node? ref with
  | none =>
    rw [bag_describeNode_of_none node]
    constructor
    · intro h
      simp [Bag.empty] at h
    · intro h
      have absent : ∀ n, w.units.node? ref ≠ some n := by simp [node]
      cases h with
      | node hn | begins hn | file hn | resolved hn | unresolved hn => exact absurd hn (absent _)
      | hashed hu hn => exact absurd (Units.node?_eq_some_iff.mpr ⟨_, hu, hn⟩) (absent _)
  | some n =>
    obtain ⟨u, hu, hn⟩ := Units.node?_eq_some_iff.mp node
    rw [mem_bag_describeNode hu hn]
    constructor
    · rintro (here | ⟨begins, here⟩ | ⟨root, here | ⟨hash, rfl⟩⟩ | ⟨resolvable, ⟨⟨d, hd⟩, rfl⟩ | ⟨⟨f, hf⟩, here⟩⟩)
      · exact .node node here
      · exact .begins node begins here
      · exact .file node root here
      · exact .hashed hu hn root hash
      · exact .resolved node resolvable hd
      · exact .unresolved node resolvable hf here
    · intro h
      cases h with
      | node _ here => exact .inl here
      | begins hn' begins here => cases node.symm.trans hn'; exact .inr (.inl ⟨begins, here⟩)
      | file hn' root here => cases node.symm.trans hn'; exact .inr (.inr (.inl ⟨root, .inl here⟩))
      | hashed hu' hn' root hash =>
        cases hu.symm.trans hu'
        cases hn.symm.trans hn'
        exact .inr (.inr (.inl ⟨root, .inr ⟨hash, rfl⟩⟩))
      | resolved hn' resolvable hd =>
        cases node.symm.trans hn'
        exact .inr (.inr (.inr ⟨resolvable, .inl ⟨⟨_, hd⟩, rfl⟩⟩))
      | unresolved hn' resolvable hf here =>
        cases node.symm.trans hn'
        exact .inr (.inr (.inr ⟨resolvable, .inr ⟨⟨_, hf⟩, here⟩⟩))

/-! ### Declarations -/

theorem describeSymbol_of_ok {d : DeclId} {declaration : Declaration} (hd : w.lookup.declaration d = .ok declaration)
    (symbol : Entity) :
    (describeSymbol w symbol d).bag = .ofList
      ([("name", .text declaration.name), ("category", .text declaration.category.name),
        ("qualifiedSignature", .text (signature w d declaration))] ++
        (describeCategory w symbol d declaration).properties) := by
  simp [describeSymbol, hd]

theorem describeCategory_of_method {d : DeclId} {declaration : Declaration} (symbol : Entity)
    (method : declaration.category = .method) :
    describeCategory w symbol d declaration = describeReturnType w symbol d := by
  simp [describeCategory, method, DeclCategory.hasReturnType]

theorem describeCategory_of_value {d : DeclId} {declaration : Declaration} (symbol : Entity)
    (value : declaration.category.isValueLike = true) :
    describeCategory w symbol d declaration = describeValueType w symbol d := by
  simp [describeCategory, value, DeclCategory.hasReturnType_of_isValueLike value]

theorem mem_names_describeReturnType_iff {symbol : Entity} {d : DeclId} :
    name ∈ (describeReturnType w symbol d).properties.map Prod.fst ↔
      (∃ t, w.lookup.returnType d = .ok t) ∧ name = "returnType" ∨
        (∃ f, w.lookup.returnType d = .error f) ∧ name = "returnTypeError" := by
  rw [describeReturnType]
  cases w.lookup.returnType d <;> simp

theorem mem_names_describeValueType_iff {symbol : Entity} {d : DeclId} :
    name ∈ (describeValueType w symbol d).properties.map Prod.fst ↔
      (∃ t, w.lookup.valueType d = .ok t) ∧ name = "valueType" ∨
        ∃ f, w.lookup.valueType d = .error f ∧ name = valueTypeFailureName f := by
  rw [describeValueType]
  cases w.lookup.valueType d <;> simp

theorem mem_names_describeReferenceDeclaration_iff {declaration : Declaration} :
    name ∈ (describeReferenceDeclaration declaration).properties.map Prod.fst ↔
      name ∈ ["simpleName", "qualifiedName", "identityHash"] := by
  simp [describeReferenceDeclaration]

theorem describeCategory_of_reference {d : DeclId} {declaration : Declaration} (symbol : Entity)
    (reference : declaration.category = .referenceType) :
    describeCategory w symbol d declaration = describeReferenceDeclaration declaration := by
  simp [describeCategory, reference, DeclCategory.hasReturnType, DeclCategory.isValueLike]

theorem tells_of_mem_describeCategory {symbol : Entity} {d : DeclId} {declaration : Declaration}
    (hd : w.lookup.declaration d = .ok declaration)
    (h : name ∈ (describeCategory w symbol d declaration).properties.map Prod.fst) : Tells w (.symbol d) name := by
  rw [describeCategory] at h
  split at h
  · rename_i returns
    have method := DeclCategory.hasReturnType_iff.mp returns
    rcases mem_names_describeReturnType_iff.mp h with ⟨⟨t, ht⟩, rfl⟩ | ⟨⟨f, hf⟩, rfl⟩
    · exact .returned hd method ht
    · exact .unreturned hd method hf
  · split at h
    · rename_i value
      rcases mem_names_describeValueType_iff.mp h with ⟨⟨t, ht⟩, rfl⟩ | ⟨f, hf, rfl⟩
      · exact .valued hd value ht
      · rw [valueTypeFailureName]
        split
        · exact .ambiguous hd value hf ‹_›
        · exact .unvalued hd value hf ‹_›
    · split at h
      · exact .reference hd ‹_› (mem_names_describeReferenceDeclaration_iff.mp h)
      · cases h

theorem mem_bag_describeSymbol_iff_tells {symbol : Entity} {d : DeclId} :
    name ∈ (describeSymbol w symbol d).bag ↔ Tells w (.symbol d) name := by
  cases hd : w.lookup.declaration d with
  | error f =>
    have bag : (describeSymbol w symbol d).bag = .ofList [("declarationError", .text f.message)] := by
      simp [describeSymbol, hd]
    have undeclared : ∀ declaration, w.lookup.declaration d ≠ .ok declaration := by simp [hd]
    rw [bag, Bag.mem_ofList, List.map_singleton, List.mem_singleton]
    constructor
    · rintro rfl
      exact .undeclared hd
    · intro h
      cases h with
      | undeclared => rfl
      | declared hd' | returned hd' | unreturned hd' | valued hd' | ambiguous hd' | unvalued hd' | reference hd' =>
        exact absurd hd' (undeclared _)
  | ok declaration =>
    rw [describeSymbol_of_ok hd, Bag.mem_ofList, List.map_append, List.mem_append]
    constructor
    · rintro (here | here)
      · exact .declared hd here
      · exact tells_of_mem_describeCategory hd here
    · intro h
      cases h with
      | undeclared hf => cases hd.symm.trans hf
      | declared _ here => exact .inl here
      | returned hd' method ht =>
        cases hd.symm.trans hd'
        rw [describeCategory_of_method symbol method, mem_names_describeReturnType_iff]
        exact .inr (.inl ⟨⟨_, ht⟩, rfl⟩)
      | unreturned hd' method hf =>
        cases hd.symm.trans hd'
        rw [describeCategory_of_method symbol method, mem_names_describeReturnType_iff]
        exact .inr (.inr ⟨⟨_, hf⟩, rfl⟩)
      | valued hd' value ht =>
        cases hd.symm.trans hd'
        rw [describeCategory_of_value symbol value, mem_names_describeValueType_iff]
        exact .inr (.inl ⟨⟨_, ht⟩, rfl⟩)
      | ambiguous hd' value hf ambiguous =>
        cases hd.symm.trans hd'
        rw [describeCategory_of_value symbol value, mem_names_describeValueType_iff]
        exact .inr (.inr ⟨_, hf, by simp [valueTypeFailureName, ambiguous]⟩)
      | unvalued hd' value hf unambiguous =>
        cases hd.symm.trans hd'
        rw [describeCategory_of_value symbol value, mem_names_describeValueType_iff]
        exact .inr (.inr ⟨_, hf, by simp [valueTypeFailureName, unambiguous]⟩)
      | reference hd' reference here =>
        cases hd.symm.trans hd'
        rw [describeCategory_of_reference symbol reference, mem_names_describeReferenceDeclaration_iff]
        exact .inr here

/-! ### Types -/

theorem names_describeTypeDeclaration (t : TypeId) (type : ResolvedType) :
    (describeTypeDeclaration w t type).properties.map Prod.fst = ["fullName", "simpleName", "typeDeclaration"] := by
  rw [describeTypeDeclaration]
  cases w.lookup.typeDeclaration t with
  | none => rfl
  | some d => cases hd : w.lookup.declaration d <;> simp [hd, plainNames, nameProperties]

/-- A reference type has the same names as any other one, with other values. -/
theorem exists_bag_describeType {t : TypeId} {type : ResolvedType} (ht : w.lookup.resolvedType t = .ok type)
    (e : Entity) :
    ∃ added, added.map Prod.fst = ["fullName", "simpleName", "typeDeclaration"] ∧
      (describeType w e t).bag = .ofList (typeProperties type ++ added) := by
  by_cases reference : type.isReferenceType = true
  · exact ⟨_, names_describeTypeDeclaration (w := w) t type, by simp [describeType, ht, reference]⟩
  · exact ⟨plainNames type, rfl, by simp [describeType, ht, reference]⟩

theorem mem_bag_describeType_iff_tells {e : Entity} {t : TypeId} :
    name ∈ (describeType w e t).bag ↔ Tells w (.type t) name := by
  cases ht : w.lookup.resolvedType t with
  | error f =>
    simp only [describeType, ht]
    rw [Bag.mem_ofList, List.map_singleton, List.mem_singleton]
    constructor
    · rintro rfl
      exact .untyped ht
    · intro h
      cases h with
      | untyped => rfl
      | typed ht' => cases ht.symm.trans ht'
  | ok type =>
    obtain ⟨added, names, bag⟩ := exists_bag_describeType ht e
    rw [bag, Bag.mem_ofList, List.map_append, names]
    constructor
    · intro here
      exact .typed ht here
    · intro h
      cases h with
      | untyped hf => cases ht.symm.trans hf
      | typed _ here => exact here

/-- The bag of a contribution has the names under which something is told about the key, and no others. -/
theorem mem_bag_iff {e : Entity} : name ∈ (describe w e).bag ↔ Tells w e.key name := by
  obtain ⟨k, label⟩ := e
  cases k with
  | node ref => exact mem_bag_describeNode_iff_tells
  | symbol d => exact mem_bag_describeSymbol_iff_tells
  | type t => exact mem_bag_describeType_iff_tells

/-! ## Enriched alone -/

/-- The bag that enriching an entity writes into an empty graph. -/
def WrittenAlone (w : World) (e : Entity) (bag : Bag) : Prop :=
  (({} : Explorer).enrich w e).graph.get? e.key = some (e, bag)

theorem isBlank_addFindings {e : Entity} (genuine : Genuine w e) :
    (addFindings .empty (describe w e).findings).IsBlank e := by
  intro n hn same
  obtain ⟨fresh, nodes, found⟩ := Graph.empty.nodes_registerAll (describe w e).found
  rw [addFindings_eq, nodes_relateAll] at hn
  change n ∈ (Graph.empty.registerAll (describe w e).found).nodes at hn
  rw [nodes, nodes_empty, List.nil_append, List.mem_map] at hn
  obtain ⟨e', he', rfl⟩ := hn
  -- whatever is found under the key of the entity has its label, since both labels are those of the world
  have canonical := (genuine.of_found (found e' he').1).canonical
  rw [canonical, same, ← genuine.canonical]

theorem writtenAlone_bag {e : Entity} (genuine : Genuine w e) : WrittenAlone w e (describe w e).bag := by
  have present := missing_of_reachable genuine.reachable
  show ((describe w e).addTo .empty e).get? e.key = _
  rw [Enrichment.addTo, present, Option.isSome_none, if_neg Bool.false_ne_true]
  exact (isBlank_addFindings genuine).get?_merge _

/-- **Bags are local.** At every point of a discovery an enriched entity holds what enriching it alone writes into an empty
graph, and an entity that waits holds nothing; so in a discovered graph every entity holds what it says about itself,
under the names that are due to its key. -/
theorem bags_local (w : World) :
    (∀ p, Reaches w {} p → ∀ e bag, (e, bag) ∈ p.explorer.graph.nodes →
      e ∈ p.enriched ∧ WrittenAlone w e bag ∨ e ∈ p.pending ∧ bag = .empty) ∧
    ∀ e bag, (e, bag) ∈ (discover w).graph.nodes →
      WrittenAlone w e bag ∧ ∀ name, name ∈ bag ↔ Tells w e.key name := by
  constructor
  · intro p path e bag mem
    have account := account_of_reaches path
    rw [account.shape.nodes, List.mem_append, List.mem_map, List.mem_map] at mem
    rcases mem with ⟨e', enriched, same⟩ | ⟨e', pending, same⟩
    · cases same
      have known : e ∈ p.explorer.graph.entities := by
        rw [account.entities]
        exact List.mem_append_left _ enriched
      exact .inl ⟨enriched, writtenAlone_bag (account.genuine e known)⟩
    · cases same
      exact .inr ⟨pending, rfl⟩
  · intro e bag mem
    obtain ⟨genuine, rfl⟩ := (settled_discover w).genuine_of_mem_nodes mem
    exact ⟨writtenAlone_bag genuine, fun name => mem_bag_iff⟩

theorem bags_local_knot :
    ∃ e bag, (e, bag) ∈ (discover knot).graph.nodes ∧ WrittenAlone knot e bag ∧ "resolvedSymbol" ∈ bag := by
  obtain ⟨n, node, resolvable⟩ := node?_knot
  have held := (settled_discover knot).get?_of_reachable (.node node)
  obtain ⟨mem, key⟩ := get?_eq_some_iff.mp held
  obtain ⟨alone, names⟩ := (bags_local knot).2 _ _ mem
  exact ⟨_, _, mem, alone, (names _).mpr (key ▸ .resolved node resolvable rfl)⟩

end Discovery
end ProgramGraph
