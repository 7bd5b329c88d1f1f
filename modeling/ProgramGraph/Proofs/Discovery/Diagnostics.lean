import Mathlib.Data.Set.Card
import ProgramGraph.Proofs.Discovery.Bags

/-!
# ProgramGraph.Proofs.Discovery.Diagnostics

Failed lookups are counted as often as they are recorded.

* `Fails`           — the lookup that fails for a key, rule by rule; contributions report these failures and no others.
* `diagnostic?`     — the name under which a failure is recorded with the entity that asked. Only a reference type whose
  declaration cannot be described records nothing.
* `diagnosticOf_eq_some_iff` — a bag has a diagnostic name just when its contribution failed under that name.
* `failures_recorded` — so the number of failures is that of the diagnostics, and of those reference types.
-/

namespace ProgramGraph.Discovery

open Program ProgramGraph.Graph

/-- The names under which failed lookups are recorded. -/
def diagnosticNames : List String :=
  ["resolveError", "declarationError", "returnTypeError", "valueTypeError", "valueTypeAmbiguity", "typeError"]

/-- The name under which a failure is recorded with the entity that asked. -/
def diagnostic? : Question × LookupFailure → Option String
  | (.resolution, _) => some "resolveError"
  | (.declaration, _) => some "declarationError"
  | (.returnType, _) => some "returnTypeError"
  | (.valueType, f) => some (valueTypeFailureName f)
  | (.type, _) => some "typeError"
  | (.typeDeclaration, _) => none

/-- The lookup that fails for a key. -/
inductive Fails (w : World) : EntityKey → Question → LookupFailure → Prop where
  | resolution {ref : NodeRef} {n : SourceNode} {f : LookupFailure} : w.units.node? ref = some n →
      n.resolvable = true → w.lookup.resolve ref = .error f → Fails w (.node ref) .resolution f
  | declaration {d : DeclId} {f : LookupFailure} : w.lookup.declaration d = .error f →
      Fails w (.symbol d) .declaration f
  | returnType {d : DeclId} {declaration : Declaration} {f : LookupFailure} :
      w.lookup.declaration d = .ok declaration → declaration.category = .method →
      w.lookup.returnType d = .error f → Fails w (.symbol d) .returnType f
  | valueType {d : DeclId} {declaration : Declaration} {f : LookupFailure} :
      w.lookup.declaration d = .ok declaration → declaration.category.isValueLike = true →
      w.lookup.valueType d = .error f → Fails w (.symbol d) .valueType f
  | type {t : TypeId} {f : LookupFailure} : w.lookup.resolvedType t = .error f → Fails w (.type t) .type f
  | typeDeclaration {t : TypeId} {type : ResolvedType} {d : DeclId} {f : LookupFailure} :
      w.lookup.resolvedType t = .ok type → type.category = .reference → w.lookup.typeDeclaration t = some d →
      w.lookup.declaration d = .error f → Fails w (.type t) .typeDeclaration f

variable {w : World} {q : Question} {f : LookupFailure}

/-! ## What a contribution reports -/

theorem failure_describeNode_iff {ref : NodeRef} :
    (describeNode w ref).failure = some (q, f) ↔ Fails w (.node ref) q f := by
  constructor
  · intro h
    unfold describeNode at h
    split at h
    · cases h
    · rename_i u hu
      split at h
      · cases h
      · rename_i n hn
        have node : w.units.node? ref = some n := Units.node?_eq_some_iff.mpr ⟨u, hu, hn⟩
        dsimp only at h
        unfold resolveNode at h
        split at h
        · split at h
          · cases h
          · cases h
            exact .resolution node ‹_› ‹_›
        · cases h
  · intro h
    cases h with
    | resolution node resolvable hf =>
      obtain ⟨u, hu, hn⟩ := Units.node?_eq_some_iff.mp node
      simp [describeNode_of_node? hu hn, resolveNode, resolvable, hf]

theorem failure_describeSymbol_iff {symbol : Entity} {d : DeclId} :
    (describeSymbol w symbol d).failure = some (q, f) ↔ Fails w (.symbol d) q f := by
  constructor
  · intro h
    unfold describeSymbol at h
    split at h
    · cases h
      exact .declaration ‹_›
    · rename_i declaration hd
      dsimp only at h
      unfold describeCategory at h
      split at h
      · unfold describeReturnType at h
        split at h
        · cases h
        · cases h
          exact .returnType hd (DeclCategory.hasReturnType_iff.mp ‹_›) ‹_›
      · split at h
        · unfold describeValueType at h
          split at h
          · cases h
          · cases h
            exact .valueType hd ‹_› ‹_›
        · split at h <;> cases h
  · intro h
    cases h with
    | declaration hf => simp [describeSymbol, hf]
    | returnType hd method hf => simp [describeSymbol, hd, describeCategory_of_method _ method, describeReturnType, hf]
    | valueType hd value hf => simp [describeSymbol, hd, describeCategory_of_value _ value, describeValueType, hf]

theorem failure_describeType_iff {e : Entity} {t : TypeId} :
    (describeType w e t).failure = some (q, f) ↔ Fails w (.type t) q f := by
  constructor
  · intro h
    unfold describeType at h
    split at h
    · cases h
      exact .type ‹_›
    · rename_i type ht
      split at h
      · rename_i reference
        dsimp only at h
        unfold describeTypeDeclaration at h
        split at h
        · cases h
        · rename_i d hd
          dsimp only at h
          split at h
          · cases h
          · cases h
            exact .typeDeclaration ht (ResolvedType.isReferenceType_iff.mp reference) hd ‹_›
      · cases h
  · intro h
    cases h with
    | type hf => simp [describeType, hf]
    | typeDeclaration ht reference hd hf =>
      simp [describeType, ht, ResolvedType.isReferenceType_iff.mpr reference, describeTypeDeclaration, hd, hf]

theorem failure_eq_some_iff {e : Entity} : (describe w e).failure = some (q, f) ↔ Fails w e.key q f := by
  obtain ⟨k, label⟩ := e
  cases k with
  | node ref => exact failure_describeNode_iff
  | symbol d => exact failure_describeSymbol_iff
  | type t => exact failure_describeType_iff

/-! ## What a bag records -/

theorem mem_diagnosticNames {failure : Question × LookupFailure} {name : String}
    (h : diagnostic? failure = some name) : name ∈ diagnosticNames := by
  obtain ⟨q, f⟩ := failure
  cases q with
  | valueType =>
    simp only [diagnostic?, Option.some.injEq, valueTypeFailureName] at h
    split at h <;> simp [← h, diagnosticNames]
  | typeDeclaration => cases h
  | _ => cases h; simp [diagnosticNames]

theorem tells_of_fails {k : EntityKey} {name : String} (h : Fails w k q f) (named : diagnostic? (q, f) = some name) :
    Tells w k name := by
  cases h with
  | resolution node resolvable hf => cases named; exact .unresolved node resolvable hf (by simp)
  | declaration hf => cases named; exact .undeclared hf
  | returnType hd method hf => cases named; exact .unreturned hd method hf
  | valueType hd value hf =>
    simp only [diagnostic?, Option.some.injEq, valueTypeFailureName] at named
    subst named
    split
    · exact .ambiguous hd value hf ‹_›
    · exact .unvalued hd value hf ‹_›
  | type hf => cases named; exact .untyped hf
  | typeDeclaration => cases named

theorem Tells.exists_fails {k : EntityKey} {name : String} (h : Tells w k name) (diagnostic : name ∈ diagnosticNames) :
    ∃ q f, Fails w k q f ∧ diagnostic? (q, f) = some name := by
  cases h with
  | unresolved node resolvable hf here =>
    obtain rfl : name = "resolveError" := by grind [diagnosticNames]
    exact ⟨_, _, .resolution node resolvable hf, rfl⟩
  | undeclared hf => exact ⟨_, _, .declaration hf, rfl⟩
  | unreturned hd method hf => exact ⟨_, _, .returnType hd method hf, rfl⟩
  | ambiguous hd value hf ambiguous =>
    exact ⟨_, _, .valueType hd value hf, by simp [diagnostic?, valueTypeFailureName, ambiguous]⟩
  | unvalued hd value hf unambiguous =>
    exact ⟨_, _, .valueType hd value hf, by simp [diagnostic?, valueTypeFailureName, unambiguous]⟩
  | untyped hf => exact ⟨_, _, .type hf, rfl⟩
  -- the other rules give names that are no diagnostics
  | node _ here | begins _ _ here | file _ _ here | declared _ here | reference _ _ here | typed _ here =>
    exact absurd diagnostic (List.disjoint_left.mp (by simp [diagnosticNames]) here)
  | hashed | resolved | returned | valued => simp [diagnosticNames] at diagnostic

def diagnosticOf (w : World) (e : Entity) : Option String :=
  (describe w e).failure.bind diagnostic?

/-- The diagnostics in the bag of an entity are those of its contribution. -/
theorem diagnosticOf_eq_some_iff {e : Entity} {name : String} :
    diagnosticOf w e = some name ↔ name ∈ diagnosticNames ∧ name ∈ (describe w e).bag := by
  rw [mem_bag_iff, diagnosticOf, Option.bind_eq_some_iff]
  constructor
  · rintro ⟨⟨q, f⟩, failure, named⟩
    exact ⟨mem_diagnosticNames named, tells_of_fails (failure_eq_some_iff.mp failure) named⟩
  · rintro ⟨diagnostic, tells⟩
    obtain ⟨q, f, fails, named⟩ := tells.exists_fails diagnostic
    exact ⟨(q, f), failure_eq_some_iff.mpr fails, named⟩

/-! ## Counting -/

/-- Whether the contribution of an entity fails without a diagnostic. -/
def failsUnnamed (w : World) (e : Entity) : Bool :=
  (describe w e).failure.isSome && (diagnosticOf w e).isNone

theorem failsUnnamed_iff {e : Entity} :
    failsUnnamed w e = true ↔ ∃ t type d f, e.key = .type t ∧ w.lookup.resolvedType t = .ok type ∧
      type.category = .reference ∧ w.lookup.typeDeclaration t = some d ∧ w.lookup.declaration d = .error f := by
  have unnamed : ∀ q f, diagnostic? (q, f) = none ↔ q = .typeDeclaration := by
    intro q f
    cases q <;> simp [diagnostic?]
  constructor
  · intro h
    cases failure : (describe w e).failure with
    | none => simp [failsUnnamed, failure] at h
    | some qf =>
      obtain ⟨q, f⟩ := qf
      simp [failsUnnamed, diagnosticOf, failure, unnamed] at h
      subst h
      obtain ⟨k, label⟩ := e
      cases failure_eq_some_iff.mp failure with
      | typeDeclaration ht reference hd hf => exact ⟨_, _, _, _, rfl, ht, reference, hd, hf⟩
  · rintro ⟨t, type, d, f, hk, ht, reference, hd, hf⟩
    have fails : Fails w e.key .typeDeclaration f := hk ▸ .typeDeclaration ht reference hd hf
    simp [failsUnnamed, diagnosticOf, failure_eq_some_iff.mpr fails, diagnostic?]

theorem countP_failures (es : List Entity) :
    es.countP (fun e => (describe w e).failure.isSome) =
      es.countP (fun e => (diagnosticOf w e).isSome) + es.countP (failsUnnamed w) := by
  induction es with
  | nil => rfl
  | cons e es ih =>
    have here : (describe w e).failure = none → diagnosticOf w e = none := by
      intro none
      simp [diagnosticOf, none]
    rw [List.countP_cons, List.countP_cons, List.countP_cons, ih, failsUnnamed]
    cases failure : (describe w e).failure with
    | none => simp [here failure]
    | some qf => cases diagnosticOf w e <;> simp <;> omega

/-- The diagnostics of some entities. -/
def diagnoses (w : World) (es : List Entity) : List (Entity × String) :=
  es.filterMap fun e => (diagnosticOf w e).map fun name => (e, name)

theorem mem_diagnoses {es : List Entity} {e : Entity} {name : String} :
    (e, name) ∈ diagnoses w es ↔ e ∈ es ∧ diagnosticOf w e = some name := by
  simp [diagnoses]

theorem length_diagnoses (es : List Entity) :
    (diagnoses w es).length = es.countP fun e => (diagnosticOf w e).isSome := by
  simp [diagnoses, List.length_filterMap_eq_countP]

theorem nodup_diagnoses {es : List Entity} (nodup : es.Nodup) : (diagnoses w es).Nodup := by
  refine nodup.filterMap ?_
  intro e e' p hp hp'
  simp only [Option.mem_def, Option.map_eq_some_iff] at hp hp'
  obtain ⟨_, _, rfl⟩ := hp
  obtain ⟨_, _, same⟩ := hp'
  exact (congrArg Prod.fst same).symm

theorem ncard_setOf_mem {α : Type} [DecidableEq α] {l : List α} (nodup : l.Nodup) : {a | a ∈ l}.ncard = l.length := by
  rw [← List.coe_toFinset, Set.ncard_coe_finset, List.toFinset_card_of_nodup nodup]

/-- **Failures are recorded.** A discovery counts one failure for every diagnostic in the bags of its graph, and one more for
every reference type with a declaration that cannot be described. The bags of these have no diagnostic. -/
theorem failures_recorded (w : World) :
    let g := (discover w).graph
    let unnamed : Set Entity := {e | e ∈ g.entities ∧ ∃ t type d f, e.key = .type t ∧
      w.lookup.resolvedType t = .ok type ∧ type.category = .reference ∧ w.lookup.typeDeclaration t = some d ∧
      w.lookup.declaration d = .error f}
    (discover w).stats.failures =
        {p : Entity × String | p.2 ∈ diagnosticNames ∧ ∃ bag, (p.1, bag) ∈ g.nodes ∧ p.2 ∈ bag}.ncard +
          unnamed.ncard ∧
      ∀ e ∈ unnamed, ∀ bag, (e, bag) ∈ g.nodes → ∀ name ∈ diagnosticNames, name ∉ bag := by
  intro g unnamed
  have settled : Settled w (discover w) := settled_discover w
  have named_eq : {p : Entity × String | p.2 ∈ diagnosticNames ∧ ∃ bag, (p.1, bag) ∈ g.nodes ∧ p.2 ∈ bag} =
      {p | p ∈ diagnoses w g.entities} := by
    ext ⟨e, name⟩
    simp [g, settled.nodes, mem_diagnoses, diagnosticOf_eq_some_iff, and_left_comm]
  have unnamed_eq : unnamed = {e | e ∈ g.entities.filter (failsUnnamed w)} := by
    ext e
    simp [unnamed, failsUnnamed_iff]
  refine ⟨?count, ?silent⟩
  case count =>
    have failures : (discover w).stats.failures = g.entities.countP fun e => (describe w e).failure.isSome :=
      settled.account.tally.failures
    rw [named_eq, unnamed_eq, ncard_setOf_mem (nodup_diagnoses g.nodup_entities),
      ncard_setOf_mem (g.nodup_entities.filter _), length_diagnoses, ← List.countP_eq_length_filter, failures,
      countP_failures]
  case silent =>
    intro e he bag mem name diagnostic held
    rw [unnamed_eq] at he
    obtain ⟨_, rfl⟩ := settled.genuine_of_mem_nodes mem
    have named := diagnosticOf_eq_some_iff.mpr ⟨diagnostic, held⟩
    simp [failsUnnamed, named] at he

/-- The knot, when its type is declared by something that nobody can describe. -/
def adrift : World :=
  { knot with
    lookup :=
      { knot.lookup with
        declaration := fun d => if d = ⟨0⟩ then knot.lookup.declaration d else .error { kind := .other }
        typeDeclaration := fun _ => some ⟨1⟩ } }

theorem failures_recorded_adrift :
    0 < (discover adrift).stats.failures ∧
      ∃ bag, (typeEntity adrift ⟨0⟩, bag) ∈ (discover adrift).graph.nodes ∧ ∀ name ∈ diagnosticNames, name ∉ bag := by
  obtain ⟨n, node, resolvable⟩ := node?_knot
  have symbol : Reachable adrift (.symbol ⟨0⟩) := .step (.node node) (.resolved node resolvable rfl)
  have reachable : Reachable adrift (.type ⟨0⟩) := symbol.step (.returned rfl rfl rfl)
  have settled := settled_discover adrift
  obtain ⟨mem, _⟩ := get?_eq_some_iff.mp (settled.get?_of_reachable reachable)
  have known : typeEntity adrift ⟨0⟩ ∈ (discover adrift).graph.entities :=
    settled.mem_entities_iff.mpr (.of_key reachable)
  have unnamed : ∃ t type d f, (typeEntity adrift ⟨0⟩).key = .type t ∧ adrift.lookup.resolvedType t = .ok type ∧
      type.category = .reference ∧ adrift.lookup.typeDeclaration t = some d ∧
      adrift.lookup.declaration d = .error f := ⟨_, _, _, _, rfl, rfl, rfl, rfl, rfl⟩
  obtain ⟨count, silent⟩ := failures_recorded adrift
  refine ⟨?_, _, mem, silent _ ⟨known, unnamed⟩ _ mem⟩
  rw [count]
  refine Nat.add_pos_right _ ((Set.ncard_pos ?_).mpr ⟨_, known, unnamed⟩)
  exact (List.finite_toSet (discover adrift).graph.entities).sep _

end ProgramGraph.Discovery
