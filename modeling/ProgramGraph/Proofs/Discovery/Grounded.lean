import ProgramGraph.Proofs.Discovery.Agreement
import ProgramGraph.Proofs.Discovery.Size

/-!
# ProgramGraph.Proofs.Discovery.Grounded

What recorded tables say ends up in the graph, and nothing that they do not say.

* `Binds`           — what the recorded bindings say about a node, the last one for it before all others.
* `resolve_eq_iff`  — that is what the node resolves to.
* `ShowsRecorded`   — a type that is shown is the recorded one, with the recorded description.
* `tables_grounded` — every type that is reached is recorded, and so are the descriptions and the labels of types. Only
  declarations may be missing, and their symbols say so.
-/

namespace ProgramGraph

open Program ProgramGraph.Graph

namespace Program

/-- What recorded bindings say about a node. -/
inductive Binds (bindings : List BindingRecord) (node : NodeRef) : Except LookupFailure DeclId → Prop where
  | declared {b : BindingRecord} {d : DeclId} : (bindings.filter fun b => b.ref = node).getLast? = some b →
      b.declaration = some d → Binds bindings node (.ok d)
  | failed {b : BindingRecord} {f : LookupFailure} : (bindings.filter fun b => b.ref = node).getLast? = some b →
      b.declaration = none → b.failure = some f → Binds bindings node (.error f)
  | empty {b : BindingRecord} : (bindings.filter fun b => b.ref = node).getLast? = some b → b.declaration = none →
      b.failure = none →
      Binds bindings node (.error ⟨.unresolved, "binding for " ++ node.display ++ " names no declaration"⟩)
  | absent : (∀ b ∈ bindings, b.ref ≠ node) →
      Binds bindings node (.error ⟨.unresolved, "no binding for " ++ node.display⟩)

variable {declarations : List DeclarationRecord} {types : List TypeRecord} {bindings : List BindingRecord}
  {node : NodeRef}

theorem ref_of_getLast? {b : BindingRecord} (last : (bindings.filter fun b => b.ref = node).getLast? = some b) :
    b.ref = node := by
  have mem := List.mem_of_getLast? last
  simpa using (List.mem_filter.mp mem).2

theorem resolve_eq_iff {outcome : Except LookupFailure DeclId} :
    (Tables.ofRecords declarations types bindings).lookup.resolve node = outcome ↔ Binds bindings node outcome := by
  rw [Tables.resolve_ofRecords]
  constructor
  · rintro rfl
    cases last : (bindings.filter fun b => b.ref = node).getLast? with
    | none =>
      refine .absent fun b hb same => ?_
      have none_left := List.getLast?_eq_none_iff.mp last
      exact absurd (decide_eq_true same) (List.filter_eq_nil_iff.mp none_left b hb)
    | some b =>
      have here := ref_of_getLast? last
      cases hd : b.declaration with
      | some d => simpa [BindingRecord.outcome, hd] using Binds.declared last hd
      | none =>
        cases hf : b.failure with
        | some f => simpa [BindingRecord.outcome, hd, hf] using Binds.failed last hd hf
        | none => simpa [BindingRecord.outcome, hd, hf, here] using Binds.empty last hd hf
  · intro h
    cases h with
    | declared last hd => simp [last, BindingRecord.outcome, hd]
    | failed last hd hf => simp [last, BindingRecord.outcome, hd, hf]
    | empty last hd hf => simp [last, BindingRecord.outcome, hd, hf, ref_of_getLast? last]
    | absent none_left =>
      have empty : bindings.filter (fun b => b.ref = node) = [] := by simpa [List.filter_eq_nil_iff] using none_left
      simp [empty]

end Program

namespace Discovery

variable {w : World}

theorem Tells.exists_symbol {k : EntityKey} {name : String} (h : Tells w k name)
    (due : name ∈ ["returnType", "valueType"]) : ∃ d, k = .symbol d := by
  cases h with
  | node _ here | begins _ _ here | file _ _ here | unresolved _ _ _ here | typed _ here =>
    simp only [List.mem_cons, List.not_mem_nil, or_false] at here due
    rcases here with rfl | rfl | rfl | rfl | rfl | rfl | rfl | rfl | rfl <;> simp at due
  | hashed | resolved | untyped => simp at due
  | undeclared | declared | returned | unreturned | valued | ambiguous | unvalued | reference => exact ⟨_, rfl⟩

theorem Tells.exists_untyped {k : EntityKey} (h : Tells w k "typeError") :
    ∃ t f, k = .type t ∧ w.lookup.resolvedType t = .error f := by
  generalize name_eq : "typeError" = name at h
  cases h with
  | untyped hf => exact ⟨_, _, rfl, hf⟩
  | node _ here | begins _ _ here | file _ _ here | unresolved _ _ _ here | declared _ here | reference _ _ here
  | typed _ here => subst name_eq; simp at here
  | _ => simp at name_eq

theorem Tells.exists_undeclared {d : DeclId} (h : Tells w (.symbol d) "declarationError") :
    ∃ f, w.lookup.declaration d = .error f := by
  generalize name_eq : "declarationError" = name at h
  cases h with
  | undeclared hf => exact ⟨_, hf⟩
  | declared _ here | reference _ _ here => subst name_eq; simp at here
  | _ => simp at name_eq

/-! ## Recorded tables -/

/-- What is shown under a name is the recorded description of the type that the record of the symbol has in a field. -/
def ShowsRecorded (tables : Tables) (name : String) (field : DeclarationRecord → Option TypeId) (e : Entity)
    (bag : Bag) : Prop :=
  ∀ value, bag[name]? = some value → ∃ d r t row, e.key = .symbol d ∧ tables.declarations[d.index.toNat]? = some r ∧
    field r = some t ∧ tables.types[t.index.toNat]? = some row ∧ value = .text row.type.description

section

variable {units : Units} {tables : Tables} {options : Options}

theorem showsRecorded {name : String} {field : DeclarationRecord → Option TypeId}
    (due : name ∈ ["returnType", "valueType"])
    (recorded : ∀ d, Tells ⟨units, tables.lookup, options⟩ (.symbol d) name →
      ∃ r t row, tables.declarations[d.index.toNat]? = some r ∧ field r = some t ∧
        tables.types[t.index.toNat]? = some row ∧
        ∀ symbol, (describeSymbol ⟨units, tables.lookup, options⟩ symbol d).bag[name]? =
          some (.text (typeDescription ⟨units, tables.lookup, options⟩ t)))
    (e : Entity) : ShowsRecorded tables name field e (describe ⟨units, tables.lookup, options⟩ e).bag := by
  intro value shown
  have told := mem_bag_iff.mp (Std.ExtTreeMap.mem_iff_isSome_getElem?.mpr (Option.isSome_of_eq_some shown))
  obtain ⟨d, key⟩ := told.exists_symbol due
  obtain ⟨k, label⟩ := e
  subst key
  obtain ⟨r, t, row, hr, ht, hrow, bag⟩ := recorded d told
  have description : typeDescription ⟨units, tables.lookup, options⟩ t = row.type.description := by
    rw [typeDescription]
    simp only [Tables.resolvedType_of_getElem? hrow]
  have text := shown.symm.trans (bag _)
  rw [description, Option.some.injEq] at text
  exact ⟨d, r, t, row, rfl, hr, ht, hrow, text⟩

theorem showsRecorded_returnType (e : Entity) :
    ShowsRecorded tables "returnType" DeclarationRecord.returnType e
      (describe ⟨units, tables.lookup, options⟩ e).bag := by
  refine showsRecorded (by simp) (fun d told => ?_) e
  obtain ⟨declaration, t, returned⟩ := told.exists_returned
  obtain ⟨r, row, hr, ht, hrow⟩ := Tables.returnType_eq_ok_iff.mp returned.answer
  exact ⟨r, t, row, hr, ht, hrow, returned.bag⟩

theorem showsRecorded_valueType (e : Entity) :
    ShowsRecorded tables "valueType" DeclarationRecord.valueType e
      (describe ⟨units, tables.lookup, options⟩ e).bag := by
  refine showsRecorded (by simp) (fun d told => ?_) e
  obtain ⟨declaration, t, valued⟩ := told.exists_valued
  obtain ⟨r, row, hr, ht, hrow⟩ := Tables.valueType_eq_ok_iff.mp valued.answer
  exact ⟨r, t, row, hr, ht, hrow, valued.bag⟩

variable {declarations : List DeclarationRecord} {types : List TypeRecord} {bindings : List BindingRecord}

theorem exists_row_of_reachable {t : TypeId}
    (h : Reachable ⟨units, (Tables.ofRecords declarations types bindings).lookup, options⟩ (.type t)) :
    ∃ row, types[t.index.toNat]? = some row ∧
      (Tables.ofRecords declarations types bindings).lookup.resolvedType t = .ok row.type := by
  have inside := lt_length_of_reachable h
  have known : (Tables.ofRecords declarations types bindings).types[t.index.toNat]? = some types[t.index.toNat] := by
    simp [Tables.ofRecords, inside]
  exact ⟨_, List.getElem?_eq_getElem inside, Tables.resolvedType_of_getElem? known⟩

theorem exists_declaration_error_iff {d : DeclId} :
    (∃ f, (Tables.ofRecords declarations types bindings).lookup.declaration d = .error f) ↔
      declarations.length ≤ d.index.toNat := by
  rw [← List.getElem?_eq_none_iff]
  cases known : declarations[d.index.toNat]? <;>
    simp [Tables.lookup, Tables.declaration?, Tables.ofRecords, known, Except.map]

end

/-- **Recorded tables never yield a dangling type.** A node resolves to what its last binding says, and a type that is given
as an answer is recorded. So no entity of a discovered graph lacks its type; the types shown by symbols have the
descriptions that are recorded for them, and types have the labels of the recorded categories, at the ends of
relationships too. A symbol says that its declaration cannot be described just when its handle is beyond the
declarations. -/
theorem tables_grounded (units : Units) (declarations : List DeclarationRecord) (types : List TypeRecord)
    (bindings : List BindingRecord) (options : Options) :
    let tables := Tables.ofRecords declarations types bindings
    let lookup := tables.lookup
    let g := (discover ⟨units, lookup, options⟩).graph
    (∀ node outcome, lookup.resolve node = outcome ↔ Binds bindings node outcome) ∧
      (∀ d t, lookup.returnType d = .ok t ∨ lookup.valueType d = .ok t →
        ∃ type, lookup.resolvedType t = .ok type) ∧
      (∀ r bag, (r, bag) ∈ g.relationships → r.source ∈ g.entities ∧ r.target ∈ g.entities) ∧
      ∀ e, ∀ bag : Bag, (e, bag) ∈ g.nodes →
        "typeError" ∉ bag ∧
          ShowsRecorded tables "returnType" DeclarationRecord.returnType e bag ∧
          ShowsRecorded tables "valueType" DeclarationRecord.valueType e bag ∧
          (∀ t, e.key = .type t →
            ∃ row, types[t.index.toNat]? = some row ∧ e.label = row.type.category.label) ∧
          ∀ d, e.key = .symbol d → ("declarationError" ∈ bag ↔ declarations.length ≤ d.index.toNat) := by
  intro tables lookup g
  have settled : Settled ⟨units, lookup, options⟩ (discover ⟨units, lookup, options⟩) := settled_discover _
  refine ⟨fun node outcome => resolve_eq_iff, ?answers, fun r bag mem => settled.ends mem, fun e bag mem => ?_⟩
  case answers =>
    rintro d t (answer | answer)
    · obtain ⟨_, _, _, _, known⟩ := Tables.returnType_eq_ok_iff.mp answer
      exact ⟨_, Tables.resolvedType_of_getElem? known⟩
    · obtain ⟨_, _, _, _, known⟩ := Tables.valueType_eq_ok_iff.mp answer
      exact ⟨_, Tables.resolvedType_of_getElem? known⟩
  obtain ⟨known, rfl⟩ := settled.genuine_of_mem_nodes mem
  refine ⟨?typed, showsRecorded_returnType e, showsRecorded_valueType e, ?labels, ?declared⟩
  case typed =>
    intro held
    obtain ⟨t, f, key, hf⟩ := (mem_bag_iff.mp held).exists_untyped
    obtain ⟨row, _, ht⟩ := exists_row_of_reachable (key ▸ known.reachable)
    cases hf.symm.trans ht
  case labels =>
    intro t key
    obtain ⟨row, hrow, ht⟩ := exists_row_of_reachable (key ▸ known.reachable)
    refine ⟨row, hrow, ?_⟩
    rw [known.canonical, key, World.entity, typeEntity]
    simp only [lookup, tables, ht, Entity.ofType]
  case declared =>
    intro d key
    rw [mem_bag_iff, key, ← exists_declaration_error_iff]
    constructor
    · exact Tells.exists_undeclared
    · rintro ⟨f, hf⟩
      exact .undeclared hf

/-- The units of the knot with recorded tables; the type is declared by something that is not recorded. -/
def ledger : World where
  units := knot.units
  lookup := (Tables.ofRecords
    [{ declaration := { name := "self", category := .method }, returnType := some ⟨0⟩ }]
    [{ type := { description := "Self", category := .reference }, declaration := some ⟨1⟩ }]
    [{ unit := 0, node := 1 }, { unit := 0, node := 1, declaration := some ⟨0⟩ }]).lookup

theorem tables_grounded_ledger :
    ledger.lookup.resolve ⟨0, 1⟩ = .ok ⟨0⟩ ∧
      (∃ e bag, (e, bag) ∈ (discover ledger).graph.nodes ∧ bag["returnType"]? = some (.text "Self")) ∧
      ∃ e bag, (e, bag) ∈ (discover ledger).graph.nodes ∧ "declarationError" ∈ bag := by
  obtain ⟨n, node, resolvable⟩ := node?_knot
  have resolved : ledger.lookup.resolve ⟨0, 1⟩ = .ok ⟨0⟩ := rfl
  have symbol : Reachable ledger (.symbol ⟨0⟩) := .step (.node node) (.resolved node resolvable resolved)
  have type : Reachable ledger (.type ⟨0⟩) := symbol.step (.returned rfl rfl rfl)
  have missing : Reachable ledger (.symbol ⟨1⟩) := type.step (.declared rfl rfl rfl)
  have settled := settled_discover ledger
  obtain ⟨shows, _⟩ := get?_eq_some_iff.mp (settled.get?_of_reachable symbol)
  obtain ⟨lacks, _⟩ := get?_eq_some_iff.mp (settled.get?_of_reachable missing)
  have returned : Returned ledger ⟨0⟩ { name := "self", category := .method } ⟨0⟩ := ⟨rfl, rfl, rfl⟩
  obtain ⟨_, _, _, recorded⟩ := tables_grounded knot.units
    [{ declaration := { name := "self", category := .method }, returnType := some ⟨0⟩ }]
    [{ type := { description := "Self", category := .reference }, declaration := some ⟨1⟩ }]
    [{ unit := 0, node := 1 }, { unit := 0, node := 1, declaration := some ⟨0⟩ }] {}
  obtain ⟨_, _, _, _, undeclared⟩ := recorded _ _ lacks
  exact ⟨resolved, ⟨_, _, shows, returned.bag _⟩, _, _, lacks, (undeclared ⟨1⟩ rfl).mpr (by decide)⟩

end Discovery
end ProgramGraph
