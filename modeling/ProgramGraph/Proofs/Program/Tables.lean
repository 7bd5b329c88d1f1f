import Mathlib.Data.Finset.Card
import ProgramGraph.Program.Tables

/-!
# ProgramGraph.Proofs.Program.Tables

Where the answers of recorded tables come from.

* `namedDeclarations` — the declarations that types and bindings name, each once, in the table of declarations or not.
* What a node resolves to and what a type is declared by are among them.
* `returnType_eq_ok_iff`, `valueType_eq_ok_iff` — a type that is given as an answer is recorded for the declaration and is in
  the table of types: a dangling handle is a failure.
* `resolve_ofRecords`   — the last binding of a node counts.
-/

namespace ProgramGraph.Program

/-- The declarations that types and bindings name. -/
def namedDeclarations (types : List TypeRecord) (bindings : List BindingRecord) : Finset DeclId :=
  (bindings.filterMap BindingRecord.declaration ++ types.filterMap TypeRecord.declaration).toFinset

theorem mem_namedDeclarations {types : List TypeRecord} {bindings : List BindingRecord} {d : DeclId} :
    d ∈ namedDeclarations types bindings ↔
      (∃ b ∈ bindings, b.declaration = some d) ∨ ∃ r ∈ types, r.declaration = some d := by
  simp [namedDeclarations]

theorem BindingRecord.declaration_of_outcome {b : BindingRecord} {d : DeclId} (h : b.outcome = .ok d) :
    b.declaration = some d := by
  rw [outcome] at h
  split at h
  · cases h
    assumption
  · cases h
  · cases h

namespace Tables

variable {t : Tables} {d : DeclId} {ty : TypeId}

theorem declaration?_eq_ok_iff {r : DeclarationRecord} :
    t.declaration? d = .ok r ↔ t.declarations[d.index.toNat]? = some r := by
  rw [declaration?]
  cases t.declarations[d.index.toNat]? <;> simp

theorem typeOf_eq_ok_iff {name what : String} {found : Option TypeId} {failure : Option LookupFailure} :
    t.typeOf name what found failure = .ok ty ↔ found = some ty ∧ ∃ row, t.types[ty.index.toNat]? = some row := by
  cases found with
  | none => cases failure <;> simp [typeOf]
  | some ty' =>
    rw [typeOf, type?, Option.some.injEq]
    constructor
    · intro h
      cases known : t.types[ty'.index.toNat]? with
      | none => simp [known, Except.map] at h
      | some row =>
        obtain rfl : ty' = ty := by simpa [known, Except.map] using h
        exact ⟨rfl, row, known⟩
    · rintro ⟨rfl, row, known⟩
      simp [known, Except.map]

/-- The types of declarations are looked up in one way; only the fields differ. -/
theorem bind_typeOf_eq_ok_iff {what : String} {found : DeclarationRecord → Option TypeId}
    {failure : DeclarationRecord → Option LookupFailure} :
    ((t.declaration? d).bind fun r => t.typeOf r.declaration.name what (found r) (failure r)) = .ok ty ↔
      ∃ r row, t.declarations[d.index.toNat]? = some r ∧ found r = some ty ∧
        t.types[ty.index.toNat]? = some row := by
  rw [declaration?]
  cases t.declarations[d.index.toNat]? <;> simp [Except.bind, typeOf_eq_ok_iff]

theorem returnType_eq_ok_iff :
    t.lookup.returnType d = .ok ty ↔ ∃ r row, t.declarations[d.index.toNat]? = some r ∧ r.returnType = some ty ∧
      t.types[ty.index.toNat]? = some row :=
  bind_typeOf_eq_ok_iff

theorem valueType_eq_ok_iff :
    t.lookup.valueType d = .ok ty ↔ ∃ r row, t.declarations[d.index.toNat]? = some r ∧ r.valueType = some ty ∧
      t.types[ty.index.toNat]? = some row :=
  bind_typeOf_eq_ok_iff

theorem lt_size_of_returnType (h : t.lookup.returnType d = .ok ty) : ty.index.toNat < t.types.size := by
  obtain ⟨_, _, _, _, known⟩ := returnType_eq_ok_iff.mp h
  exact (Array.getElem?_eq_some_iff.mp known).1

theorem lt_size_of_valueType (h : t.lookup.valueType d = .ok ty) : ty.index.toNat < t.types.size := by
  obtain ⟨_, _, _, _, known⟩ := valueType_eq_ok_iff.mp h
  exact (Array.getElem?_eq_some_iff.mp known).1

theorem resolvedType_of_getElem? {row : TypeRecord} (known : t.types[ty.index.toNat]? = some row) :
    t.lookup.resolvedType ty = .ok row.type := by
  simp [lookup, type?, known, Except.map]

theorem declaration_of_getElem? {r : DeclarationRecord} (known : t.declarations[d.index.toNat]? = some r) :
    t.lookup.declaration d = .ok r.declaration := by
  simp [lookup, declaration?, known, Except.map]

theorem returnType_of_getElem? {r : DeclarationRecord} (known : t.declarations[d.index.toNat]? = some r) :
    t.lookup.returnType d = t.typeOf r.declaration.name "return type" r.returnType r.returnTypeFailure := by
  simp only [lookup, declaration?_eq_ok_iff.mpr known]
  rfl

theorem valueType_of_getElem? {r : DeclarationRecord} (known : t.declarations[d.index.toNat]? = some r) :
    t.lookup.valueType d = t.typeOf r.declaration.name "value type" r.valueType r.valueTypeFailure := by
  simp only [lookup, declaration?_eq_ok_iff.mpr known]
  rfl

variable {declarations : List DeclarationRecord} {types : List TypeRecord} {bindings : List BindingRecord}

/-- The last record for a node gives its outcome. -/
theorem binding?_ofRecords (node : NodeRef) :
    (ofRecords declarations types bindings).binding? node =
      (bindings.filter fun b => b.ref = node).getLast?.map BindingRecord.outcome := by
  have latest : (bindings.map fun b => (b.ref, b.outcome)).reverse = bindings.reverse.map fun b => (b.ref, b.outcome) :=
    List.map_reverse.symm
  rw [binding?, ofRecords, latest, List.getLast?_filter]
  induction bindings.reverse with
  | nil => rfl
  | cons b bs ih =>
    rw [List.map_cons, List.lookup_cons, List.find?_cons, ih]
    by_cases here : b.ref = node
    · simp [here]
    · have other : (node == b.ref) = false := by simpa using fun same : node = b.ref => here same.symm
      simp [here, other]

theorem resolve_ofRecords (node : NodeRef) :
    (ofRecords declarations types bindings).lookup.resolve node =
      ((bindings.filter fun b => b.ref = node).getLast?.map BindingRecord.outcome).getD
        (.error ⟨.unresolved, "no binding for " ++ node.display⟩) := by
  rw [← binding?_ofRecords]
  rfl

theorem mem_namedDeclarations_of_resolve {ref : NodeRef}
    (h : (ofRecords declarations types bindings).lookup.resolve ref = .ok d) :
    d ∈ namedDeclarations types bindings := by
  rw [resolve_ofRecords] at h
  cases last : (bindings.filter fun b => b.ref = ref).getLast? with
  | none => simp [last] at h
  | some b =>
    have outcome : b.outcome = .ok d := by simpa [last] using h
    have mem := List.mem_of_mem_filter (List.mem_of_getLast? last)
    exact mem_namedDeclarations.mpr (.inl ⟨b, mem, BindingRecord.declaration_of_outcome outcome⟩)

theorem mem_namedDeclarations_of_typeDeclaration
    (h : (ofRecords declarations types bindings).lookup.typeDeclaration ty = some d) :
    d ∈ namedDeclarations types bindings := by
  simp only [lookup, ofRecords, List.getElem?_toArray, Option.bind_eq_some_iff] at h
  obtain ⟨r, hr, hd⟩ := h
  exact mem_namedDeclarations.mpr (.inr ⟨r, List.mem_of_getElem? hr, hd⟩)

end Tables
end ProgramGraph.Program
