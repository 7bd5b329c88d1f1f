import ProgramGraph.Proofs.Program.Tables

/-!
# ProgramGraph.Proofs.Program.Recording

Tables that are filled call by call, and what they answer afterwards.

* `Recording`           — the calls; `Tables.recordAll` makes them one after another.
* `foldl_eq_getLast?`   — of several writes to one place the last one stays.
* `Recording.returned?`, `valued?`, `bound?` — what a call records for a return type, a value type and a node.
* `getElem?_recordAll`  — the record of a declaration comes from the calls after it was added, and from them alone.
* `Comes`               — what the outcomes recorded for a type come to: the last type, and without one the last failure.
* `recordings_answered` — the answers of the tables are those. `not_answered_by_last` — they need not be the last outcomes.
-/

namespace ProgramGraph.Program

/-- A call that records something. -/
inductive Recording where
  | addDeclaration (declaration : Declaration)
  | addType (type : ResolvedType) (declaration : Option DeclId)
  | bind (node : NodeRef) (outcome : Except LookupFailure DeclId)
  | setReturnType (d : DeclId) (outcome : Except LookupFailure TypeId)
  | setValueType (d : DeclId) (outcome : Except LookupFailure TypeId)

namespace Tables

def record (t : Tables) : Recording → Tables
  | .addDeclaration declaration => (t.addDeclaration declaration).1
  | .addType type declaration => (t.addType type declaration).1
  | .bind node outcome => t.bind node outcome
  | .setReturnType d outcome => t.setReturnType d outcome
  | .setValueType d outcome => t.setValueType d outcome

def recordAll (t : Tables) (calls : List Recording) : Tables :=
  calls.foldl record t

end Tables

/-- Of several writes to one place the last one stays. -/
theorem foldl_eq_getLast? {α β γ : Type} (get : α → Option γ) {written : β → Option γ} {step : α → β → α}
    (last : ∀ a b, get (step a b) = (written b).or (get a)) (a : α) (bs : List β) :
    get (bs.foldl step a) = (bs.filterMap written).getLast?.or (get a) := by
  induction bs generalizing a with
  | nil => rfl
  | cons b bs ih =>
    rw [List.foldl_cons, ih, last, List.filterMap_cons]
    cases written b with
    | none => rfl
    | some c => cases later : (bs.filterMap written).getLast? <;> simp [List.getLast?_cons, later]

/-! ## What a call records -/

def failure? {α : Type} : Except LookupFailure α → Option LookupFailure
  | .ok _ => none
  | .error f => some f

namespace Recording

def returned? (d : DeclId) : Recording → Option (Except LookupFailure TypeId)
  | .setReturnType d' outcome => if d' = d then some outcome else none
  | _ => none

def valued? (d : DeclId) : Recording → Option (Except LookupFailure TypeId)
  | .setValueType d' outcome => if d' = d then some outcome else none
  | _ => none

def bound? (node : NodeRef) : Recording → Option (Except LookupFailure DeclId)
  | .bind node' outcome => if node' = node then some outcome else none
  | _ => none

/-- What a call makes of the record of a declaration. -/
def change (d : DeclId) (r : DeclarationRecord) (call : Recording) : DeclarationRecord :=
  { r with
    returnType := ((call.returned? d).bind Except.toOption).or r.returnType
    returnTypeFailure := ((call.returned? d).bind failure?).or r.returnTypeFailure
    valueType := ((call.valued? d).bind Except.toOption).or r.valueType
    valueTypeFailure := ((call.valued? d).bind failure?).or r.valueTypeFailure }

end Recording

namespace Tables

variable {t : Tables} {d : DeclId}

theorem getElem?_modifyDeclaration {d' : DeclId} {change : DeclarationRecord → DeclarationRecord} :
    (t.modifyDeclaration d' change).declarations[d.index.toNat]? =
      t.declarations[d.index.toNat]?.map fun r => if d' = d then change r else r := by
  have same : d'.index.toNat = d.index.toNat ↔ d' = d := by
    rw [UInt32.toNat_inj]
    cases d
    cases d'
    simp
  rw [modifyDeclaration, Array.getElem?_modify]
  by_cases here : d' = d
  · simp [here]
  · simp [here, same]

theorem getElem?_record {r : DeclarationRecord} (known : t.declarations[d.index.toNat]? = some r) (call : Recording) :
    (t.record call).declarations[d.index.toNat]? = some (call.change d r) := by
  cases call with
  | addDeclaration declaration =>
    have inside := (Array.getElem?_eq_some_iff.mp known).1
    simp only [record, addDeclaration]
    rw [Array.getElem?_push_lt inside, ← Array.getElem?_eq_getElem inside, known]
    rfl
  | addType => exact known
  | bind => exact known
  | setReturnType d' outcome | setValueType d' outcome =>
    simp only [record, setReturnType, setValueType, getElem?_modifyDeclaration, known, Option.map_some,
      Recording.change, Recording.returned?, Recording.valued?]
    by_cases here : d' = d
    · cases outcome <;> simp [here, failure?, Except.toOption]
    · simp [here]

theorem getElem?_recordAll {r : DeclarationRecord} (known : t.declarations[d.index.toNat]? = some r)
    (calls : List Recording) :
    (t.recordAll calls).declarations[d.index.toNat]? = some (calls.foldl (Recording.change d) r) := by
  induction calls generalizing t r with
  | nil => exact known
  | cons call calls ih => exact ih (getElem?_record known call)

theorem recordAll_append (calls calls' : List Recording) :
    t.recordAll (calls ++ calls') = (t.recordAll calls).recordAll calls' :=
  List.foldl_append

theorem binding?_record (node : NodeRef) (call : Recording) :
    (t.record call).binding? node = (call.bound? node).or (t.binding? node) := by
  cases call with
  | bind node' outcome =>
    by_cases here : node' = node
    · simp [record, Tables.bind, binding?, Recording.bound?, here]
    · have other : (node == node') = false := by simpa using fun same : node = node' => here same.symm
      simp [record, Tables.bind, binding?, Recording.bound?, here, List.lookup_cons, other]
  | addDeclaration | addType | setReturnType | setValueType => rfl

end Tables

/-! ## Histories -/

namespace Recording

variable (d : DeclId) (r : DeclarationRecord) (calls : List Recording)

theorem declaration_foldl : (calls.foldl (change d) r).declaration = r.declaration := by
  induction calls generalizing r with
  | nil => rfl
  | cons call calls ih => exact ih (change d r call)

theorem returnType_foldl :
    (calls.foldl (change d) r).returnType =
      ((calls.filterMap (returned? d)).filterMap Except.toOption).getLast?.or r.returnType := by
  rw [List.filterMap_filterMap]
  exact foldl_eq_getLast? DeclarationRecord.returnType (fun _ _ => rfl) r calls

theorem returnTypeFailure_foldl :
    (calls.foldl (change d) r).returnTypeFailure =
      ((calls.filterMap (returned? d)).filterMap failure?).getLast?.or r.returnTypeFailure := by
  rw [List.filterMap_filterMap]
  exact foldl_eq_getLast? DeclarationRecord.returnTypeFailure (fun _ _ => rfl) r calls

theorem valueType_foldl :
    (calls.foldl (change d) r).valueType =
      ((calls.filterMap (valued? d)).filterMap Except.toOption).getLast?.or r.valueType := by
  rw [List.filterMap_filterMap]
  exact foldl_eq_getLast? DeclarationRecord.valueType (fun _ _ => rfl) r calls

theorem valueTypeFailure_foldl :
    (calls.foldl (change d) r).valueTypeFailure =
      ((calls.filterMap (valued? d)).filterMap failure?).getLast?.or r.valueTypeFailure := by
  rw [List.filterMap_filterMap]
  exact foldl_eq_getLast? DeclarationRecord.valueTypeFailure (fun _ _ => rfl) r calls

end Recording

/-- What the outcomes recorded for a type come to. A type counts even when failures were recorded after it. -/
inductive Comes (tables : Tables) (what name : String) (outcomes : List (Except LookupFailure TypeId)) :
    Except LookupFailure TypeId → Prop where
  | type {earlier later : List (Except LookupFailure TypeId)} {ty : TypeId} :
      outcomes = earlier ++ .ok ty :: later → (∀ o ∈ later, ∃ f, o = .error f) →
      ty.index.toNat < tables.types.size → Comes tables what name outcomes (.ok ty)
  | dangling {earlier later : List (Except LookupFailure TypeId)} {ty : TypeId} :
      outcomes = earlier ++ .ok ty :: later → (∀ o ∈ later, ∃ f, o = .error f) →
      tables.types.size ≤ ty.index.toNat →
      Comes tables what name outcomes (.error ⟨.other, s!"unknown type {ty.index.toNat}"⟩)
  | failure {earlier : List (Except LookupFailure TypeId)} {f : LookupFailure} :
      outcomes = earlier ++ [.error f] → (∀ o ∈ earlier, ∃ f', o = .error f') →
      Comes tables what name outcomes (.error f)
  | nothing : outcomes = [] →
      Comes tables what name outcomes (.error ⟨.unresolved, what ++ " of " ++ name ++ " is not recorded"⟩)

theorem exists_last {α β : Type} {f : α → Option β} {l : List α} {b : β}
    (last : (l.filterMap f).getLast? = some b) :
    ∃ before a after, l = before ++ a :: after ∧ f a = some b ∧ ∀ x ∈ after, f x = none := by
  rw [List.getLast?_filterMap, List.findSome?_eq_some_iff] at last
  obtain ⟨after, a, before, split, written, unwritten⟩ := last
  refine ⟨before.reverse, a, after.reverse, ?_, written, by simpa using unwritten⟩
  simpa using congrArg List.reverse split

theorem comes_typeOf (t : Tables) (name what : String) (outcomes : List (Except LookupFailure TypeId)) :
    Comes t what name outcomes
      (t.typeOf name what (outcomes.filterMap Except.toOption).getLast? (outcomes.filterMap failure?).getLast?) := by
  have failed : ∀ {o : Except LookupFailure TypeId}, o.toOption = none → ∃ f, o = .error f := by
    intro o none
    cases o with
    | ok ty => cases none
    | error f => exact ⟨f, rfl⟩
  cases types : (outcomes.filterMap Except.toOption).getLast? with
  | some ty =>
    -- behind the last type there are only failures, and these do not matter
    obtain ⟨before, o, after, split, here, later⟩ := exists_last types
    cases o with
    | error f => cases here
    | ok ty' =>
      cases here
      have failures : ∀ o ∈ after, ∃ f, o = .error f := fun o ho => failed (later o ho)
      by_cases inside : ty.index.toNat < t.types.size
      · simpa [Tables.typeOf, Tables.type?, inside, Except.map] using Comes.type split failures inside
      · simpa [Tables.typeOf, Tables.type?, inside, Except.map] using
          Comes.dangling split failures (Nat.le_of_not_lt inside)
  | none =>
    have failures : ∀ o ∈ outcomes, ∃ f, o = .error f := by
      rw [List.getLast?_eq_none_iff, List.filterMap_eq_nil_iff] at types
      exact fun o ho => failed (types o ho)
    rcases List.eq_nil_or_concat' outcomes with rfl | ⟨before, o, rfl⟩
    · exact .nothing rfl
    · obtain ⟨f, rfl⟩ := failures o (by simp)
      simpa [Tables.typeOf, failure?] using Comes.failure rfl fun o ho => failures o (List.mem_append_left _ ho)

/-! ## Answers -/

namespace Tables

variable {t : Tables} {d : DeclId}

theorem size_le_size_record (call : Recording) : t.declarations.size ≤ (t.record call).declarations.size := by
  cases call <;>
    simp [record, addDeclaration, addType, Tables.bind, setReturnType, setValueType, modifyDeclaration]

theorem size_le_size_recordAll (calls : List Recording) :
    t.declarations.size ≤ (t.recordAll calls).declarations.size := by
  induction calls generalizing t with
  | nil => exact Nat.le_refl _
  | cons call calls ih => exact Nat.le_trans (size_le_size_record call) ih

theorem getElem?_addDeclaration (declaration : Declaration) (few : t.declarations.size < UInt32.size) :
    (t.addDeclaration declaration).1.declarations[(t.addDeclaration declaration).2.index.toNat]? =
      some { declaration := declaration } := by
  have index : (UInt32.ofNat t.declarations.size).toNat = t.declarations.size := UInt32.toNat_ofNat_of_lt few
  simp only [addDeclaration, index]
  simp

/-- A question that a change does not touch has the same answer after it. -/
theorem bind_modifyDeclaration {α : Type} (ask : DeclarationRecord → Except LookupFailure α) {d' : DeclId}
    {change : DeclarationRecord → DeclarationRecord} (same : d' = d → ∀ r, ask (change r) = ask r) :
    ((t.modifyDeclaration d change).declaration? d').bind ask = (t.declaration? d').bind ask := by
  rw [declaration?, declaration?, getElem?_modifyDeclaration]
  cases t.declarations[d'.index.toNat]? with
  | none => rfl
  | some r =>
    by_cases here : d' = d
    · simp [here, Except.bind, same here]
    · have other : ¬ d = d' := fun same => here same.symm
      simp [other]

/-- Recording a return type changes the answer to one question at most. -/
theorem lookup_setReturnType (d : DeclId) (outcome : Except LookupFailure TypeId) :
    (t.setReturnType d outcome).lookup =
      { t.lookup with
        returnType := fun d' =>
          if d' = d then (t.setReturnType d outcome).lookup.returnType d' else t.lookup.returnType d' } := by
  have declaration : (t.setReturnType d outcome).lookup.declaration = t.lookup.declaration := by
    funext d'
    refine bind_modifyDeclaration (fun r => .ok r.declaration) fun _ r => ?_
    cases outcome <;> rfl
  have valueType : (t.setReturnType d outcome).lookup.valueType = t.lookup.valueType := by
    funext d'
    refine bind_modifyDeclaration
      (fun r => t.typeOf r.declaration.name "value type" r.valueType r.valueTypeFailure) fun _ r => ?_
    cases outcome <;> rfl
  have returnType : ∀ d', (t.setReturnType d outcome).lookup.returnType d' =
      if d' = d then (t.setReturnType d outcome).lookup.returnType d' else t.lookup.returnType d' := by
    intro d'
    split
    · rfl
    · exact bind_modifyDeclaration
        (fun r => t.typeOf r.declaration.name "return type" r.returnType r.returnTypeFailure)
        fun same => absurd same ‹_›
  exact (Lookup.mk.injEq ..).mpr ⟨rfl, declaration, funext returnType, valueType, rfl, rfl⟩

theorem lookup_setValueType (d : DeclId) (outcome : Except LookupFailure TypeId) :
    (t.setValueType d outcome).lookup =
      { t.lookup with
        valueType := fun d' =>
          if d' = d then (t.setValueType d outcome).lookup.valueType d' else t.lookup.valueType d' } := by
  have declaration : (t.setValueType d outcome).lookup.declaration = t.lookup.declaration := by
    funext d'
    refine bind_modifyDeclaration (fun r => .ok r.declaration) fun _ r => ?_
    cases outcome <;> rfl
  have returnType : (t.setValueType d outcome).lookup.returnType = t.lookup.returnType := by
    funext d'
    refine bind_modifyDeclaration
      (fun r => t.typeOf r.declaration.name "return type" r.returnType r.returnTypeFailure) fun _ r => ?_
    cases outcome <;> rfl
  have valueType : ∀ d', (t.setValueType d outcome).lookup.valueType d' =
      if d' = d then (t.setValueType d outcome).lookup.valueType d' else t.lookup.valueType d' := by
    intro d'
    split
    · rfl
    · exact bind_modifyDeclaration
        (fun r => t.typeOf r.declaration.name "value type" r.valueType r.valueTypeFailure)
        fun same => absurd same ‹_›
  exact (Lookup.mk.injEq ..).mpr ⟨rfl, declaration, returnType, funext valueType, rfl, rfl⟩

theorem answers_recordAll {declaration : Declaration} (known : t.declarations[d.index.toNat]? = some { declaration })
    (calls : List Recording) :
    (t.recordAll calls).lookup.declaration d = .ok declaration ∧
      Comes (t.recordAll calls) "return type" declaration.name (calls.filterMap (Recording.returned? d))
        ((t.recordAll calls).lookup.returnType d) ∧
      Comes (t.recordAll calls) "value type" declaration.name (calls.filterMap (Recording.valued? d))
        ((t.recordAll calls).lookup.valueType d) := by
  have after := getElem?_recordAll known calls
  have here : (calls.foldl (Recording.change d) { declaration }).declaration = declaration :=
    Recording.declaration_foldl d _ calls
  refine ⟨?declared, ?returned, ?valued⟩
  case declared => rw [declaration_of_getElem? after, here]
  case returned =>
    rw [returnType_of_getElem? after, here, Recording.returnType_foldl, Recording.returnTypeFailure_foldl,
      Option.or_none, Option.or_none]
    exact comes_typeOf _ _ _ _
  case valued =>
    rw [valueType_of_getElem? after, here, Recording.valueType_foldl, Recording.valueTypeFailure_foldl,
      Option.or_none, Option.or_none]
    exact comes_typeOf _ _ _ _

end Tables

/-- **What recorded answers come to.** A node resolves to the outcome that was bound last. The types of a declaration come
from the outcomes recorded for them since it was added: the last type, if it is in the table of types; a failure only where
there is no type. Recording one type of one declaration changes no other answer. -/
theorem recordings_answered (calls : List Recording)
    (few : (({} : Tables).recordAll calls).declarations.size ≤ UInt32.size) :
    let tables := ({} : Tables).recordAll calls
    (∀ node, tables.lookup.resolve node =
        (calls.filterMap (Recording.bound? node)).getLast?.getD
          (.error ⟨.unresolved, "no binding for " ++ node.display⟩)) ∧
      (∀ before declaration after, calls = before ++ .addDeclaration declaration :: after →
        let d := ((({} : Tables).recordAll before).addDeclaration declaration).2
        tables.lookup.declaration d = .ok declaration ∧
          Comes tables "return type" declaration.name (after.filterMap (Recording.returned? d))
            (tables.lookup.returnType d) ∧
          Comes tables "value type" declaration.name (after.filterMap (Recording.valued? d))
            (tables.lookup.valueType d)) ∧
      (∀ d outcome, (tables.setReturnType d outcome).lookup =
        { tables.lookup with
          returnType := fun d' =>
            if d' = d then (tables.setReturnType d outcome).lookup.returnType d' else tables.lookup.returnType d' }) ∧
      ∀ d outcome, (tables.setValueType d outcome).lookup =
        { tables.lookup with
          valueType := fun d' =>
            if d' = d then (tables.setValueType d outcome).lookup.valueType d' else tables.lookup.valueType d' } := by
  intro tables
  refine ⟨?resolved, ?typed, Tables.lookup_setReturnType, Tables.lookup_setValueType⟩
  case resolved =>
    intro node
    have last : tables.binding? node = (calls.filterMap (Recording.bound? node)).getLast?.or none :=
      foldl_eq_getLast? (fun t : Tables => t.binding? node) (fun _ call => Tables.binding?_record node call) {} calls
    rw [Option.or_none] at last
    rw [← last]
    rfl
  case typed =>
    rintro before declaration after rfl d
    -- the declaration was added while there were handles left, so its handle is its place
    have size : (({} : Tables).recordAll before).declarations.size < UInt32.size := by
      rw [Tables.recordAll_append] at few
      have added : ((({} : Tables).recordAll before).record (.addDeclaration declaration)).declarations.size =
          (({} : Tables).recordAll before).declarations.size + 1 := Array.size_push _
      have later : ((({} : Tables).recordAll before).record (.addDeclaration declaration)).declarations.size ≤
          ((({} : Tables).recordAll before).recordAll (.addDeclaration declaration :: after)).declarations.size :=
        Tables.size_le_size_recordAll after
      omega
    have answers := Tables.answers_recordAll (Tables.getElem?_addDeclaration declaration size) after
    have whole : tables = (({} : Tables).recordAll before).recordAll (.addDeclaration declaration :: after) :=
      Tables.recordAll_append before _
    rw [whole]
    exact answers

/-- A type of a method, and then a failure. -/
def overwritten : List Recording :=
  [.addType { description := "int", category := .primitive } none, .addDeclaration { name := "x", category := .method },
    .setReturnType ⟨0⟩ (.ok ⟨0⟩), .setReturnType ⟨0⟩ (.error ⟨.unresolved, "m"⟩)]

theorem recordings_answered_overwritten :
    (({} : Tables).recordAll overwritten).declarations.size ≤ UInt32.size ∧
      Comes (({} : Tables).recordAll overwritten) "return type" "x" [.ok ⟨0⟩, .error ⟨.unresolved, "m"⟩]
        ((({} : Tables).recordAll overwritten).lookup.returnType ⟨0⟩) := by
  obtain ⟨_, typed, _⟩ := recordings_answered overwritten (by decide)
  obtain ⟨_, returned, _⟩ := typed [_] _ _ rfl
  exact ⟨by decide, returned⟩

/-- What was recorded last is not always the answer: a failure does not replace a type. -/
theorem not_answered_by_last :
    ¬ ∀ calls : List Recording, (({} : Tables).recordAll calls).declarations.size < UInt32.size →
      ∀ before declaration after, calls = before ++ .addDeclaration declaration :: after →
        let d := ((({} : Tables).recordAll before).addDeclaration declaration).2
        ∀ f, (after.filterMap (Recording.returned? d)).getLast? = some (.error f) →
          (({} : Tables).recordAll calls).lookup.returnType d = .error f := by
  intro last
  have failure := last overwritten (by decide) [_] _ _ rfl ⟨.unresolved, "m"⟩ rfl
  cases failure

end ProgramGraph.Program
