import Mathlib.Data.List.Nodup
import Mathlib.Logic.Relation
import ProgramGraph.Proofs.Json.Fields
import ProgramGraph.Proofs.Number.Binary64

/-!
# ProgramGraph.Proofs.Json.Rearrangement

The same value with its members in another order and with members that nobody asks for.

* `Shape`    — where the records of a value stand, and which members they have.
* `Step`     — the members of one object, however deep, in another order, or one more scalar under a new unknown name in
  one record.
* `Distinct` — the members of each object have different names. It survives a step.
* `Step.skip`, `Step.vet` — and so does whether a value can be skipped or vetted.
* `Step.others` — among some of the members only, it is still a step.
-/

namespace ProgramGraph.Json

/-- What a value is to be read as, as far as its records are concerned. -/
inductive Shape where
  /-- There are no records in it. -/
  | any
  | list (item : Shape)
  /-- An object with any names. -/
  | map (value : Shape)
  /-- A record with its fields in the order of its list form. -/
  | record (fields : List (String × Shape))

namespace Shape

def item : Shape → Nat → Shape
  | .list s, _ => s
  | .record fields, i => (fields[i]?.map Prod.snd).getD .any
  | _, _ => .any

def member : Shape → Option String → Shape
  | .map s, _ => s
  | .record fields, some name => (fields.lookup name).getD .any
  | _, _ => .any

end Shape

namespace Outline

/-- Integers of 64 bits with a sign, texts, truth values and `null`. -/
inductive IsScalar : Outline → Prop where
  | null : IsScalar .null
  | bool (b : Bool) : IsScalar (.bool b)
  | text (s : String) : IsScalar (.string (some s))
  | int {negative : Bool} {digits : Nat}
      (fits : digits < Numeral.signedLimit ∨ negative = true ∧ digits = Numeral.signedLimit) :
      IsScalar (.number ⟨negative, digits, 0, true⟩)

/-- The first value is the second one or contains it. -/
inductive Contains : Outline → Outline → Prop where
  | self {o : Outline} : Contains o o
  | item {items : List Outline} {ending : Ending} {item o : Outline} (mem : item ∈ items) (h : Contains item o) :
      Contains (.array items ending) o
  | member {members : List (Option String × Outline)} {ending : Ending} {m : Option String × Outline} {o : Outline}
      (mem : m ∈ members) (h : Contains m.2 o) : Contains (.object members ending) o

/-- The members of each object have different names. -/
def Distinct (o : Outline) : Prop :=
  ∀ members ending, o.Contains (.object members ending) → (members.filterMap Prod.fst).Nodup

end Outline

open Outline

/-- A value of the given shape is rearranged in one place. -/
inductive Step : Shape → Outline → Outline → Prop where
  | reorder {shape : Shape} {members members' : List (Option String × Outline)} {ending : Ending}
      (perm : members.Perm members') : Step shape (.object members ending) (.object members' ending)
  | insert {fields : List (String × Shape)} {before after : List (Option String × Outline)} {name : String}
      {value : Outline} {ending : Ending} (unknown : name ∉ fields.map Prod.fst)
      (new : some name ∉ (before ++ after).map Prod.fst) (scalar : value.IsScalar) :
      Step (.record fields) (.object (before ++ after) ending) (.object (before ++ (some name, value) :: after) ending)
  | item {shape : Shape} {before after : List Outline} {item item' : Outline} {ending : Ending}
      (h : Step (shape.item before.length) item item') :
      Step shape (.array (before ++ item :: after) ending) (.array (before ++ item' :: after) ending)
  | member {shape : Shape} {before after : List (Option String × Outline)} {name : Option String} {o o' : Outline}
      {ending : Ending} (h : Step (shape.member name) o o') :
      Step shape (.object (before ++ (name, o) :: after) ending) (.object (before ++ (name, o') :: after) ending)

/-- A value of the given shape is rearranged in any number of places. -/
def Rearranged (shape : Shape) : Outline → Outline → Prop :=
  Relation.ReflTransGen (Step shape)

/-! ## Different names -/

theorem distinct_array_iff {items : List Outline} {ending : Ending} :
    (Outline.array items ending).Distinct ↔ ∀ item ∈ items, item.Distinct := by
  constructor
  · intro h item mem members ending inside
    exact h members ending (.item mem inside)
  · intro h members ending inside
    cases inside with
    | item mem inside => exact h _ mem members ending inside

theorem distinct_object_iff {members : List (Option String × Outline)} {ending : Ending} :
    (Outline.object members ending).Distinct ↔
      (members.filterMap Prod.fst).Nodup ∧ ∀ m ∈ members, m.2.Distinct := by
  constructor
  · intro h
    exact ⟨h members ending .self, fun m mem members' ending' inside => h members' ending' (.member mem inside)⟩
  · rintro ⟨nodup, h⟩ members' ending' inside
    cases inside with
    | self => exact nodup
    | member mem inside => exact h _ mem members' ending' inside

theorem Outline.Distinct.item {before after : List Outline} {item : Outline} {ending : Ending}
    (h : (Outline.array (before ++ item :: after) ending).Distinct) : item.Distinct :=
  distinct_array_iff.mp h item (by simp)

theorem Outline.Distinct.member {before after : List (Option String × Outline)} {name : Option String} {o : Outline}
    {ending : Ending} (h : (Outline.object (before ++ (name, o) :: after) ending).Distinct) : o.Distinct :=
  (distinct_object_iff.mp h).2 (name, o) (by simp)

theorem distinct_null : Outline.null.Distinct := by
  rintro _ _ ⟨⟩

theorem distinct_bool (b : Bool) : (Outline.bool b).Distinct := by
  rintro _ _ ⟨⟩

theorem distinct_number (n : Numeral) : (Outline.number n).Distinct := by
  rintro _ _ ⟨⟩

theorem distinct_string (s : Option String) : (Outline.string s).Distinct := by
  rintro _ _ ⟨⟩

theorem Outline.IsScalar.distinct {o : Outline} (h : o.IsScalar) : o.Distinct := by
  cases h with
  | null => exact distinct_null
  | bool b => exact distinct_bool b
  | text s => exact distinct_string s
  | int => exact distinct_number _

theorem nodup_filterMap_insert {before after : List (Option String × Outline)} {name : String} {value : Outline}
    (new : some name ∉ (before ++ after).map Prod.fst) (h : ((before ++ after).filterMap Prod.fst).Nodup) :
    ((before ++ (some name, value) :: after).filterMap Prod.fst).Nodup := by
  have absent : name ∉ (before ++ after).filterMap Prod.fst := by
    intro known
    obtain ⟨m, mem, named⟩ := List.mem_filterMap.mp known
    exact new (List.mem_map.mpr ⟨m, mem, named⟩)
  have moved : ((before ++ (some name, value) :: after).filterMap Prod.fst).Perm
      (name :: (before ++ after).filterMap Prod.fst) :=
    List.perm_middle.filterMap Prod.fst
  exact moved.nodup_iff.mpr (List.nodup_cons.mpr ⟨absent, h⟩)

theorem Step.distinct {shape : Shape} {o o' : Outline} (h : Step shape o o') (distinct : o.Distinct) : o'.Distinct := by
  induction h with
  | reorder perm =>
    rw [distinct_object_iff] at distinct ⊢
    exact ⟨(perm.filterMap Prod.fst).nodup_iff.mp distinct.1, fun m mem => distinct.2 m (perm.mem_iff.mpr mem)⟩
  | insert _ new scalar =>
    rw [distinct_object_iff] at distinct ⊢
    refine ⟨nodup_filterMap_insert new distinct.1, ?_⟩
    have rest := distinct.2
    rw [List.forall_mem_append] at rest ⊢
    exact ⟨rest.1, List.forall_mem_cons.mpr ⟨scalar.distinct, rest.2⟩⟩
  | item _ ih =>
    rw [distinct_array_iff, List.forall_mem_append, List.forall_mem_cons] at distinct ⊢
    exact ⟨distinct.1, ih distinct.2.1, distinct.2.2⟩
  | member _ ih =>
    rw [distinct_object_iff, List.forall_mem_append, List.forall_mem_cons] at distinct ⊢
    obtain ⟨nodup, first, here, rest⟩ := distinct
    refine ⟨?_, first, ih here, rest⟩
    rw [List.filterMap_append, List.filterMap_cons] at nodup ⊢
    exact nodup

/-! ## Skipping -/

theorem then_eq_ok_iff {α : Type} {x : Except Fault Unit} {y : Except Fault α} {a : α} :
    (do x; y) = .ok a ↔ x = .ok () ∧ y = .ok a := by
  rw [bind_eq_ok_iff]
  constructor
  · rintro ⟨_, first, second⟩
    exact ⟨first, second⟩
  · rintro ⟨first, second⟩
    exact ⟨(), first, second⟩

theorem Ending.skip_eq_ok_iff {e : Ending} : e.skip = .ok () ↔ e = .closed := by
  cases e <;> simp [Ending.skip]

theorem skip_array_iff {items : List Outline} {ending : Ending} :
    skip (.array items ending) = .ok () ↔ (∀ item ∈ items, skip item = .ok ()) ∧ ending = .closed := by
  have all : skipItems items = .ok () ↔ ∀ item ∈ items, skip item = .ok () := by
    induction items with
    | nil => simp [skipItems]
    | cons item items ih => rw [skipItems, then_eq_ok_iff, List.forall_mem_cons, ih]
  rw [skip, then_eq_ok_iff, all, Ending.skip_eq_ok_iff]

theorem skip_object_iff {members : List (Option String × Outline)} {ending : Ending} :
    skip (.object members ending) = .ok () ↔ (∀ m ∈ members, skip m.2 = .ok ()) ∧ ending = .closed := by
  have all : skipMembers members = .ok () ↔ ∀ m ∈ members, skip m.2 = .ok () := by
    induction members with
    | nil => simp [skipMembers]
    | cons m members ih => rw [skipMembers, then_eq_ok_iff, List.forall_mem_cons, ih]
  rw [skip, then_eq_ok_iff, all, Ending.skip_eq_ok_iff]

theorem Outline.IsScalar.skip {o : Outline} (h : o.IsScalar) : skip o = .ok () := by
  cases h <;> rfl

theorem Step.skip {shape : Shape} {o o' : Outline} (h : Step shape o o') (skipped : skip o = .ok ()) :
    skip o' = .ok () := by
  induction h with
  | reorder perm =>
    rw [skip_object_iff] at skipped ⊢
    exact ⟨fun m mem => skipped.1 m (perm.mem_iff.mpr mem), skipped.2⟩
  | insert _ _ scalar =>
    rw [skip_object_iff, List.forall_mem_append] at skipped ⊢
    exact ⟨⟨skipped.1.1, List.forall_mem_cons.mpr ⟨scalar.skip, skipped.1.2⟩⟩, skipped.2⟩
  | item _ ih =>
    rw [skip_array_iff, List.forall_mem_append, List.forall_mem_cons] at skipped ⊢
    exact ⟨⟨skipped.1.1, ih skipped.1.2.1, skipped.1.2.2⟩, skipped.2⟩
  | member _ ih =>
    rw [skip_object_iff, List.forall_mem_append, List.forall_mem_cons] at skipped ⊢
    exact ⟨⟨skipped.1.1, ih skipped.1.2.1, skipped.1.2.2⟩, skipped.2⟩

/-! ## Vetting -/

theorem vetItems_iff {depth : Nat} {items : List Outline} :
    vetItems depth items = .ok () ↔ ∀ item ∈ items, vet depth item = .ok () := by
  induction items with
  | nil => simp [vetItems]
  | cons item items ih => rw [vetItems, then_eq_ok_iff, List.forall_mem_cons, ih]

theorem vetMembers_iff {depth : Nat} {members : List (Option String × Outline)} :
    vetMembers depth members = .ok () ↔ ∀ m ∈ members, m.1.isSome = true ∧ vet depth m.2 = .ok () := by
  induction members with
  | nil => simp [vetMembers]
  | cons m members ih =>
    obtain ⟨name, o⟩ := m
    rw [List.forall_mem_cons, ← ih, vetMembers]
    cases name with
    | none => simp [throw, throwThe, MonadExceptOf.throw, bind, Except.bind]
    | some name =>
      refine then_eq_ok_iff.trans ?_
      simp

theorem vet_array_iff {depth : Nat} {items : List Outline} {ending : Ending} :
    vet depth (.array items ending) = .ok () ↔
      depth < nestingLimit ∧ (∀ item ∈ items, vet (depth + 1) item = .ok ()) ∧ ending = .closed := by
  simp only [vet, bind_eq_ok_iff, enter_eq_ok_iff, Ending.read_eq_ok_iff, ← vetItems_iff]
  constructor
  · rintro ⟨_, ⟨room, rfl⟩, _, vetted, ended⟩
    exact ⟨room, vetted, ended⟩
  · rintro ⟨room, vetted, ended⟩
    exact ⟨_, ⟨room, rfl⟩, (), vetted, ended⟩

theorem vet_object_iff {depth : Nat} {members : List (Option String × Outline)} {ending : Ending} :
    vet depth (.object members ending) = .ok () ↔
      depth < nestingLimit ∧ (∀ m ∈ members, m.1.isSome = true ∧ vet (depth + 1) m.2 = .ok ()) ∧ ending = .closed := by
  simp only [vet, bind_eq_ok_iff, enter_eq_ok_iff, Ending.read_eq_ok_iff, ← vetMembers_iff]
  constructor
  · rintro ⟨_, ⟨room, rfl⟩, _, vetted, ended⟩
    exact ⟨room, vetted, ended⟩
  · rintro ⟨room, vetted, ended⟩
    exact ⟨_, ⟨room, rfl⟩, (), vetted, ended⟩

theorem Outline.IsScalar.vet {o : Outline} (h : o.IsScalar) (depth : Nat) : vet depth o = .ok () := by
  cases h with
  | @int negative digits fits =>
    have limit : Numeral.signedLimit = 2 ^ 63 := rfl
    have short : digits < 2 ^ 64 := by omega
    have inside : Numeral.inRange ⟨negative, digits, 0, true⟩ = true := Number.Binary64.isSome_ofDecimal? negative short
    rw [Json.vet, if_pos inside]
  | _ => rfl

theorem Step.vet {shape : Shape} {o o' : Outline} (h : Step shape o o') {depth : Nat} (vetted : vet depth o = .ok ()) :
    vet depth o' = .ok () := by
  induction h generalizing depth with
  | reorder perm =>
    rw [vet_object_iff] at vetted ⊢
    obtain ⟨room, all, ended⟩ := vetted
    exact ⟨room, fun m mem => all m (perm.mem_iff.mpr mem), ended⟩
  | insert _ _ scalar =>
    rw [vet_object_iff, List.forall_mem_append] at vetted ⊢
    obtain ⟨room, ⟨first, rest⟩, ended⟩ := vetted
    exact ⟨room, ⟨first, List.forall_mem_cons.mpr ⟨⟨rfl, scalar.vet _⟩, rest⟩⟩, ended⟩
  | item _ ih =>
    rw [vet_array_iff, List.forall_mem_append, List.forall_mem_cons] at vetted ⊢
    obtain ⟨room, ⟨first, here, rest⟩, ended⟩ := vetted
    exact ⟨room, ⟨first, ih here, rest⟩, ended⟩
  | member _ ih =>
    rw [vet_object_iff, List.forall_mem_append, List.forall_mem_cons] at vetted ⊢
    obtain ⟨room, ⟨first, here, rest⟩, ended⟩ := vetted
    exact ⟨room, ⟨first, ⟨here.1, ih here.2⟩, rest⟩, ended⟩

/-! ## Members under other names -/

theorem Step.exists_eq_object {shape : Shape} {members : List (Option String × Outline)} {ending : Ending} {o' : Outline}
    (h : Step shape (.object members ending) o') : ∃ members', o' = .object members' ending := by
  cases h with
  | reorder => exact ⟨_, rfl⟩
  | insert => exact ⟨_, rfl⟩
  | member => exact ⟨_, rfl⟩

theorem others_append (names : List String) (members members' : List (Option String × Outline)) :
    others names (members ++ members') = others names members ++ others names members' :=
  List.filter_append members members'

theorem others_cons (names : List String) (name : Option String) (o : Outline)
    (members : List (Option String × Outline)) :
    others names ((name, o) :: members) =
      if ∀ n ∈ names, name ≠ some n then (name, o) :: others names members else others names members := by
  simp only [others, List.filter_cons, decide_eq_true_eq]

/-- A step among some members is a step among those of them that are under other names than these. -/
theorem Step.others {shape : Shape} {members members' : List (Option String × Outline)} {ending ending' : Ending}
    (h : Step shape (.object members ending) (.object members' ending')) (names : List String) (ending'' : Ending) :
    Step shape (.object (others names members) ending'') (.object (others names members') ending'') := by
  cases h with
  | reorder perm => exact .reorder (perm.filter _)
  | @insert _ before after name value _ unknown new scalar =>
    rw [others_append, others_append, others_cons]
    split_ifs with other
    · refine .insert unknown (fun known => new ?_) scalar
      rw [← others_append] at known
      obtain ⟨m, mem, named⟩ := List.mem_map.mp known
      exact List.mem_map.mpr ⟨m, List.mem_of_mem_filter mem, named⟩
    · exact .reorder (.refl _)
  | member h =>
    rw [others_append, others_append, others_cons, others_cons]
    split_ifs
    · exact .member h
    · exact .reorder (.refl _)

theorem distinct_others {members : List (Option String × Outline)} {ending : Ending}
    (h : (Outline.object members ending).Distinct) (names : List String) (ending' : Ending) :
    (Outline.object (others names members) ending').Distinct := by
  rw [distinct_object_iff] at h ⊢
  exact ⟨h.1.sublist (List.filter_sublist.filterMap _), fun m mem => h.2 m (List.mem_of_mem_filter mem)⟩

/-- What scalars have and steps keep is kept for all values of an object. -/
theorem Step.forall_values {P : Outline → Prop} (scalars : ∀ o : Outline, o.IsScalar → P o)
    (steps : ∀ {shape o o'}, Step shape o o' → P o → P o') {shape : Shape}
    {members members' : List (Option String × Outline)} {ending ending' : Ending}
    (h : Step shape (.object members ending) (.object members' ending')) (all : ∀ m ∈ members, P m.2) :
    ∀ m ∈ members', P m.2 := by
  cases h with
  | reorder perm => exact fun m mem => all m (perm.mem_iff.mpr mem)
  | insert _ _ scalar =>
    rw [List.forall_mem_append] at all ⊢
    exact ⟨all.1, List.forall_mem_cons.mpr ⟨scalars _ scalar, all.2⟩⟩
  | member h =>
    rw [List.forall_mem_append, List.forall_mem_cons] at all ⊢
    exact ⟨all.1, steps h all.2.1, all.2.2⟩

theorem Step.skip_others {shape : Shape} {members members' : List (Option String × Outline)} {ending ending' : Ending}
    (h : Step shape (.object members ending) (.object members' ending')) {names : List String}
    (skipped : ∀ m ∈ Json.others names members, Json.skip m.2 = .ok ()) :
    ∀ m ∈ Json.others names members', Json.skip m.2 = .ok () :=
  (h.others names .closed).forall_values (fun _ scalar => scalar.skip) Step.skip skipped

theorem Step.vet_others {shape : Shape} {members members' : List (Option String × Outline)} {ending ending' : Ending}
    (h : Step shape (.object members ending) (.object members' ending')) {depth : Nat} {names : List String}
    (vetted : ∀ m ∈ Json.others names members, Json.vet depth m.2 = .ok ()) :
    ∀ m ∈ Json.others names members', Json.vet depth m.2 = .ok () :=
  (h.others names .closed).forall_values (fun _ scalar => scalar.vet depth) (fun h => h.vet) vetted

end ProgramGraph.Json
