import Mathlib.Data.List.Forall2
import ProgramGraph.Json.Decoder

/-!
# ProgramGraph.Proofs.Json.Fields

What a record is read from, said without the order in which its members are met.

* `Fills`        — a record under way after some members; members without a slot leave it alone.
* `Fields.Gives` — the record that some members give. The laws of `Gives` follow the way in which fields are put together:
  `gives_field_iff`, `gives_map_iff`, `gives_seq_iff`.
* `record_object_iff`, `flattened_object_iff`, `tagged_object_iff` — when an object is read as a record of each kind.
-/

namespace ProgramGraph.Json

/-! ## Steps that may fail -/

theorem bind_eq_ok_iff {α β : Type} {x : Except Fault α} {f : α → Except Fault β} {b : β} :
    x >>= f = .ok b ↔ ∃ a, x = .ok a ∧ f a = .ok b := by
  cases x <;> simp [bind, Except.bind]

theorem map_eq_ok_iff {α β : Type} {x : Except Fault α} {f : α → β} {b : β} :
    x.map f = .ok b ↔ ∃ a, x = .ok a ∧ f a = b := by
  cases x <;> simp [Except.map]

theorem pure_eq_ok_iff {α : Type} {a b : α} : (pure a : Except Fault α) = .ok b ↔ a = b := by
  simp [pure, Except.pure]

theorem Ending.read_eq_ok_iff {e : Ending} : e.read = .ok () ↔ e = .closed := by
  cases e <;> simp [Ending.read]

theorem enter_eq_ok_iff {depth inside : Nat} : enter depth = .ok inside ↔ depth < nestingLimit ∧ depth + 1 = inside := by
  rw [enter]
  split_ifs with h <;> simp [h]

theorem complete_eq_ok_iff {α : Type} {x : Option α} {a : α} : complete x = .ok a ↔ x = some a := by
  cases x <;> simp [complete]

/-! ## Members -/

/-- Every name can be read. -/
def Readable (members : List (Option String × Outline)) : Prop :=
  ∀ m ∈ members, m.1.isSome = true

/-- The values under a name. -/
def valuesOf (name : String) (members : List (Option String × Outline)) : List Outline :=
  (members.filter fun m => m.1 = some name).map Prod.snd

/-- The members under other names than these. -/
def others (names : List String) (members : List (Option String × Outline)) : List (Option String × Outline) :=
  members.filter fun m => ∀ n ∈ names, m.1 ≠ some n

/-! ## Records under way -/

section

variable {δ : Type} {slots : List (Slot δ)} {depth : Nat}

theorem slotFor?_eq_none_iff {name : String} : slotFor? slots name = none ↔ name ∉ slots.map Slot.name := by
  simp only [slotFor?, List.find?_eq_none, decide_eq_true_eq, List.mem_map, not_exists, not_and]

theorem name_of_slotFor? {name : String} {slot : Slot δ} (h : slotFor? slots name = some slot) :
    slot ∈ slots ∧ slot.name = name :=
  ⟨List.mem_of_find?_eq_some h, by simpa using List.find?_some h⟩

/-- From one record under way to another one, along some members. -/
inductive Fills (slots : List (Slot δ)) (depth : Nat) : List (Option String × Outline) → δ → δ → Prop where
  | nil {d : δ} : Fills slots depth [] d d
  | known {name : String} {o : Outline} {rest : List (Option String × Outline)} {slot : Slot δ} {d d' d'' : δ}
      (found : slotFor? slots name = some slot) (free : slot.filled d = false) (filled : slot.fill depth o d = .ok d')
      (h : Fills slots depth rest d' d'') : Fills slots depth ((some name, o) :: rest) d d''
  | other {name : String} {o : Outline} {rest : List (Option String × Outline)} {d d' : δ}
      (unknown : slotFor? slots name = none) (h : Fills slots depth rest d d') :
      Fills slots depth ((some name, o) :: rest) d d'

theorem Fills.readable {members : List (Option String × Outline)} {d d' : δ} (h : Fills slots depth members d d') :
    Readable members := by
  induction h with
  | nil => nofun
  | known _ _ _ _ ih => exact List.forall_mem_cons.mpr ⟨rfl, ih⟩
  | other _ _ ih => exact List.forall_mem_cons.mpr ⟨rfl, ih⟩

theorem not_fills_none {o : Outline} {rest : List (Option String × Outline)} {d d' : δ} :
    ¬Fills slots depth ((none, o) :: rest) d d' :=
  nofun

theorem fills_cons_of_unknown {name : String} (unknown : slotFor? slots name = none) {o : Outline}
    {rest : List (Option String × Outline)} {d d' : δ} :
    Fills slots depth ((some name, o) :: rest) d d' ↔ Fills slots depth rest d d' := by
  constructor
  · intro h
    cases h with
    | known found =>
      rw [unknown] at found
      cases found
    | other _ h => exact h
  · exact .other unknown

theorem fills_cons_of_known {name : String} {slot : Slot δ} (found : slotFor? slots name = some slot) {o : Outline}
    {rest : List (Option String × Outline)} {d d' : δ} :
    Fills slots depth ((some name, o) :: rest) d d' ↔
      slot.filled d = false ∧ ∃ d₁, slot.fill depth o d = .ok d₁ ∧ Fills slots depth rest d₁ d' := by
  constructor
  · intro h
    cases h with
    | known found' free filled h =>
      cases Option.some.inj (found.symm.trans found')
      exact ⟨free, _, filled, h⟩
    | other unknown =>
      rw [found] at unknown
      cases unknown
  · rintro ⟨free, _, filled, h⟩
    exact .known found free filled h

theorem others_cons_of_unknown {name : String} {o : Outline} {rest : List (Option String × Outline)}
    (h : slotFor? slots name = none) :
    others (slots.map Slot.name) ((some name, o) :: rest) = (some name, o) :: others (slots.map Slot.name) rest := by
  have unknown := slotFor?_eq_none_iff.mp h
  apply List.filter_cons_of_pos
  simp only [ne_eq, Option.some.injEq, decide_eq_true_eq]
  rintro n hn rfl
  exact unknown hn

theorem others_cons_of_known {name : String} {o : Outline} {rest : List (Option String × Outline)} {slot : Slot δ}
    (h : slotFor? slots name = some slot) :
    others (slots.map Slot.name) ((some name, o) :: rest) = others (slots.map Slot.name) rest := by
  obtain ⟨mem, rfl⟩ := name_of_slotFor? h
  apply List.filter_cons_of_neg
  simp only [ne_eq, Option.some.injEq, decide_eq_true_eq, not_forall, not_not]
  exact ⟨slot.name, List.mem_map_of_mem mem, rfl⟩

/-- Members without a slot are passed one after the other, beside the record under way. -/
theorem fillMembers_eq_ok_iff {ε : Type} {other : String → Outline → ε → Except Fault ε}
    (pass : Outline → Except Fault Unit) (keep : ε → Option String × Outline → ε)
    (split : ∀ name o e, other name o e = (pass o).map fun _ => keep e (some name, o))
    {members : List (Option String × Outline)} {d d' : δ} {e e' : ε} :
    fillMembers slots other depth members (d, e) = .ok (d', e') ↔
      Fills slots depth members d d' ∧ (∀ m ∈ others (slots.map Slot.name) members, pass m.2 = .ok ()) ∧
        (others (slots.map Slot.name) members).foldl keep e = e' := by
  induction members generalizing d e with
  | nil =>
    rw [fillMembers, Except.ok.injEq, Prod.mk.injEq]
    constructor
    · rintro ⟨rfl, rfl⟩
      exact ⟨.nil, nofun, rfl⟩
    · rintro ⟨⟨⟩, _, rfl⟩
      exact ⟨rfl, rfl⟩
  | cons member rest ih =>
    obtain ⟨name, o⟩ := member
    rw [fillMembers, bind_eq_ok_iff]
    cases name with
    | none =>
      constructor
      · rintro ⟨_, ⟨⟩, _⟩
      · rintro ⟨filled, _⟩
        exact absurd filled not_fills_none
    | some name =>
      cases found : slotFor? slots name with
      | none =>
        simp only [fillMember, found, split, map_eq_ok_iff]
        rw [others_cons_of_unknown found, fills_cons_of_unknown found, List.forall_mem_cons, List.foldl_cons]
        constructor
        · rintro ⟨_, ⟨_, ⟨_, passed, rfl⟩, rfl⟩, rest⟩
          obtain ⟨filled, passed', kept⟩ := ih.mp rest
          exact ⟨filled, ⟨passed, passed'⟩, kept⟩
        · rintro ⟨filled, ⟨passed, passed'⟩, kept⟩
          exact ⟨_, ⟨_, ⟨(), passed, rfl⟩, rfl⟩, ih.mpr ⟨filled, passed', kept⟩⟩
      | some slot =>
        simp only [fillMember, found]
        rw [others_cons_of_known found, fills_cons_of_known found]
        cases free : slot.filled d with
        | true => simp
        | false =>
          simp only [Bool.false_eq_true, if_false, map_eq_ok_iff]
          constructor
          · rintro ⟨_, ⟨_, first, rfl⟩, rest⟩
            obtain ⟨filled, passed, kept⟩ := ih.mp rest
            exact ⟨⟨trivial, _, first, filled⟩, passed, kept⟩
          · rintro ⟨⟨_, _, first, filled⟩, passed, kept⟩
            exact ⟨_, ⟨_, first, rfl⟩, ih.mpr ⟨filled, passed, kept⟩⟩

/-- A record whose unknown members are skipped. -/
theorem fillMembers_skipOther_iff {members : List (Option String × Outline)} {d d' : δ} :
    fillMembers slots skipOther depth members (d, ()) = .ok (d', ()) ↔
      Fills slots depth members d d' ∧ ∀ m ∈ others (slots.map Slot.name) members, skip m.2 = .ok () := by
  have split : ∀ name o e, skipOther name o e = (skip o).map fun _ => () := by
    intro _ o _
    rw [skipOther]
    cases skip o <;> rfl
  rw [fillMembers_eq_ok_iff skip (fun _ _ => ()) split]
  simp

/-- A record whose unknown members are vetted and kept. -/
theorem fillMembers_keepVetted_iff {inside : Nat} {members kept : List (Option String × Outline)} {d d' : δ} :
    fillMembers slots (keepVetted inside) depth members (d, []) = .ok (d', kept) ↔
      Fills slots depth members d d' ∧ (∀ m ∈ others (slots.map Slot.name) members, vet inside m.2 = .ok ()) ∧
        (others (slots.map Slot.name) members).reverse = kept := by
  have split : ∀ name o e, keepVetted inside name o e = (vet inside o).map fun _ => (some name, o) :: e := by
    intro _ o _
    rw [keepVetted]
    cases vet inside o <;> rfl
  rw [fillMembers_eq_ok_iff (vet inside) (fun kept m => m :: kept) split, List.foldl_flip_cons_eq_append']
  simp

end

/-! ## Fields put together -/

section

variable {α β : Type}

theorem slotFor?_append (slots : List (Slot α)) (slots' : List (Slot β)) (name : String) :
    slotFor? (slots.map Slot.first ++ slots'.map Slot.second : List (Slot (α × β))) name =
      ((slotFor? slots name).map Slot.first).or ((slotFor? slots' name).map Slot.second) := by
  simp only [slotFor?, List.find?_append, List.find?_map]
  rfl

/-- Two records side by side, whose fields have different names, are filled each on its own. -/
theorem fills_both_iff {slots : List (Slot α)} {slots' : List (Slot β)}
    (apart : ∀ n ∈ slots.map Slot.name, n ∉ slots'.map Slot.name) {depth : Nat}
    {members : List (Option String × Outline)} {d d' : α × β} :
    Fills (slots.map Slot.first ++ slots'.map Slot.second) depth members d d' ↔
      Fills slots depth members d.1 d'.1 ∧ Fills slots' depth members d.2 d'.2 := by
  induction members generalizing d with
  | nil =>
    constructor
    · rintro ⟨⟩
      exact ⟨.nil, .nil⟩
    · obtain ⟨a, b⟩ := d
      obtain ⟨a', b'⟩ := d'
      rintro ⟨⟨⟩, ⟨⟩⟩
      exact .nil
  | cons member rest ih =>
    obtain ⟨name, o⟩ := member
    cases name with
    | none => simp only [not_fills_none, false_and]
    | some name =>
      have both := slotFor?_append slots slots' name
      cases found : slotFor? slots name with
      | none =>
        cases found' : slotFor? slots' name with
        | none =>
          rw [found, found'] at both
          rw [fills_cons_of_unknown both, fills_cons_of_unknown found, fills_cons_of_unknown found', ih]
        | some slot' =>
          rw [found, found'] at both
          rw [fills_cons_of_known both, fills_cons_of_unknown found, fills_cons_of_known found']
          simp only [Slot.second, map_eq_ok_iff, ih]
          constructor
          · rintro ⟨free, _, ⟨b, filled, rfl⟩, first, second⟩
            exact ⟨first, free, b, filled, second⟩
          · rintro ⟨first, free, b, filled, second⟩
            exact ⟨free, _, ⟨b, filled, rfl⟩, first, second⟩
      | some slot =>
        have absent : slotFor? slots' name = none := by
          obtain ⟨mem, rfl⟩ := name_of_slotFor? found
          exact slotFor?_eq_none_iff.mpr (apart _ (List.mem_map_of_mem mem))
        rw [found, absent] at both
        rw [fills_cons_of_known both, fills_cons_of_known found, fills_cons_of_unknown absent]
        simp only [Slot.first, map_eq_ok_iff, ih]
        constructor
        · rintro ⟨free, _, ⟨a, filled, rfl⟩, first, second⟩
          exact ⟨⟨free, a, filled, first⟩, second⟩
        · rintro ⟨⟨free, a, filled, first⟩, second⟩
          exact ⟨free, _, ⟨a, filled, rfl⟩, first, second⟩

end

/-! ## One field -/

section

variable {α : Type}

theorem valuesOf_cons_self (name : String) (o : Outline) (rest : List (Option String × Outline)) :
    valuesOf name ((some name, o) :: rest) = o :: valuesOf name rest := by
  simp [valuesOf]

theorem valuesOf_cons_of_ne {name : String} {n : Option String} (h : n ≠ some name) (o : Outline)
    (rest : List (Option String × Outline)) : valuesOf name ((n, o) :: rest) = valuesOf name rest := by
  simp [valuesOf, h]

theorem readable_cons_iff {name : Option String} {o : Outline} {rest : List (Option String × Outline)} :
    Readable ((name, o) :: rest) ↔ name.isSome = true ∧ Readable rest :=
  List.forall_mem_cons

/-- The only slot of a field. -/
def fieldSlot (name : String) (decode : Decoder α) : Slot (Option α) where
  name := name
  filled := Option.isSome
  fill depth o _ := (decode depth o).map some

theorem slotFor?_fieldSlot_self (name : String) (decode : Decoder α) :
    slotFor? [fieldSlot name decode] name = some (fieldSlot name decode) := by
  simp [slotFor?, fieldSlot]

theorem slotFor?_fieldSlot_of_ne {name n : String} (h : n ≠ name) (decode : Decoder α) :
    slotFor? [fieldSlot name decode] n = none := by
  simp [slotFor?, fieldSlot, Ne.symm h]

/-- A field that is filled already is not filled again. -/
theorem fills_fieldSlot_some_iff {name : String} {decode : Decoder α} {depth : Nat}
    {members : List (Option String × Outline)} {a : α} {found : Option α} :
    Fills [fieldSlot name decode] depth members (some a) found ↔
      Readable members ∧ valuesOf name members = [] ∧ some a = found := by
  induction members with
  | nil =>
    constructor
    · rintro ⟨⟩
      exact ⟨nofun, rfl, rfl⟩
    · rintro ⟨_, _, rfl⟩
      exact .nil
  | cons member rest ih =>
    obtain ⟨n, o⟩ := member
    rw [readable_cons_iff]
    cases n with
    | none => simp [not_fills_none]
    | some n =>
      by_cases here : n = name
      · subst here
        rw [fills_cons_of_known (slotFor?_fieldSlot_self n decode), valuesOf_cons_self]
        simp [fieldSlot]
      · rw [fills_cons_of_unknown (slotFor?_fieldSlot_of_ne here decode), ih,
          valuesOf_cons_of_ne (by simpa using here)]
        simp

theorem fills_fieldSlot_iff {name : String} {decode : Decoder α} {depth : Nat}
    {members : List (Option String × Outline)} {found : Option α} :
    Fills [fieldSlot name decode] depth members none found ↔
      Readable members ∧ List.Forall₂ (fun o a => decode depth o = .ok a) (valuesOf name members) found.toList := by
  induction members with
  | nil =>
    constructor
    · rintro ⟨⟩
      exact ⟨nofun, .nil⟩
    · rintro ⟨_, values⟩
      cases found with
      | none => exact .nil
      | some a => cases values
  | cons member rest ih =>
    obtain ⟨n, o⟩ := member
    rw [readable_cons_iff]
    cases n with
    | none => simp [not_fills_none]
    | some n =>
      by_cases here : n = name
      · subst here
        rw [fills_cons_of_known (slotFor?_fieldSlot_self n decode), valuesOf_cons_self]
        constructor
        · rintro ⟨_, d, filled, h⟩
          obtain ⟨a, read, rfl⟩ := map_eq_ok_iff.mp filled
          obtain ⟨readable, none_left, rfl⟩ := fills_fieldSlot_some_iff.mp h
          rw [none_left]
          exact ⟨⟨rfl, readable⟩, .cons read .nil⟩
        · rintro ⟨⟨_, readable⟩, values⟩
          cases found with
          | none => cases values
          | some a =>
            obtain ⟨read, none_left⟩ := List.forall₂_cons.mp values
            have first : (fieldSlot n decode).fill depth o none = .ok (some a) := by
              simp [fieldSlot, read, Except.map]
            exact ⟨rfl, some a, first,
              fills_fieldSlot_some_iff.mpr ⟨readable, List.forall₂_nil_right_iff.mp none_left, rfl⟩⟩
      · rw [fills_cons_of_unknown (slotFor?_fieldSlot_of_ne here decode), ih,
          valuesOf_cons_of_ne (by simpa using here)]
        simp

end

namespace Fields

variable {ρ σ : Type}

def names (p : Fields ρ) : List String :=
  p.slots.map Slot.name

/-- The record that some members give. -/
def Gives (p : Fields ρ) (depth : Nat) (members : List (Option String × Outline)) (x : ρ) : Prop :=
  ∃ d, Fills p.slots depth members p.blank d ∧ p.finish d = some x

variable {depth : Nat} {members : List (Option String × Outline)}

@[simp] theorem names_field {α : Type} (name : String) (decode : Decoder α) (finish : Option α → Option ρ) :
    (field name decode finish).names = [name] := rfl

@[simp] theorem names_map (f : ρ → σ) (p : Fields ρ) : (f <$> p).names = p.names := rfl

@[simp] theorem names_seq (p : Fields (ρ → σ)) (q : Fields ρ) : (p <*> q).names = p.names ++ q.names := by
  simp [names, Seq.seq, map, both, Function.comp_def, Slot.first, Slot.second]

@[simp] theorem names_required {α : Type} (name : String) (decode : Decoder α) :
    (required name decode).names = [name] := rfl

@[simp] theorem names_defaulted {α : Type} (name : String) (decode : Decoder α) (value : α) :
    (defaulted name decode value).names = [name] := rfl

@[simp] theorem names_optional {α : Type} (name : String) (decode : Decoder α) :
    (optional name decode).names = [name] := rfl

theorem gives_field_iff {α : Type} {name : String} {decode : Decoder α} {finish : Option α → Option ρ} {x : ρ} :
    (field name decode finish).Gives depth members x ↔
      Readable members ∧ ∃ found : Option α, finish found = some x ∧
        List.Forall₂ (fun o a => decode depth o = .ok a) (valuesOf name members) found.toList := by
  constructor
  · rintro ⟨found, filled, finished⟩
    obtain ⟨readable, values⟩ := fills_fieldSlot_iff.mp filled
    exact ⟨readable, found, finished, values⟩
  · rintro ⟨readable, found, finished, values⟩
    exact ⟨found, fills_fieldSlot_iff.mpr ⟨readable, values⟩, finished⟩

theorem gives_map_iff {f : ρ → σ} {p : Fields ρ} {y : σ} :
    (f <$> p).Gives depth members y ↔ ∃ x, p.Gives depth members x ∧ f x = y := by
  constructor
  · rintro ⟨d, filled, finished⟩
    obtain ⟨x, complete, rfl⟩ := Option.map_eq_some_iff.mp finished
    exact ⟨x, ⟨d, filled, complete⟩, rfl⟩
  · rintro ⟨x, ⟨d, filled, complete⟩, rfl⟩
    exact ⟨d, filled, Option.map_eq_some_iff.mpr ⟨x, complete, rfl⟩⟩

theorem gives_seq_iff {p : Fields (ρ → σ)} {q : Fields ρ} (apart : ∀ n ∈ p.names, n ∉ q.names) {y : σ} :
    (p <*> q).Gives depth members y ↔
      ∃ f x, p.Gives depth members f ∧ q.Gives depth members x ∧ f x = y := by
  constructor
  · rintro ⟨d, filled, finished⟩
    obtain ⟨first, second⟩ := (fills_both_iff apart).mp filled
    obtain ⟨⟨f, x⟩, complete, rfl⟩ := Option.map_eq_some_iff.mp finished
    simp only [both, bind, pure, Option.bind_eq_some_iff, Option.some.injEq, Prod.mk.injEq] at complete
    obtain ⟨_, hf, _, hx, rfl, rfl⟩ := complete
    exact ⟨_, _, ⟨d.1, first, hf⟩, ⟨d.2, second, hx⟩, rfl⟩
  · rintro ⟨f, x, ⟨d, first, hf⟩, ⟨d', second, hx⟩, rfl⟩
    refine ⟨(d, d'), (fills_both_iff apart).mpr ⟨first, second⟩, Option.map_eq_some_iff.mpr ⟨(f, x), ?_, rfl⟩⟩
    simp [both, hf, hx]

end Fields

/-! ## Records -/

section

variable {ρ α β : Type} {depth : Nat} {members : List (Option String × Outline)} {ending : Ending}

theorem record_object_iff {p : Fields ρ} {x : ρ} :
    record p depth (.object members ending) = .ok x ↔
      depth < nestingLimit ∧ ending = .closed ∧ p.Gives (depth + 1) members x ∧
        ∀ m ∈ others p.names members, skip m.2 = .ok () := by
  simp only [record, bind_eq_ok_iff, enter_eq_ok_iff, complete_eq_ok_iff]
  constructor
  · rintro ⟨_, ⟨room, rfl⟩, ⟨d, _⟩, filled, _, ended, finished⟩
    obtain ⟨filled, skipped⟩ := fillMembers_skipOther_iff.mp filled
    exact ⟨room, Ending.read_eq_ok_iff.mp ended, ⟨d, filled, finished⟩, skipped⟩
  · rintro ⟨room, ended, ⟨d, filled, finished⟩, skipped⟩
    exact ⟨_, ⟨room, rfl⟩, (d, ()), fillMembers_skipOther_iff.mpr ⟨filled, skipped⟩, (),
      Ending.read_eq_ok_iff.mpr ended, finished⟩

theorem Fields.ofVetted?_eq_some_iff {p : Fields ρ} {x : ρ} :
    p.ofVetted? members = some x ↔ p.Gives 0 members x ∧ ∀ m ∈ others p.names members, skip m.2 = .ok () := by
  rw [Fields.ofVetted?]
  constructor
  · intro h
    split at h
    next d _ filled =>
      obtain ⟨filled, skipped⟩ := fillMembers_skipOther_iff.mp filled
      exact ⟨⟨d, filled, h⟩, skipped⟩
    next => cases h
  · rintro ⟨⟨d, filled, finished⟩, skipped⟩
    rw [fillMembers_skipOther_iff.mpr ⟨filled, skipped⟩]
    exact finished

theorem flattened_object_iff {outer : Fields α} {inner : Fields β} {a : α} {b : β} :
    flattened outer inner depth (.object members ending) = .ok (a, b) ↔
      depth < nestingLimit ∧ ending = .closed ∧ outer.Gives (depth + 1) members a ∧
        (∀ m ∈ others outer.names members, vet (depth + 1) m.2 = .ok ()) ∧
        inner.ofVetted? (others outer.names members) = some b := by
  simp only [flattened, bind_eq_ok_iff, enter_eq_ok_iff, complete_eq_ok_iff, pure_eq_ok_iff, Prod.mk.injEq]
  constructor
  · rintro ⟨_, ⟨room, rfl⟩, ⟨d, kept⟩, filled, _, ended, _, ha, _, hb, rfl, rfl⟩
    obtain ⟨fills, vetted, rfl⟩ := fillMembers_keepVetted_iff.mp filled
    rw [List.reverse_reverse] at hb
    exact ⟨room, Ending.read_eq_ok_iff.mp ended, ⟨d, fills, ha⟩, vetted, hb⟩
  · rintro ⟨room, ended, ⟨d, filled, ha⟩, vetted, hb⟩
    refine ⟨_, ⟨room, rfl⟩, (d, _), fillMembers_keepVetted_iff.mpr ⟨filled, vetted, rfl⟩, (),
      Ending.read_eq_ok_iff.mpr ended, a, ha, b, ?_, rfl, rfl⟩
    rwa [List.reverse_reverse]

theorem tagged_object_iff {tag : String} {choose : String → Option α} {shape : α → Fields ρ} {x : ρ} :
    tagged tag choose shape depth (.object members ending) = .ok x ↔
      depth < nestingLimit ∧ ending = .closed ∧ ∃ chosen,
        (Fields.required tag (named choose)).Gives (depth + 1) members chosen ∧
        (∀ m ∈ others [tag] members, vet (depth + 1) m.2 = .ok ()) ∧
        (shape chosen).ofVetted? (others [tag] members) = some x := by
  simp only [tagged, bind_eq_ok_iff, enter_eq_ok_iff, complete_eq_ok_iff]
  constructor
  · rintro ⟨_, ⟨room, rfl⟩, ⟨d, kept⟩, filled, _, ended, chosen, hc, hx⟩
    obtain ⟨fills, vetted, rfl⟩ := fillMembers_keepVetted_iff.mp filled
    rw [List.reverse_reverse] at hx
    exact ⟨room, Ending.read_eq_ok_iff.mp ended, chosen, ⟨d, fills, hc⟩, vetted, hx⟩
  · rintro ⟨room, ended, chosen, ⟨d, filled, hc⟩, vetted, hx⟩
    refine ⟨_, ⟨room, rfl⟩, (d, _), fillMembers_keepVetted_iff.mpr ⟨filled, vetted, rfl⟩, (),
      Ending.read_eq_ok_iff.mpr ended, chosen, hc, ?_⟩
    rwa [List.reverse_reverse]

end

end ProgramGraph.Json
