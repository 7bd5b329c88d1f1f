import Mathlib.Data.List.Forall2
import Mathlib.Data.List.Perm.Basic
import ProgramGraph.Proofs.Json.Rearrangement

/-!
# ProgramGraph.Proofs.Json.Stability

Reading does not notice that a value has been rearranged.

* `Stable`      — what a decoder makes of a value it makes of the value after a step. There is a law for each decoder.
* `Fields.Fits` — the fields of a record: each is stable, and together they give the same record whatever the order of
  the members. The laws of `Fits` follow the way in which fields are put together.
* `Stable.rearranged` — many steps.
-/

namespace ProgramGraph.Json

open Outline

/-- What a decoder makes of a value of the given shape it makes of the value after a step. -/
def Stable {α : Type} (shape : Shape) (decode : Decoder α) : Prop :=
  ∀ ⦃depth : Nat⦄ ⦃o o' : Outline⦄ ⦃a : α⦄, o.Distinct → Step shape o o' → decode depth o = .ok a →
    decode depth o' = .ok a

/-- Many steps, for a decoder whose shape may depend on what is read. -/
theorem rearranged_read {α : Type} {decode : Decoder α} {shape : Shape} {a : α} {depth : Nat}
    (step : ∀ {o o' : Outline}, o.Distinct → Step shape o o' → decode depth o = .ok a → decode depth o' = .ok a)
    {o o' : Outline} (distinct : o.Distinct) (h : Rearranged shape o o') (read : decode depth o = .ok a) :
    decode depth o' = .ok a := by
  -- The invariant says that names stay different, too: the steps to come rely on it.
  have kept : o'.Distinct ∧ decode depth o' = .ok a := by
    induction h with
    | refl => exact ⟨distinct, read⟩
    | tail _ last ih => exact ⟨last.distinct ih.1, step ih.1 last ih.2⟩
  exact kept.2

theorem Stable.rearranged {α : Type} {decode : Decoder α} {shape : Shape} (h : Stable shape decode) {o o' : Outline}
    (distinct : o.Distinct) (moved : Rearranged shape o o') {depth : Nat} {a : α} (read : decode depth o = .ok a) :
    decode depth o' = .ok a :=
  rearranged_read (fun distinct step read => h distinct step read) distinct moved read

/-! ## Values without parts -/

section

variable {α β : Type} {shape : Shape} {decode : Decoder α}

/-- Arrays and objects are rearranged, nothing else. -/
theorem stable_of_scalar (array : ∀ depth items ending a, decode depth (.array items ending) ≠ .ok a)
    (object : ∀ depth members ending a, decode depth (.object members ending) ≠ .ok a) : Stable shape decode := by
  intro depth o o' a _ step read
  cases step with
  | reorder => exact (object _ _ _ _ read).elim
  | insert => exact (object _ _ _ _ read).elim
  | item => exact (array _ _ _ _ read).elim
  | member => exact (object _ _ _ _ read).elim

theorem stable_text : Stable shape text :=
  stable_of_scalar nofun nofun

theorem stable_bool : Stable shape bool :=
  stable_of_scalar nofun nofun

theorem stable_word32 : Stable shape word32 :=
  stable_of_scalar nofun nofun

theorem stable_named {choose : String → Option α} : Stable shape (named choose) :=
  stable_of_scalar nofun nofun

theorem Stable.map (f : α → β) (h : Stable shape decode) : Stable shape fun depth o => (decode depth o).map f := by
  intro depth o o' b distinct step read
  obtain ⟨a, here, rfl⟩ := map_eq_ok_iff.mp read
  exact map_eq_ok_iff.mpr ⟨a, h distinct step here, rfl⟩

theorem Step.ne_null {o o' : Outline} (h : Step shape o o') : o ≠ .null ∧ o' ≠ .null := by
  cases h <;> exact ⟨nofun, nofun⟩

theorem optional_eq_map (decode : Decoder α) (depth : Nat) {o : Outline} (h : o ≠ .null) :
    optional decode depth o = (decode depth o).map some := by
  cases o <;> first | rfl | exact absurd rfl h

theorem Stable.optional (h : Stable shape decode) : Stable shape (optional decode) := by
  intro depth o o' x distinct step read
  rw [optional_eq_map decode depth step.ne_null.1] at read
  rw [optional_eq_map decode depth step.ne_null.2]
  exact h.map some distinct step read

/-! ## Choices -/

theorem Step.eq_of_null {o' : Outline} (h : Step .any .null o') : o' = .null :=
  nomatch h

theorem Step.eq_of_empty {ending : Ending} {o' : Outline} (h : Step .any (.object [] ending) o') :
    o' = .object [] ending := by
  generalize empty : ([] : List (Option String × Outline)) = members at h
  cases h with
  | reorder perm =>
    subst empty
    rw [List.nil_perm.mp perm]
  | @member _ before => cases before <;> cases empty

/-- There is only one order of one member. -/
theorem Step.eq_of_single {name : Option String} {value : Outline} {ending : Ending} {o' : Outline}
    (still : ∀ o', Step .any value o' → o' = value) (h : Step .any (.object [(name, value)] ending) o') :
    o' = .object [(name, value)] ending := by
  generalize single : [(name, value)] = members at h
  cases h with
  | reorder perm =>
    subst single
    rw [List.singleton_perm.mp perm]
  | @member _ before after name' o o' _ h =>
    cases before with
    | nil =>
      obtain ⟨⟨rfl, rfl⟩, rfl⟩ := by simpa using single
      rw [still o' h]
    | cons => simp at single

theorem choice_object {choose : String → Option α} {depth : Nat} {members : List (Option String × Outline)}
    {ending : Ending} {a : α} (h : choice choose depth (.object members ending) = .ok a) :
    ∃ name, members = [(some name, .null)] := by
  obtain ⟨_, -, h⟩ := bind_eq_ok_iff.mp h
  match members, h with
  | (some name, value) :: others, h =>
    cases chosen : choose name with
    | none => simp [chosen, throw, throwThe, MonadExceptOf.throw] at h
    | some a =>
      simp only [chosen] at h
      obtain ⟨paid, rest⟩ := then_eq_ok_iff.mp h
      have nothing : value = .null := by
        cases value <;> first | rfl | cases paid
      have alone : others = [] := by
        cases others with
        | nil => rfl
        | cons => cases rest
      exact ⟨name, by rw [nothing, alone]⟩

theorem stable_choice {choose : String → Option α} : Stable .any (choice choose) := by
  intro depth o o' a _ step read
  cases o with
  | object members ending =>
    obtain ⟨name, rfl⟩ := choice_object read
    rw [step.eq_of_single fun _ h => h.eq_of_null]
    exact read
  | array => cases read
  | _ => cases step

theorem vettedChoice_object {choose : String → Option α} {depth : Nat} {members : List (Option String × Outline)}
    {ending : Ending} {a : α} (h : vettedChoice choose depth (.object members ending) = .ok a) :
    ∃ name, members = [(some name, .null)] ∨ ∃ inner, members = [(some name, .object [] inner)] := by
  match members, h with
  | [(some name, value)], h =>
    simp only [vettedChoice] at h
    split at h
    · exact ⟨name, .inl rfl⟩
    · exact ⟨name, .inr ⟨_, rfl⟩⟩
    · cases h

theorem stable_vettedChoice {choose : String → Option α} : Stable .any (vettedChoice choose) := by
  intro depth o o' a _ step read
  cases o with
  | object members ending =>
    obtain ⟨name, rfl | ⟨inner, rfl⟩⟩ := vettedChoice_object read
    · rw [step.eq_of_single fun _ h => h.eq_of_null]
      exact read
    · rw [step.eq_of_single fun _ h => h.eq_of_empty]
      exact read
  | array => cases read
  | _ => cases step

/-! ## Lists -/

theorem forall₂_replace {R : α → β → Prop} {before after : List α} {a a' : α} {bs : List β}
    (same : ∀ b, R a b → R a' b) (h : List.Forall₂ R (before ++ a :: after) bs) :
    List.Forall₂ R (before ++ a' :: after) bs := by
  induction before generalizing bs with
  | nil =>
    cases h with
    | cons here rest => exact .cons (same _ here) rest
  | cons first before ih =>
    cases h with
    | cons here rest => exact .cons here (ih rest)

theorem listItems_eq_ok_iff {depth : Nat} {items : List Outline} {as : List α} :
    listItems decode depth items = .ok as ↔ List.Forall₂ (fun o a => decode depth o = .ok a) items as := by
  induction items generalizing as with
  | nil => simp [listItems, eq_comm]
  | cons item items ih =>
    simp only [listItems, bind_eq_ok_iff, pure_eq_ok_iff, List.forall₂_cons_left_iff, ih]
    constructor
    · rintro ⟨a, here, as, rest, rfl⟩
      exact ⟨a, as, here, rest, rfl⟩
    · rintro ⟨a, as, here, rest, rfl⟩
      exact ⟨a, here, as, rest, rfl⟩

theorem list_array_iff {depth : Nat} {items : List Outline} {ending : Ending} {as : List α} :
    list decode depth (.array items ending) = .ok as ↔
      depth < nestingLimit ∧ List.Forall₂ (fun o a => decode (depth + 1) o = .ok a) items as ∧ ending = .closed := by
  simp only [list, bind_eq_ok_iff, enter_eq_ok_iff, pure_eq_ok_iff, ← listItems_eq_ok_iff]
  constructor
  · rintro ⟨_, ⟨room, rfl⟩, _, items, _, ended, rfl⟩
    exact ⟨room, items, Ending.read_eq_ok_iff.mp ended⟩
  · rintro ⟨room, items, ended⟩
    exact ⟨_, ⟨room, rfl⟩, as, items, (), Ending.read_eq_ok_iff.mpr ended, rfl⟩

theorem Stable.list (h : Stable shape decode) : Stable (.list shape) (list decode) := by
  intro depth o o' as distinct step read
  cases step with
  | reorder => cases read
  | item step =>
    obtain ⟨room, items, ended⟩ := list_array_iff.mp read
    exact list_array_iff.mpr ⟨room, forall₂_replace (fun a here => h distinct.item step here) items, ended⟩
  | member => cases read

end

/-! ## Records under way -/

section

variable {δ : Type} {slots : List (Slot δ)} {depth : Nat}

/-- A slot is filled with the same value after a step. -/
def Slot.Keeps (slot : Slot δ) (shape : Shape) : Prop :=
  ∀ ⦃depth : Nat⦄ ⦃o o' : Outline⦄ ⦃d d' : δ⦄, o.Distinct → Step shape o o' → slot.fill depth o d = .ok d' →
    slot.fill depth o' d = .ok d'

/-- The slots have the names of the fields and keep their shapes. -/
def Keep (slots : List (Slot δ)) (fields : List (String × Shape)) : Prop :=
  List.Forall₂ (fun slot f => slot.name = f.1 ∧ slot.Keeps f.2) slots fields

theorem Keep.exists_getElem? {fields : List (String × Shape)} (h : Keep slots fields) {i : Nat} {slot : Slot δ}
    (found : slots[i]? = some slot) : ∃ f, fields[i]? = some f ∧ slot.name = f.1 ∧ slot.Keeps f.2 := by
  induction h generalizing i with
  | nil => cases found
  | cons keeps _ ih =>
    cases i with
    | zero =>
      cases found
      exact ⟨_, rfl, keeps⟩
    | succ i => exact ih found

theorem Keep.first {α β : Type} {slots : List (Slot α)} {fields : List (String × Shape)} (h : Keep slots fields) :
    Keep (slots.map Slot.first : List (Slot (α × β))) fields := by
  refine List.forall₂_map_left_iff.mpr (h.imp fun slot f keeps => ⟨keeps.1, ?_⟩)
  intro depth o o' d d' distinct step filled
  obtain ⟨a, here, rfl⟩ := map_eq_ok_iff.mp filled
  exact map_eq_ok_iff.mpr ⟨a, keeps.2 distinct step here, rfl⟩

theorem Keep.second {α β : Type} {slots : List (Slot β)} {fields : List (String × Shape)} (h : Keep slots fields) :
    Keep (slots.map Slot.second : List (Slot (α × β))) fields := by
  refine List.forall₂_map_left_iff.mpr (h.imp fun slot f keeps => ⟨keeps.1, ?_⟩)
  intro depth o o' d d' distinct step filled
  obtain ⟨b, here, rfl⟩ := map_eq_ok_iff.mp filled
  exact map_eq_ok_iff.mpr ⟨b, keeps.2 distinct step here, rfl⟩

theorem Fills.insert {before after : List (Option String × Outline)} {name : String} {o : Outline} {d d' : δ}
    (unknown : slotFor? slots name = none) (h : Fills slots depth (before ++ after) d d') :
    Fills slots depth (before ++ (some name, o) :: after) d d' := by
  induction before generalizing d with
  | nil => exact .other unknown h
  | cons m before ih =>
    cases h with
    | known found free filled rest => exact .known found free filled (ih rest)
    | other unknown rest => exact .other unknown (ih rest)

theorem Fills.replace {before after : List (Option String × Outline)} {name : Option String} {o o' : Outline} {d d' : δ}
    (same : ∀ n slot d d', name = some n → slotFor? slots n = some slot → slot.fill depth o d = .ok d' →
      slot.fill depth o' d = .ok d')
    (h : Fills slots depth (before ++ (name, o) :: after) d d') :
    Fills slots depth (before ++ (name, o') :: after) d d' := by
  induction before generalizing d with
  | nil =>
    cases h with
    | known found free filled rest => exact .known found free (same _ _ _ _ rfl found filled) rest
    | other unknown rest => exact .other unknown rest
  | cons m before ih =>
    cases h with
    | known found free filled rest => exact .known found free filled (ih rest)
    | other unknown rest => exact .other unknown (ih rest)

theorem fillItems_replace {before after : List Outline} {item item' : Outline} {ending : Ending} {d d' : δ}
    (same : ∀ slot d d', slots[before.length]? = some slot → slot.fill depth item d = .ok d' →
      slot.fill depth item' d = .ok d')
    (h : fillItems depth ending slots (before ++ item :: after) d = .ok d') :
    fillItems depth ending slots (before ++ item' :: after) d = .ok d' := by
  induction before generalizing slots d with
  | nil =>
    cases slots with
    | nil => cases h
    | cons slot slots =>
      simp only [List.nil_append, fillItems, bind_eq_ok_iff] at h ⊢
      obtain ⟨d₁, filled, rest⟩ := h
      exact ⟨d₁, same slot d d₁ rfl filled, rest⟩
  | cons first before ih =>
    cases slots with
    | nil => cases h
    | cons slot slots =>
      simp only [List.cons_append, fillItems, bind_eq_ok_iff] at h ⊢
      obtain ⟨d₁, filled, rest⟩ := h
      exact ⟨d₁, filled, ih same rest⟩

end

/-! ## Fields put together -/

namespace Fields

variable {ρ σ : Type}

/-- The fields of a record, each with the shape of its value, can be told apart, are stable and may come in any order. -/
structure Fits (p : Fields ρ) (fields : List (String × Shape)) : Prop where
  slots : Keep p.slots fields
  nodup : (fields.map Prod.fst).Nodup
  orderless : ∀ {depth : Nat} {members members' : List (Option String × Outline)} {x : ρ},
    members.Perm members' → p.Gives depth members x → p.Gives depth members' x

theorem valuesOf_perm {members members' : List (Option String × Outline)} (h : members.Perm members') (name : String) :
    (valuesOf name members).Perm (valuesOf name members') :=
  (h.filter _).map _

/-- A list that has the items of an optional value for its values has no other order. -/
theorem forall₂_toList_of_perm {α β : Type} {R : α → β → Prop} {as as' : List α} {x : Option β} (h : as.Perm as')
    (values : List.Forall₂ R as x.toList) : List.Forall₂ R as' x.toList := by
  cases x with
  | none =>
    cases values
    rw [List.nil_perm.mp h]
    exact .nil
  | some b =>
    obtain ⟨a, _, here, none_left, rfl⟩ := List.forall₂_cons_right_iff.mp values
    cases none_left
    cases List.singleton_perm.mp h
    exact .cons here .nil

theorem Fits.field {α : Type} {name : String} {decode : Decoder α} {finish : Option α → Option ρ} {shape : Shape}
    (h : Stable shape decode) : (field name decode finish).Fits [(name, shape)] where
  slots := by
    refine .cons ⟨rfl, ?_⟩ .nil
    intro depth o o' d d' distinct step filled
    exact h.map some distinct step filled
  nodup := List.nodup_singleton name
  orderless perm gives := by
    obtain ⟨readable, found, finished, values⟩ := gives_field_iff.mp gives
    exact gives_field_iff.mpr ⟨fun m mem => readable m (perm.mem_iff.mpr mem), found, finished,
      forall₂_toList_of_perm (valuesOf_perm perm name) values⟩

theorem Fits.required (name : String) {decode : Decoder ρ} {shape : Shape} (h : Stable shape decode) :
    (Fields.required name decode).Fits [(name, shape)] :=
  .field h

theorem Fits.defaulted (name : String) {decode : Decoder ρ} {value : ρ} {shape : Shape} (h : Stable shape decode) :
    (Fields.defaulted name decode value).Fits [(name, shape)] :=
  .field h

theorem Fits.optional (name : String) {decode : Decoder ρ} {shape : Shape} (h : Stable shape decode) :
    (Fields.optional name decode).Fits [(name, shape)] :=
  .field h.optional

theorem Fits.map {p : Fields ρ} {fields : List (String × Shape)} (f : ρ → σ) (h : p.Fits fields) :
    (f <$> p).Fits fields where
  slots := h.slots
  nodup := h.nodup
  orderless perm gives := by
    obtain ⟨x, hx, rfl⟩ := gives_map_iff.mp gives
    exact gives_map_iff.mpr ⟨x, h.orderless perm hx, rfl⟩

theorem Fits.names {p : Fields ρ} {fields : List (String × Shape)} (h : p.Fits fields) :
    p.names = fields.map Prod.fst := by
  rw [Fields.names, ← List.forall₂_eq_eq_eq, List.forall₂_map_left_iff, List.forall₂_map_right_iff]
  exact h.slots.imp fun _ _ keeps => keeps.1

theorem Fits.seq {p : Fields (ρ → σ)} {q : Fields ρ} {fields fields' : List (String × Shape)} (h : p.Fits fields)
    (h' : q.Fits fields') (apart : ∀ n ∈ p.names, n ∉ q.names) : (p <*> q).Fits (fields ++ fields') where
  slots := List.rel_append h.slots.first h'.slots.second
  nodup := by
    rw [List.map_append, ← h.names, ← h'.names]
    exact List.nodup_append'.mpr ⟨h.names ▸ h.nodup, h'.names ▸ h'.nodup, apart⟩
  orderless perm gives := by
    obtain ⟨f, x, hf, hx, rfl⟩ := (gives_seq_iff apart).mp gives
    exact (gives_seq_iff apart).mpr ⟨f, x, h.orderless perm hf, h'.orderless perm hx, rfl⟩

/-- The fields stand among all fields of an object. -/
def Within (fields all : List (String × Shape)) : Prop :=
  ∀ f ∈ fields, all.lookup f.1 = some f.2

theorem lookup_of_mem {fields : List (String × Shape)} (nodup : (fields.map Prod.fst).Nodup) {f : String × Shape}
    (mem : f ∈ fields) : fields.lookup f.1 = some f.2 := by
  induction fields with
  | nil => cases mem
  | cons g fields ih =>
    rw [List.map_cons, List.nodup_cons] at nodup
    rcases List.mem_cons.mp mem with rfl | mem
    · exact List.lookup_cons_self
    · have different : (f.1 == g.1) = false := by
        rw [beq_eq_false_iff_ne]
        rintro same
        exact nodup.1 (same ▸ List.mem_map_of_mem mem)
      rw [List.lookup_cons, different]
      exact ih nodup.2 mem

variable {p : Fields ρ} {fields all : List (String × Shape)}

theorem Fits.within_self (h : p.Fits fields) : Within fields fields :=
  fun _ mem => lookup_of_mem h.nodup mem

theorem lookup_eq_none_of_not_mem {fields : List (String × Shape)} {name : String}
    (absent : name ∉ fields.map Prod.fst) : fields.lookup name = none := by
  rw [List.lookup_eq_none_iff]
  intro f hf
  rw [bne_iff_ne]
  rintro rfl
  exact absent (List.mem_map_of_mem hf)

theorem Within.mem_names (h : Within fields all) {name : String} (mem : name ∈ fields.map Prod.fst) :
    name ∈ all.map Prod.fst := by
  obtain ⟨f, hf, rfl⟩ := List.mem_map.mp mem
  by_contra absent
  have found := h f hf
  rw [lookup_eq_none_of_not_mem absent] at found
  cases found

theorem Fits.within_append_left (h : p.Fits fields) (fields' : List (String × Shape)) :
    Within fields (fields ++ fields') := by
  intro f mem
  rw [List.lookup_append, h.within_self f mem]
  rfl

theorem Fits.within_append_right {q : Fields σ} {fields' : List (String × Shape)} (h : p.Fits fields)
    (h' : q.Fits fields') (apart : ∀ n ∈ p.names, n ∉ q.names) : Within fields' (fields ++ fields') := by
  intro f mem
  have absent : f.1 ∉ fields.map Prod.fst := by
    rw [← h.names]
    exact fun known => apart f.1 known (h'.names ▸ List.mem_map_of_mem mem)
  rw [List.lookup_append, lookup_eq_none_of_not_mem absent, h'.within_self f mem]
  rfl

theorem Fits.slotFor?_eq_none (h : p.Fits fields) (within : Within fields all) {name : String}
    (unknown : name ∉ all.map Prod.fst) : slotFor? p.slots name = none := by
  refine slotFor?_eq_none_iff.mpr fun known => unknown (within.mem_names ?_)
  rw [← h.names]
  exact known

theorem Fits.keeps_of_slotFor? (h : p.Fits fields) (within : Within fields all) {name : String} {slot : Slot p.Draft}
    (found : slotFor? p.slots name = some slot) : slot.Keeps ((Shape.record all).member (some name)) := by
  obtain ⟨mem, rfl⟩ := name_of_slotFor? found
  obtain ⟨i, found⟩ := List.getElem?_of_mem mem
  obtain ⟨f, hf, named, keeps⟩ := h.slots.exists_getElem? found
  rw [Shape.member, named, within f (List.mem_of_getElem? hf)]
  exact keeps

theorem Fits.keeps_of_getElem? (h : p.Fits fields) {i : Nat} {slot : Slot p.Draft} (found : p.slots[i]? = some slot) :
    slot.Keeps ((Shape.record fields).item i) := by
  obtain ⟨f, hf, _, keeps⟩ := h.slots.exists_getElem? found
  rw [Shape.item, hf]
  exact keeps

/-! ## Records -/

variable {depth : Nat} {members members' : List (Option String × Outline)} {ending ending' : Ending} {x : ρ}

theorem Fits.gives (h : p.Fits fields) (within : Within fields all) (distinct : (Outline.object members ending).Distinct)
    (step : Step (.record all) (.object members ending) (.object members' ending')) (gives : p.Gives depth members x) :
    p.Gives depth members' x := by
  cases step with
  | reorder perm => exact h.orderless perm gives
  | insert unknown =>
    obtain ⟨d, filled, finished⟩ := gives
    exact ⟨d, filled.insert (h.slotFor?_eq_none within unknown), finished⟩
  | member step =>
    obtain ⟨d, filled, finished⟩ := gives
    refine ⟨d, filled.replace ?_, finished⟩
    rintro name slot d d' rfl found filled
    exact h.keeps_of_slotFor? within found distinct.member step filled

theorem Fits.ofVetted? (h : p.Fits fields) (within : Within fields all)
    (distinct : (Outline.object members ending).Distinct)
    (step : Step (.record all) (.object members ending) (.object members' ending'))
    (found : p.ofVetted? members = some x) : p.ofVetted? members' = some x := by
  obtain ⟨gives, skipped⟩ := ofVetted?_eq_some_iff.mp found
  exact ofVetted?_eq_some_iff.mpr ⟨h.gives within distinct step gives, step.skip_others skipped⟩

theorem Fits.fillItems (h : p.Fits fields) {before after : List Outline} {item item' : Outline} (distinct : item.Distinct)
    (step : Step ((Shape.record fields).item before.length) item item') {d d' : p.Draft}
    (filled : fillItems depth ending p.slots (before ++ item :: after) d = .ok d') :
    fillItems depth ending p.slots (before ++ item' :: after) d = .ok d' :=
  fillItems_replace (fun _ _ _ found filled => h.keeps_of_getElem? found distinct step filled) filled

theorem ofVettedItems?_eq_some_iff {items : List Outline} :
    p.ofVettedItems? items = some x ↔
      ∃ d, Json.fillItems 0 .closed p.slots items p.blank = .ok d ∧ p.finish d = some x := by
  rw [ofVettedItems?]
  cases Json.fillItems 0 .closed p.slots items p.blank <;> simp

theorem Fits.ofVettedItems? (h : p.Fits fields) {before after : List Outline} {item item' : Outline}
    (distinct : item.Distinct) (step : Step ((Shape.record fields).item before.length) item item')
    (found : p.ofVettedItems? (before ++ item :: after) = some x) :
    p.ofVettedItems? (before ++ item' :: after) = some x := by
  obtain ⟨d, filled, finished⟩ := ofVettedItems?_eq_some_iff.mp found
  exact ofVettedItems?_eq_some_iff.mpr ⟨d, h.fillItems distinct step filled, finished⟩

end Fields

section

variable {α β ρ : Type} {depth : Nat} {ending : Ending}

theorem record_array_iff {p : Fields ρ} {items : List Outline} {x : ρ} :
    record p depth (.array items ending) = .ok x ↔
      depth < nestingLimit ∧ ∃ d, fillItems (depth + 1) ending p.slots items p.blank = .ok d ∧ p.finish d = some x := by
  simp only [record, bind_eq_ok_iff, enter_eq_ok_iff, complete_eq_ok_iff]
  constructor
  · rintro ⟨_, ⟨room, rfl⟩, d, filled, finished⟩
    exact ⟨room, d, filled, finished⟩
  · rintro ⟨room, d, filled, finished⟩
    exact ⟨_, ⟨room, rfl⟩, d, filled, finished⟩

theorem Fields.Fits.record {p : Fields ρ} {fields : List (String × Shape)} (h : p.Fits fields) :
    Stable (.record fields) (Json.record p) := by
  intro depth o o' x distinct step read
  cases o with
  | object members ending =>
    obtain ⟨members', rfl⟩ := step.exists_eq_object
    obtain ⟨room, ended, gives, skipped⟩ := record_object_iff.mp read
    exact record_object_iff.mpr ⟨room, ended, h.gives h.within_self distinct step gives, step.skip_others skipped⟩
  | array items ending =>
    cases step with
    | item step =>
      obtain ⟨room, d, filled, finished⟩ := record_array_iff.mp read
      exact record_array_iff.mpr ⟨room, d, h.fillItems distinct.item step filled, finished⟩
  | _ => cases step

theorem Fields.Fits.flattened {outer : Fields α} {inner : Fields β} {fields fields' : List (String × Shape)}
    (ho : outer.Fits fields) (hi : inner.Fits fields') (apart : ∀ n ∈ outer.names, n ∉ inner.names) :
    Stable (.record (fields ++ fields')) (Json.flattened outer inner) := by
  intro depth o o' x distinct step read
  cases o with
  | object members ending =>
    obtain ⟨members', rfl⟩ := step.exists_eq_object
    obtain ⟨room, ended, gives, vetted, found⟩ := flattened_object_iff.mp read
    -- The inner record is handed the other members only, and among them the step is still a step.
    exact flattened_object_iff.mpr ⟨room, ended, ho.gives (ho.within_append_left _) distinct step gives,
      step.vet_others vetted, hi.ofVetted? (ho.within_append_right hi apart) (distinct_others distinct _ .closed)
        (step.others _ .closed) found⟩
  | array => cases read
  | _ => cases step

theorem tagged_array_iff {tag : String} {choose : String → Option α} {shape : α → Fields ρ} {first : Outline}
    {rest : List Outline} {x : ρ} :
    tagged tag choose shape depth (.array (first :: rest) ending) = .ok x ↔
      depth < nestingLimit ∧ ending = .closed ∧ ∃ chosen, named choose (depth + 1) first = .ok chosen ∧
        (∀ item ∈ rest, vet (depth + 1) item = .ok ()) ∧ (shape chosen).ofVettedItems? rest = some x := by
  simp only [tagged, bind_eq_ok_iff, enter_eq_ok_iff, complete_eq_ok_iff, ← vetItems_iff]
  constructor
  · rintro ⟨_, ⟨room, rfl⟩, chosen, hc, _, vetted, _, ended, found⟩
    exact ⟨room, Ending.read_eq_ok_iff.mp ended, chosen, hc, vetted, found⟩
  · rintro ⟨room, ended, chosen, hc, vetted, found⟩
    exact ⟨_, ⟨room, rfl⟩, chosen, hc, (), vetted, (), Ending.read_eq_ok_iff.mpr ended, found⟩

/-- A step in a tagged record whose fields are those of the shape that was read. -/
theorem tagged_step {tag : String} {choose : String → Option α} {shape : α → Fields ρ}
    {fields : α → List (String × Shape)} {kind : ρ → α} (fits : ∀ c, (shape c).Fits (fields c))
    (free : ∀ c, tag ∉ (shape c).names) (kinds : ∀ c d x, (shape c).finish d = some x → kind x = c) {o o' : Outline}
    {x : ρ} (distinct : o.Distinct) (step : Step (.record ((tag, .any) :: fields (kind x))) o o')
    (read : tagged tag choose shape depth o = .ok x) : tagged tag choose shape depth o' = .ok x := by
  cases o with
  | object members ending =>
    obtain ⟨members', rfl⟩ := step.exists_eq_object
    obtain ⟨room, ended, chosen, tagGives, vetted, found⟩ := tagged_object_iff.mp read
    obtain ⟨⟨d, _, finished⟩, _⟩ := Fields.ofVetted?_eq_some_iff.mp found
    obtain rfl := kinds chosen d x finished
    have tagFits : (Fields.required tag (named choose)).Fits [(tag, .any)] := .required tag stable_named
    have apart : ∀ n ∈ (Fields.required tag (named choose)).names, n ∉ (shape (kind x)).names := by
      simpa using free (kind x)
    exact tagged_object_iff.mpr ⟨room, ended, kind x, tagFits.gives (tagFits.within_append_left _) distinct step tagGives,
      step.vet_others vetted, (fits _).ofVetted? (tagFits.within_append_right (fits _) apart)
        (distinct_others distinct _ .closed) (step.others _ .closed) found⟩
  | array items ending =>
    cases step with
    | @item _ before after item item' _ step =>
      cases before with
      | nil =>
        obtain ⟨room, ended, chosen, hc, rest⟩ := tagged_array_iff.mp read
        exact tagged_array_iff.mpr ⟨room, ended, chosen, stable_named distinct.item step hc, rest⟩
      | cons first before =>
        rw [List.cons_append] at read ⊢
        obtain ⟨room, ended, chosen, hc, vetted, found⟩ := tagged_array_iff.mp read
        obtain ⟨d, _, finished⟩ := Fields.ofVettedItems?_eq_some_iff.mp found
        obtain rfl := kinds chosen d x finished
        refine tagged_array_iff.mpr ⟨room, ended, kind x, hc, ?_, (fits _).ofVettedItems? distinct.item step found⟩
        rw [List.forall_mem_append, List.forall_mem_cons] at vetted ⊢
        exact ⟨vetted.1, step.vet vetted.2.1, vetted.2.2⟩
  | _ => cases step

/-! ## Objects with any names -/

theorem pairItems_eq_ok_iff {decode : Decoder α} {members : List (Option String × Outline)}
    {entries : List (String × α)} :
    pairItems decode depth members = .ok entries ↔
      List.Forall₂ (fun m e => m.1 = some e.1 ∧ decode depth m.2 = .ok e.2) members entries := by
  induction members generalizing entries with
  | nil => simp [pairItems, eq_comm]
  | cons m members ih =>
    obtain ⟨name, o⟩ := m
    cases name with
    | none => simp [pairItems, List.forall₂_cons_left_iff]
    | some name =>
      simp only [pairItems, bind_eq_ok_iff, pure_eq_ok_iff, List.forall₂_cons_left_iff, ih]
      constructor
      · rintro ⟨a, here, entries, rest, rfl⟩
        exact ⟨(name, a), entries, ⟨rfl, here⟩, rest, rfl⟩
      · rintro ⟨⟨_, a⟩, entries, ⟨⟨⟩, here⟩, rest, rfl⟩
        exact ⟨a, here, entries, rest, rfl⟩

theorem pairs_object_iff {decode : Decoder α} {members : List (Option String × Outline)} {entries : List (String × α)} :
    pairs decode depth (.object members ending) = .ok entries ↔
      depth < nestingLimit ∧ ending = .closed ∧
        List.Forall₂ (fun m e => m.1 = some e.1 ∧ decode (depth + 1) m.2 = .ok e.2) members entries := by
  simp only [pairs, bind_eq_ok_iff, enter_eq_ok_iff, pure_eq_ok_iff, ← pairItems_eq_ok_iff]
  constructor
  · rintro ⟨_, ⟨room, rfl⟩, _, found, _, ended, rfl⟩
    exact ⟨room, Ending.read_eq_ok_iff.mp ended, found⟩
  · rintro ⟨room, ended, found⟩
    exact ⟨_, ⟨room, rfl⟩, entries, found, (), Ending.read_eq_ok_iff.mpr ended, rfl⟩

/-- A step in an object with any names changes the order of what is read, and nothing else. -/
theorem Stable.pairs {decode : Decoder α} {shape : Shape} (h : Stable shape decode) {o o' : Outline}
    (distinct : o.Distinct) (step : Step (.map shape) o o') {entries : List (String × α)}
    (read : pairs decode depth o = .ok entries) :
    ∃ entries', Json.pairs decode depth o' = .ok entries' ∧ entries'.Perm entries ∧ (entries.map Prod.fst).Nodup := by
  cases o with
  | object members ending =>
    obtain ⟨room, ended, values⟩ := pairs_object_iff.mp read
    have names : members.filterMap Prod.fst = entries.map Prod.fst := by
      clear read distinct step
      induction values with
      | nil => rfl
      | cons here _ ih => rw [List.filterMap_cons_some here.1, List.map_cons, ih]
    have nodup := (distinct_object_iff.mp distinct).1
    rw [names] at nodup
    cases step with
    | reorder perm =>
      obtain ⟨entries', values', perm'⟩ := List.perm_comp_forall₂ perm.symm values
      exact ⟨entries', pairs_object_iff.mpr ⟨room, ended, values'⟩, perm', nodup⟩
    | member step =>
      refine ⟨entries, pairs_object_iff.mpr ⟨room, ended, forall₂_replace ?_ values⟩, .refl _, nodup⟩
      exact fun _ here => ⟨here.1, h distinct.member step here.2⟩
  | array => cases read
  | _ => cases step

end

end ProgramGraph.Json
