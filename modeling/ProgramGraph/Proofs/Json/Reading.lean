import ProgramGraph.Proofs.Json.Document
import ProgramGraph.Proofs.Json.Fields
import ProgramGraph.Proofs.Number.Binary64

/-!
# ProgramGraph.Proofs.Json.Reading

Reading what was written.

* `Document.ReadsAs`  — a decoder takes a written value for the one it was written for. There is a law for each decoder.
* `Fields.Restores`   — written members give a record; members of other fields may stand between them.
* `Document.ReadsAs.read_compact` — reading the text of such a value succeeds.
-/

namespace ProgramGraph.Json

open Document

/-- A decoder takes a written value for `a`, wherever `levels` more arrays and objects may be opened. -/
structure Document.ReadsAs {α : Type} (d : Document) (decode : Decoder α) (levels : Nat) (a : α) : Prop where
  plain : d.holdsReal = false
  reads : ∀ depth, depth + levels ≤ nestingLimit → decode depth d.outline = .ok a

theorem Document.ReadsAs.read_compact {α : Type} {d : Document} {decode : Decoder α} {levels : Nat} {a : α}
    (h : d.ReadsAs decode levels a) (room : levels ≤ nestingLimit) : read decode d.compact = .ok a := by
  rw [Json.read_compact decode h.plain]
  exact h.reads 0 (by omega)

/-! ## Plain values -/

section

variable {levels : Nat}

theorem readsAs_text (s : String) : (Document.text s).ReadsAs text levels s :=
  ⟨rfl, fun _ _ => rfl⟩

theorem readsAs_bool (b : Bool) : (Document.bool b).ReadsAs bool levels b :=
  ⟨rfl, fun _ _ => rfl⟩

theorem outline_natural (n : Nat) : (Document.int n).outline = .number ⟨false, n, 0, true⟩ := by
  simp [Document.outline]

theorem readsAs_word32 (n : UInt32) : (Document.int n.toNat).ReadsAs word32 levels n := by
  refine ⟨rfl, fun depth _ => ?_⟩
  have below : n.toNat < UInt32.size := n.toNat_lt
  rw [outline_natural]
  simp [word32, natural, Numeral.natural?, below, Except.map]

theorem readsAs_choice {α : Type} {choose : String → Option α} {name : String} {a : α} (h : choose name = some a) :
    (Document.text name).ReadsAs (choice choose) levels a := by
  refine ⟨rfl, fun depth _ => ?_⟩
  simp only [Document.outline, choice, h]

theorem readsAs_vettedChoice {α : Type} {choose : String → Option α} {name : String} {a : α}
    (h : choose name = some a) : (Document.text name).ReadsAs (vettedChoice choose) levels a := by
  refine ⟨rfl, fun depth _ => ?_⟩
  simp only [Document.outline, vettedChoice, h]

theorem readsAs_named {α : Type} {choose : String → Option α} {name : String} {a : α} (h : choose name = some a) :
    (Document.text name).ReadsAs (named choose) levels a := by
  refine ⟨rfl, fun depth _ => ?_⟩
  simp only [Document.outline, named, h]

/-! ## Lists and values that may be absent -/

variable {α : Type} {decode : Decoder α} {write : α → Document}

theorem readsAs_orNull {x : Option α} (h : ∀ a, x = some a → (write a).ReadsAs decode levels a)
    (filled : ∀ a, (write a).outline ≠ .null) : (Document.orNull write x).ReadsAs (optional decode) levels x := by
  cases x with
  | none => exact ⟨rfl, fun _ _ => rfl⟩
  | some a =>
    refine ⟨(h a rfl).plain, fun depth room => ?_⟩
    have reads : (decode depth (write a).outline).map some = .ok (some a) := by
      rw [(h a rfl).reads depth room]
      rfl
    rw [orNull]
    cases outline : (write a).outline with
    | null => exact absurd outline (filled a)
    | _ => rw [outline] at reads; exact reads

theorem listItems_itemOutlines {depth : Nat} {as : List α} (h : ∀ a ∈ as, decode depth (write a).outline = .ok a) :
    listItems decode depth (itemOutlines (as.map write)) = .ok as := by
  induction as with
  | nil => rfl
  | cons a as ih =>
    obtain ⟨first, others⟩ := List.forall_mem_cons.mp h
    rw [List.map_cons, itemOutlines, listItems, first, ih others]
    rfl

theorem someItemHoldsReal_map {as : List α} (h : ∀ a ∈ as, (write a).holdsReal = false) :
    someItemHoldsReal (as.map write) = false := by
  induction as with
  | nil => rfl
  | cons a as ih =>
    obtain ⟨first, others⟩ := List.forall_mem_cons.mp h
    rw [List.map_cons, someItemHoldsReal, first, ih others]
    rfl

theorem readsAs_list {as : List α} (h : ∀ a ∈ as, (write a).ReadsAs decode levels a) :
    (Document.list (as.map write)).ReadsAs (list decode) (levels + 1) as := by
  refine ⟨someItemHoldsReal_map fun a ha => (h a ha).plain, fun depth room => ?_⟩
  have items : listItems decode (depth + 1) (itemOutlines (as.map write)) = .ok as :=
    listItems_itemOutlines fun a ha => (h a ha).reads (depth + 1) (by omega)
  have inside : enter depth = .ok (depth + 1) := enter_eq_ok_iff.mpr ⟨by omega, rfl⟩
  simp only [Document.outline, list, inside, items, bind, Except.bind, Ending.read, pure, Except.pure]

end

/-! ## Records -/

namespace Fields

variable {ρ σ : Type} {levels : Nat} {members : List (String × Document)}

/-- Written members give a record, wherever `levels` more arrays and objects may be opened. -/
structure Restores (p : Fields ρ) (levels : Nat) (members : List (String × Document)) (x : ρ) : Prop where
  plain : ∀ m ∈ members, m.1 ∈ p.names → m.2.holdsReal = false
  gives : ∀ depth, depth + levels ≤ nestingLimit → p.Gives depth (memberOutlines members) x

theorem readable_memberOutlines (members : List (String × Document)) : Readable (memberOutlines members) := by
  rw [memberOutlines_eq]
  intro m hm
  obtain ⟨_, _, rfl⟩ := List.mem_map.mp hm
  rfl

theorem valuesOf_memberOutlines (name : String) (members : List (String × Document)) :
    valuesOf name (memberOutlines members) = (members.filter fun m => m.1 = name).map fun m => m.2.outline := by
  rw [memberOutlines_eq, valuesOf, List.filter_map, List.map_map]
  simp [Function.comp_def]

theorem Restores.field {α : Type} {name : String} {decode : Decoder α} {finish : Option α → Option ρ} {d : Document}
    {a : α} {x : ρ} (only : (members.filter fun m => m.1 = name) = [(name, d)]) (h : d.ReadsAs decode levels a)
    (finished : finish (some a) = some x) : (Fields.field name decode finish).Restores levels members x where
  plain m hm named := by
    have mem : m ∈ members.filter fun m => m.1 = name := by
      simpa [hm] using named
    rw [only, List.mem_singleton] at mem
    rw [mem]
    exact h.plain
  gives depth room := by
    refine gives_field_iff.mpr ⟨readable_memberOutlines members, some a, finished, ?_⟩
    rw [valuesOf_memberOutlines, only]
    exact .cons (h.reads depth room) .nil

theorem Restores.required {name : String} {decode : Decoder ρ} {d : Document} {x : ρ}
    (only : (members.filter fun m => m.1 = name) = [(name, d)]) (h : d.ReadsAs decode levels x) :
    (Fields.required name decode).Restores levels members x :=
  .field only h rfl

theorem Restores.defaulted {name : String} {decode : Decoder ρ} {value : ρ} {d : Document} {x : ρ}
    (only : (members.filter fun m => m.1 = name) = [(name, d)]) (h : d.ReadsAs decode levels x) :
    (Fields.defaulted name decode value).Restores levels members x :=
  .field only h rfl

theorem Restores.optional {name : String} {decode : Decoder ρ} {d : Document} {x : Option ρ}
    (only : (members.filter fun m => m.1 = name) = [(name, d)]) (h : d.ReadsAs (Json.optional decode) levels x) :
    (Fields.optional name decode).Restores levels members x :=
  .field only h rfl

theorem Restores.map {p : Fields ρ} {x : ρ} (f : ρ → σ) (h : p.Restores levels members x) :
    (f <$> p).Restores levels members (f x) where
  plain := h.plain
  gives depth room := gives_map_iff.mpr ⟨x, h.gives depth room, rfl⟩

theorem Restores.seq {p : Fields (ρ → σ)} {q : Fields ρ} {f : ρ → σ} {x : ρ} (h : p.Restores levels members f)
    (h' : q.Restores levels members x) (apart : ∀ n ∈ p.names, n ∉ q.names) :
    (p <*> q).Restores levels members (f x) where
  plain m hm named := by
    rw [names_seq, List.mem_append] at named
    exact named.elim (h.plain m hm) (h'.plain m hm)
  gives depth room := (gives_seq_iff apart).mpr ⟨f, x, h.gives depth room, h'.gives depth room, rfl⟩

theorem someMemberHoldsReal_eq_false {members : List (String × Document)} (h : ∀ m ∈ members, m.2.holdsReal = false) :
    someMemberHoldsReal members = false := by
  induction members with
  | nil => rfl
  | cons m members ih =>
    obtain ⟨first, others⟩ := List.forall_mem_cons.mp h
    rw [someMemberHoldsReal, first, ih others]
    rfl

/-- No other members are left. -/
theorem others_memberOutlines_eq_nil {names : List String} (h : ∀ m ∈ members, m.1 ∈ names) :
    others names (memberOutlines members) = [] := by
  rw [memberOutlines_eq, others, List.filter_eq_nil_iff]
  intro m hm
  obtain ⟨m, mem, rfl⟩ := List.mem_map.mp hm
  simpa using h m mem

theorem Restores.readsAs {p : Fields ρ} {x : ρ} (h : p.Restores levels members x)
    (complete : ∀ m ∈ members, m.1 ∈ p.names) : (Document.record members).ReadsAs (record p) (levels + 1) x where
  plain := someMemberHoldsReal_eq_false fun m hm => h.plain m hm (complete m hm)
  reads depth room := by
    refine record_object_iff.mpr ⟨by omega, rfl, h.gives (depth + 1) (by omega), ?_⟩
    rw [others_memberOutlines_eq_nil complete]
    nofun

end Fields

/-! ## Vetted values -/

section

variable {levels : Nat}

theorem vets_text (s : String) : (Document.text s).ReadsAs vet levels () :=
  ⟨rfl, fun _ _ => rfl⟩

theorem vets_bool (b : Bool) : (Document.bool b).ReadsAs vet levels () :=
  ⟨rfl, fun _ _ => rfl⟩

theorem vets_int {n : Int} (h : n.natAbs < 2 ^ 64) : (Document.int n).ReadsAs vet levels () := by
  refine ⟨rfl, fun depth _ => ?_⟩
  have inside : Numeral.inRange ⟨n < 0, n.natAbs, 0, true⟩ = true := Number.Binary64.isSome_ofDecimal? _ h
  simp [Document.outline, vet, inside]

theorem vets_word32 (n : UInt32) : (Document.int n.toNat).ReadsAs vet levels () :=
  vets_int (by have := n.toNat_lt; omega)

theorem vets_orNull_text (x : Option String) : (Document.orNull .text x).ReadsAs vet levels () := by
  cases x with
  | none => exact ⟨rfl, fun _ _ => rfl⟩
  | some s => exact vets_text s

end

/-! ## Records in which others stand, and records of one of several shapes -/

theorem others_memberOutlines_append (names : List String) (members members' : List (String × Document)) :
    others names (memberOutlines (members ++ members')) =
      others names (memberOutlines members) ++ others names (memberOutlines members') := by
  simp only [memberOutlines_eq, List.map_append, others, List.filter_append]

/-- Members under other names are left. -/
theorem others_memberOutlines_eq_self {names : List String} {members : List (String × Document)}
    (h : ∀ m ∈ members, m.1 ∉ names) : others names (memberOutlines members) = memberOutlines members := by
  rw [memberOutlines_eq, others, List.filter_eq_self]
  intro m hm
  obtain ⟨m, mem, rfl⟩ := List.mem_map.mp hm
  have := h m mem
  simp only [ne_eq, Option.some.injEq, decide_eq_true_eq]
  rintro n hn rfl
  exact this hn

section

variable {α β ρ : Type} {levels : Nat}

theorem Document.ReadsAs.map {d : Document} {decode : Decoder α} {a : α} (f : α → β) (h : d.ReadsAs decode levels a) :
    d.ReadsAs (fun depth o => (decode depth o).map f) levels (f a) :=
  ⟨h.plain, fun depth room => by rw [h.reads depth room]; rfl⟩

theorem readsAs_flattened {outer : Fields α} {inner : Fields β} {inners outers : List (String × Document)} {a : α}
    {b : β} (ho : outer.Restores levels (inners ++ outers) a) (hi : inner.Restores levels inners b)
    (vets : ∀ m ∈ inners, m.2.ReadsAs vet levels ()) (complete : ∀ m ∈ inners, m.1 ∈ inner.names)
    (free : ∀ m ∈ inners, m.1 ∉ outer.names) (complete' : ∀ m ∈ outers, m.1 ∈ outer.names) :
    (Document.record (inners ++ outers)).ReadsAs (flattened outer inner) (levels + 1) (a, b) where
  plain := by
    refine Fields.someMemberHoldsReal_eq_false fun m hm => ?_
    rcases List.mem_append.mp hm with mem | mem
    · exact (vets m mem).plain
    · exact ho.plain m hm (complete' m mem)
  reads depth room := by
    have left : others outer.names (memberOutlines (inners ++ outers)) = memberOutlines inners := by
      rw [others_memberOutlines_append, others_memberOutlines_eq_self free,
        Fields.others_memberOutlines_eq_nil complete', List.append_nil]
    refine flattened_object_iff.mpr ⟨by omega, rfl, ho.gives (depth + 1) (by omega), ?_, ?_⟩
    · rw [left, memberOutlines_eq]
      intro m hm
      obtain ⟨m, mem, rfl⟩ := List.mem_map.mp hm
      exact (vets m mem).reads (depth + 1) (by omega)
    · rw [left]
      refine Fields.ofVetted?_eq_some_iff.mpr ⟨hi.gives 0 (by omega), ?_⟩
      rw [Fields.others_memberOutlines_eq_nil complete]
      nofun

theorem readsAs_tagged {tag : String} {choose : String → Option α} {shape : α → Fields ρ} {name : String} {chosen : α}
    {handles : List (String × Document)} {x : ρ} (h : choose name = some chosen)
    (hs : (shape chosen).Restores levels handles x) (vets : ∀ m ∈ handles, m.2.ReadsAs vet levels ())
    (complete : ∀ m ∈ handles, m.1 ∈ (shape chosen).names) (free : ∀ m ∈ handles, m.1 ∉ [tag]) :
    (Document.record ((tag, .text name) :: handles)).ReadsAs (tagged tag choose shape) (levels + 1) x where
  plain := by
    refine Fields.someMemberHoldsReal_eq_false (List.forall_mem_cons.mpr ⟨rfl, fun m hm => ?_⟩)
    exact (vets m hm).plain
  reads depth room := by
    have only : (((tag, Document.text name) :: handles).filter fun m => m.1 = tag) = [(tag, .text name)] := by
      rw [List.filter_cons_of_pos (by simp), List.filter_eq_nil_iff.mpr]
      intro m hm
      simpa using free m hm
    have tagged : (Fields.required tag (named choose)).Restores levels _ chosen := .required only (readsAs_named h)
    have left : others [tag] (memberOutlines ((tag, .text name) :: handles)) = memberOutlines handles := by
      have first : others [tag] (memberOutlines [(tag, .text name)]) = [] :=
        Fields.others_memberOutlines_eq_nil (by simp)
      have all := others_memberOutlines_append [tag] [(tag, .text name)] handles
      rwa [first, others_memberOutlines_eq_self free] at all
    refine tagged_object_iff.mpr ⟨by omega, rfl, chosen, tagged.gives (depth + 1) (by omega), ?_, ?_⟩
    · rw [left, memberOutlines_eq]
      intro m hm
      obtain ⟨m, mem, rfl⟩ := List.mem_map.mp hm
      exact (vets m mem).reads (depth + 1) (by omega)
    · rw [left]
      refine Fields.ofVetted?_eq_some_iff.mpr ⟨hs.gives 0 (by omega), ?_⟩
      rw [Fields.others_memberOutlines_eq_nil complete]
      nofun

theorem pairItems_memberOutlines {decode : Decoder α} {write : α → Document} {depth : Nat} {entries : List (String × α)}
    (h : ∀ e ∈ entries, decode depth (write e.2).outline = .ok e.2) :
    pairItems decode depth (memberOutlines (entries.map fun e => (e.1, write e.2))) = .ok entries := by
  induction entries with
  | nil => rfl
  | cons e entries ih =>
    obtain ⟨first, others⟩ := List.forall_mem_cons.mp h
    rw [List.map_cons, memberOutlines, pairItems, first, ih others]
    rfl

theorem readsAs_pairs {decode : Decoder α} {write : α → Document} {entries : List (String × α)}
    (h : ∀ e ∈ entries, (write e.2).ReadsAs decode levels e.2) :
    (Document.record (entries.map fun e => (e.1, write e.2))).ReadsAs (pairs decode) (levels + 1) entries where
  plain := by
    refine Fields.someMemberHoldsReal_eq_false fun m hm => ?_
    obtain ⟨e, he, rfl⟩ := List.mem_map.mp hm
    exact (h e he).plain
  reads depth room := by
    have members : pairItems decode (depth + 1) (memberOutlines (entries.map fun e => (e.1, write e.2))) = .ok entries :=
      pairItems_memberOutlines fun e he => (h e he).reads (depth + 1) (by omega)
    have inside : enter depth = .ok (depth + 1) := enter_eq_ok_iff.mpr ⟨by omega, rfl⟩
    simp only [Document.outline, pairs, inside, members, bind, Except.bind, Ending.read, pure, Except.pure]

end

end ProgramGraph.Json
