import ProgramGraph.Graph.Entity
import ProgramGraph.Store.Rows

/-!
# ProgramGraph.Proofs.Graph.Identifier

Ids say what they stand for.

* `EntityKey.toList_id`    — an id is the name of a kind and then the handles, each behind a colon.
* `EntityKey.id_injective` — neither names nor handles hold a colon, so different keys have different ids.
* `scopedId_injective`     — no id holds a slash, so the scope and the key can both be read off a scoped id.
-/

namespace ProgramGraph.Graph

/-- A list is split at the first place of an element in one way only. -/
theorem append_cons_injective {α : Type} {c : α} {xs ys s t : List α} (hx : c ∉ xs) (hy : c ∉ ys)
    (h : xs ++ c :: s = ys ++ c :: t) : xs = ys ∧ s = t := by
  induction xs generalizing ys with
  | nil =>
    cases ys with
    | nil => exact ⟨rfl, (List.cons.inj h).2⟩
    | cons y ys =>
      obtain ⟨same, -⟩ := List.cons.inj h
      exact absurd (same ▸ List.mem_cons_self) hy
  | cons x xs ih =>
    cases ys with
    | nil =>
      obtain ⟨same, -⟩ := List.cons.inj h
      exact absurd (same ▸ List.mem_cons_self) hx
    | cons y ys =>
      obtain ⟨same, rest⟩ := List.cons.inj h
      rw [List.mem_cons, not_or] at hx hy
      obtain ⟨front, back⟩ := ih hx.2 hy.2 rest
      exact ⟨by rw [same, front], back⟩

theorem not_mem_toDigits {n : Nat} {c : Char} (h : c.isDigit = false) : c ∉ Nat.toDigits 10 n := by
  intro mem
  rw [Nat.isDigit_of_mem_toDigits (by decide) (by decide) mem] at h
  cases h

theorem toDigits_injective {m n : Nat} (h : Nat.toDigits 10 m = Nat.toDigits 10 n) : m = n := by
  calc m = Nat.ofDigitChars 10 (Nat.toDigits 10 m) 0 := Nat.ofDigitChars_ten_toDigits.symm
    _ = Nat.ofDigitChars 10 (Nat.toDigits 10 n) 0 := by rw [h]
    _ = n := Nat.ofDigitChars_ten_toDigits

namespace EntityKind

theorem colon_not_mem_name (k : EntityKind) : ':' ∉ k.name.toList := by
  cases k <;> decide

theorem slash_not_mem_name (k : EntityKind) : '/' ∉ k.name.toList := by
  cases k <;> decide

theorem name_injective {k k' : EntityKind} (h : k.name.toList = k'.name.toList) : k = k' := by
  have same : k.name = k'.name := String.toList_inj.mp h
  revert same
  cases k <;> cases k' <;> decide

end EntityKind

theorem Relation.name_injective {r r' : Relation} (h : r.name = r'.name) : r = r' := by
  revert h
  cases r <;> cases r' <;> decide

theorem Relation.name_ne_empty (r : Relation) : r.name ≠ "" := by
  cases r <;> decide

namespace EntityKey

/-- Handles in an id: each stands behind a colon. -/
def handleChars : List Nat → List Char
  | [] => []
  | n :: rest => ':' :: (Nat.toDigits 10 n ++ handleChars rest)

theorem toList_foldl_handles (handles : List Nat) (s : String) :
    (handles.foldl (fun s n => s ++ ":" ++ n.repr) s).toList = s.toList ++ handleChars handles := by
  induction handles generalizing s with
  | nil => simp [handleChars]
  | cons n rest ih =>
    rw [List.foldl_cons, ih, String.toList_append, String.toList_append, Nat.toList_repr, handleChars]
    simp

theorem toList_id (k : EntityKey) : k.id.toList = k.kind.name.toList ++ handleChars k.handles :=
  toList_foldl_handles k.handles k.kind.name

/-- What stands before the first colon can be read off, and so can the handles. -/
theorem append_handleChars_injective {xs ys : List Char} {a b : List Nat} (hx : ':' ∉ xs) (hy : ':' ∉ ys)
    (h : xs ++ handleChars a = ys ++ handleChars b) : xs = ys ∧ a = b := by
  induction a generalizing xs ys b with
  | nil =>
    cases b with
    | nil => simpa [handleChars] using h
    | cons n rest =>
      rw [handleChars, List.append_nil] at h
      exact absurd (h ▸ List.mem_append_right _ List.mem_cons_self) hx
  | cons m rest ih =>
    cases b with
    | nil =>
      rw [handleChars, handleChars, List.append_nil] at h
      exact absurd (h ▸ List.mem_append_right _ List.mem_cons_self) hy
    | cons n rest' =>
      rw [handleChars, handleChars] at h
      obtain ⟨front, back⟩ := append_cons_injective hx hy h
      obtain ⟨digits, same⟩ := ih (not_mem_toDigits (by decide)) (not_mem_toDigits (by decide)) back
      exact ⟨front, by rw [toDigits_injective digits, same]⟩

theorem eq_of_kind_of_handles {a b : EntityKey} (kind : a.kind = b.kind) (handles : a.handles = b.handles) : a = b := by
  cases a with
  | node r =>
    cases b with
    | node r' =>
      simp only [EntityKey.handles, List.cons.injEq, and_true, UInt32.toNat_inj] at handles
      obtain ⟨_, _⟩ := r
      obtain ⟨_, _⟩ := r'
      simp_all
    | symbol => cases kind
    | type => cases kind
  | symbol d =>
    cases b with
    | symbol d' =>
      simp only [EntityKey.handles, List.cons.injEq, and_true, UInt32.toNat_inj] at handles
      obtain ⟨_⟩ := d
      obtain ⟨_⟩ := d'
      simp_all
    | node => cases kind
    | type => cases kind
  | type t =>
    cases b with
    | type t' =>
      simp only [EntityKey.handles, List.cons.injEq, and_true, UInt32.toNat_inj] at handles
      obtain ⟨_⟩ := t
      obtain ⟨_⟩ := t'
      simp_all
    | node => cases kind
    | symbol => cases kind

/-- Different keys have different ids. -/
theorem id_injective {a b : EntityKey} (h : a.id = b.id) : a = b := by
  have chars := congrArg String.toList h
  rw [toList_id, toList_id] at chars
  obtain ⟨name, handles⟩ :=
    append_handleChars_injective a.kind.colon_not_mem_name b.kind.colon_not_mem_name chars
  exact eq_of_kind_of_handles (EntityKind.name_injective name) handles

theorem slash_not_mem_handleChars (handles : List Nat) : '/' ∉ handleChars handles := by
  induction handles with
  | nil => simp [handleChars]
  | cons n rest ih =>
    rw [handleChars, List.mem_cons, List.mem_append, not_or, not_or]
    exact ⟨by decide, not_mem_toDigits (by decide), ih⟩

theorem slash_not_mem_id (k : EntityKey) : '/' ∉ k.id.toList := by
  rw [toList_id, List.mem_append, not_or]
  exact ⟨k.kind.slash_not_mem_name, slash_not_mem_handleChars k.handles⟩

end EntityKey
end ProgramGraph.Graph

namespace ProgramGraph.Store

open ProgramGraph.Graph

theorem toList_scopedId_some (s id : String) : (scopedId (some s) id).toList = s.toList ++ '/' :: id.toList := by
  rw [scopedId, String.toList_append, String.toList_append]
  simp

/-- What stands before the last slash can be read off. -/
theorem append_slash_injective {xs ys as bs : List Char} (ha : '/' ∉ as) (hb : '/' ∉ bs)
    (h : xs ++ '/' :: as = ys ++ '/' :: bs) : xs = ys ∧ as = bs := by
  have reversed := congrArg List.reverse h
  simp only [List.reverse_append, List.reverse_cons, List.append_assoc, List.singleton_append] at reversed
  obtain ⟨back, front⟩ := append_cons_injective (by simpa using ha) (by simpa using hb) reversed
  exact ⟨List.reverse_inj.mp front, List.reverse_inj.mp back⟩

/-- The scope and the key can be read off a scoped id. -/
theorem scopedId_injective {s s' : Option String} {a b : EntityKey} (h : scopedId s a.id = scopedId s' b.id) :
    s = s' ∧ a = b := by
  have chars := congrArg String.toList h
  cases s with
  | none =>
    cases s' with
    | none => exact ⟨rfl, EntityKey.id_injective h⟩
    | some s' =>
      rw [toList_scopedId_some] at chars
      exact absurd (chars ▸ List.mem_append_right _ List.mem_cons_self) a.slash_not_mem_id
  | some s =>
    cases s' with
    | none =>
      rw [toList_scopedId_some] at chars
      exact absurd (chars ▸ List.mem_append_right _ List.mem_cons_self) b.slash_not_mem_id
    | some s' =>
      rw [toList_scopedId_some, toList_scopedId_some] at chars
      obtain ⟨scope, id⟩ := append_slash_injective a.slash_not_mem_id b.slash_not_mem_id chars
      exact ⟨congrArg some (String.toList_inj.mp scope), EntityKey.id_injective (String.toList_inj.mp id)⟩

end ProgramGraph.Store
