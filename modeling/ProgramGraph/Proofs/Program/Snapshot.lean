import Mathlib.Data.List.Forall2
import ProgramGraph.Program.Snapshot
import ProgramGraph.Proofs.Program.Units

/-!
# ProgramGraph.Proofs.Program.Snapshot

What the units of a snapshot leave in a program: a sound one itself, under its place in the snapshot, and a malformed one
a report and nothing else.

* `Units.get?_enrollFrom`     — enrolling a list of units adds its sound ones, each under its place.
* `Units.rejected_enrollFrom` — what is reported: `SourceUnit.report?` of every unit, in order.
* `Units.enrollFrom_congr`    — lists of units that are `AlikeIfSound`, unit by unit, leave the same units.
* `Snapshot.AlikeWhereSound`  — the same for two snapshots with the same tables.
-/

namespace ProgramGraph.Program

namespace SourceUnit

variable {u u' : SourceUnit}

theorem validate_inheritHash (hash : String) (u : SourceUnit) : (u.inheritHash hash).validate = u.validate := rfl

/-- What is reported of a unit at a place, if it is malformed. -/
def report? (u : SourceUnit) (place : Nat) : Option (Nat × Malformed) :=
  match u.validate with
  | .ok () => none
  | .error m => some (place, m)

/-- Two units that are the same, or both malformed. -/
def AlikeIfSound (u u' : SourceUnit) : Prop :=
  u' = u ∨ u.validate ≠ .ok () ∧ u'.validate ≠ .ok ()

theorem AlikeIfSound.inheritHash (h : AlikeIfSound u u') (hash : String) :
    AlikeIfSound (u.inheritHash hash) (u'.inheritHash hash) := by
  rcases h with rfl | malformed
  · exact .inl rfl
  · rw [AlikeIfSound, validate_inheritHash, validate_inheritHash]
    exact .inr malformed

end SourceUnit

namespace Units

section

variable {s : Units} {u : SourceUnit} {m : Malformed} {next : Nat} {rest : List SourceUnit}

theorem enrollFrom_of_ok (h : u.validate = .ok ()) :
    s.enrollFrom next (u :: rest) = (s.insert (UInt32.ofNat next) u h).enrollFrom (next + 1) rest := by
  have enrolled : s.enroll (UInt32.ofNat next) u = .ok (s.insert (UInt32.ofNat next) u h) := by
    unfold enroll
    split
    · rfl
    · rename_i _ h'
      cases h.symm.trans h'
  rw [enrollFrom, enrolled]

theorem enrollFrom_of_error (h : u.validate = .error m) :
    s.enrollFrom next (u :: rest) =
      ((s.enrollFrom (next + 1) rest).1, (next, m) :: (s.enrollFrom (next + 1) rest).2) := by
  have refused : s.enroll (UInt32.ofNat next) u = .error m := by
    unfold enroll
    split
    · rename_i h'
      cases h.symm.trans h'
    · rename_i h'
      cases h.symm.trans h'
      rfl
  rw [enrollFrom, refused]

end

/-- By induction on the list. No number from `next` on is taken, so that nothing is overwritten. -/
theorem get?_enrollFrom {units : List SourceUnit} {s : Units} {next : Nat} (fits : next + units.length ≤ UInt32.size)
    (fresh : ∀ id, next ≤ id.toNat → s.get? id = none) {id : UInt32} {v : SourceUnit} :
    (s.enrollFrom next units).1.get? id = some v ↔
      s.get? id = some v ∨ ∃ i, units[i]? = some v ∧ v.validate = .ok () ∧ id.toNat = next + i := by
  induction units generalizing s next with
  | nil => simp [enrollFrom]
  | cons u rest ih =>
    rw [List.length_cons] at fits
    rw [← Nat.or_exists_add_one]
    simp only [List.getElem?_cons_zero, List.getElem?_cons_succ, Option.some.injEq, Nat.add_zero]
    cases h : u.validate with
    | error m =>
      rw [enrollFrom_of_error h, ih (by omega) fun id later => fresh id (by omega)]
      have other : ¬(u = v ∧ v.validate = .ok () ∧ id.toNat = next) := by
        rintro ⟨rfl, ok, _⟩
        cases h.symm.trans ok
      simp only [other, false_or, Nat.add_right_comm, Nat.add_assoc]
    | ok =>
      have place : (UInt32.ofNat next).toNat = next := UInt32.toNat_ofNat_of_lt' (by omega)
      have fresh' : ∀ id, next + 1 ≤ id.toNat → (s.insert (UInt32.ofNat next) u h).get? id = none := by
        intro id later
        rw [get?_insert, if_neg, fresh id (by omega)]
        rintro rfl
        omega
      have here : UInt32.ofNat next = id ↔ id.toNat = next := by
        rw [← UInt32.toNat_inj, place, eq_comm]
      have sound : u = v → v.validate = .ok () := by
        rintro rfl
        exact h
      rw [enrollFrom_of_ok h, ih (by omega) fresh', get?_insert]
      simp only [here, Nat.add_right_comm, Nat.add_assoc]
      by_cases found : id.toNat = next
      · have free : s.get? id = none := fresh id (by omega)
        rw [if_pos found, free]
        simp only [found, Option.some.injEq, reduceCtorEq, false_or, and_true, and_iff_left_of_imp sound]
      · rw [if_neg found]
        simp only [found, and_false, false_or]

theorem rejected_enrollFrom (units : List SourceUnit) (s : Units) (next : Nat) :
    (s.enrollFrom next units).2 = (units.zipIdx next).filterMap fun placed => placed.1.report? placed.2 := by
  induction units generalizing s next with
  | nil => rfl
  | cons u rest ih =>
    rw [List.zipIdx_cons, List.filterMap_cons]
    cases h : u.validate with
    | ok => rw [enrollFrom_of_ok h, ih, SourceUnit.report?, h]
    | error m => rw [enrollFrom_of_error h, ih, SourceUnit.report?, h]

theorem enrollFrom_congr {units units' : List SourceUnit} (alike : List.Forall₂ SourceUnit.AlikeIfSound units units')
    (s : Units) (next : Nat) : (s.enrollFrom next units').1 = (s.enrollFrom next units).1 := by
  induction alike generalizing s next with
  | nil => rfl
  | @cons u u' rest rest' head _ ih =>
    rcases head with rfl | ⟨malformed, malformed'⟩
    · cases h : u'.validate with
      | ok => rw [enrollFrom_of_ok h, enrollFrom_of_ok h, ih]
      | error m => rw [enrollFrom_of_error h, enrollFrom_of_error h, ih]
    · cases h : u.validate with
      | ok => exact absurd h malformed
      | error m =>
        cases h' : u'.validate with
        | ok => exact absurd h' malformed'
        | error m' => rw [enrollFrom_of_error h, enrollFrom_of_error h', ih]

end Units

namespace Snapshot

variable {s s' : Snapshot}

/-- Two snapshots with the same tables and as many units, which differ only where both have a malformed unit. -/
structure AlikeWhereSound (s s' : Snapshot) : Prop where
  declarations : s'.declarations = s.declarations
  types : s'.types = s.types
  bindings : s'.bindings = s.bindings
  length : s'.units.length = s.units.length
  units : ∀ (i : Nat) (u u' : SourceUnit), s.units[i]? = some u → s'.units[i]? = some u' →
    u' = u ∨ u.validate ≠ .ok () ∧ u'.validate ≠ .ok ()

theorem AlikeWhereSound.forall₂ (h : s.AlikeWhereSound s') (hash : String) :
    List.Forall₂ SourceUnit.AlikeIfSound (s.units.map (SourceUnit.inheritHash hash))
      (s'.units.map (SourceUnit.inheritHash hash)) := by
  rw [List.forall₂_map_left_iff, List.forall₂_map_right_iff, List.forall₂_iff_get]
  refine ⟨h.length.symm, fun i hi hi' => ?_⟩
  have alike : SourceUnit.AlikeIfSound s.units[i] s'.units[i] :=
    h.units i _ _ (List.getElem?_eq_getElem hi) (List.getElem?_eq_getElem hi')
  exact alike.inheritHash hash

end Snapshot

/-! ## Loading a snapshot -/

variable {s s' : Snapshot} {hash : String}

theorem get?_units_ofSnapshot (fits : s.units.length ≤ UInt32.size) {id : UInt32} {v : SourceUnit} :
    (ofSnapshot s hash).units.get? id = some v ↔
      ∃ u, s.units[id.toNat]? = some u ∧ u.validate = .ok () ∧ v = u.inheritHash hash := by
  have fits' : 0 + (s.units.map (SourceUnit.inheritHash hash)).length ≤ UInt32.size := by
    rwa [Nat.zero_add, List.length_map]
  show (Units.enrollFrom .empty 0 (s.units.map (SourceUnit.inheritHash hash))).1.get? id = some v ↔ _
  rw [Units.get?_enrollFrom fits' fun id _ => Units.get?_empty id]
  simp only [Units.get?_empty, reduceCtorEq, false_or, List.getElem?_map, Option.map_eq_some_iff, Nat.zero_add]
  constructor
  · rintro ⟨i, ⟨u, hu, rfl⟩, sound, rfl⟩
    exact ⟨u, hu, sound, rfl⟩
  · rintro ⟨u, hu, sound, rfl⟩
    exact ⟨id.toNat, ⟨u, hu, rfl⟩, sound, rfl⟩

theorem rejected_ofSnapshot (s : Snapshot) (hash : String) :
    (ofSnapshot s hash).rejected = s.units.zipIdx.filterMap fun placed => placed.1.report? placed.2 := by
  show (Units.enrollFrom .empty 0 (s.units.map (SourceUnit.inheritHash hash))).2 = _
  rw [Units.rejected_enrollFrom, List.zipIdx_map, List.filterMap_map]
  rfl

theorem units_ofSnapshot_congr (alike : s.AlikeWhereSound s') (hash : String) :
    (ofSnapshot s' hash).units = (ofSnapshot s hash).units :=
  Units.enrollFrom_congr (alike.forall₂ hash) .empty 0

theorem tables_congr (alike : s.AlikeWhereSound s') : s'.tables = s.tables := by
  rw [Snapshot.tables, Snapshot.tables, alike.declarations, alike.types, alike.bindings]

end ProgramGraph.Program
