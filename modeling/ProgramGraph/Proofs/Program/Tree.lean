import Mathlib.Algebra.Group.Nat.Defs
import Mathlib.Data.Finset.Card
import Mathlib.Logic.Function.Iterate
import ProgramGraph.Proofs.Program.Units

/-!
# ProgramGraph.Proofs.Program.Tree

A sound unit is one tree.

* `exists_lt_iterate` — a place that is reached at all is reached in fewer links than there are places.
* `up` — where the link of a node leads: to the parent, and from the root to itself.
* `exists_root`, `exists_isTop_up` — a sound unit has one root, and every chain of parents ends there.
-/

namespace ProgramGraph.Program

section Iterate

variable {f : Nat → Nat} {size i : Nat}

theorem iterate_lt (inside : ∀ j < size, f j < size) (hi : i < size) (m : Nat) : f^[m] i < size := by
  induction m with
  | zero => exact hi
  | succ m ih => rw [Function.iterate_succ_apply']; exact inside _ ih

/-- What lies between two visits to one place can be left out. -/
theorem iterate_shortcut {a b steps : Nat} (same : f^[a] i = f^[b] i) (hab : a < b) (hb : b ≤ steps) :
    f^[steps - (b - a)] i = f^[steps] i := by
  calc f^[steps - (b - a)] i = f^[steps - b] (f^[a] i) := by
        rw [← Function.iterate_add_apply]; congr 2; omega
    _ = f^[steps - b] (f^[b] i) := by rw [same]
    _ = f^[steps] i := by rw [← Function.iterate_add_apply, Nat.sub_add_cancel hb]

theorem exists_lt_iterate (goal : Nat → Prop) (inside : ∀ j < size, f j < size) (hi : i < size) {steps : Nat}
    (reached : goal (f^[steps] i)) : ∃ m < size, goal (f^[m] i) := by
  induction steps using Nat.strong_induction_on with
  | _ steps ih =>
    by_cases short : steps < size
    · exact ⟨steps, short, reached⟩
    · -- more steps than places: some place is visited twice
      obtain ⟨a, b, hab, hb, same⟩ : ∃ a b, a < b ∧ b ≤ size ∧ f^[a] i = f^[b] i := by
        have places : Set.MapsTo (fun m => f^[m] i) (Finset.range (size + 1)) (Finset.range size) := by
          intro m _
          simpa using iterate_lt inside hi m
        obtain ⟨a, ha, b, hb, different, same⟩ :=
          Finset.exists_ne_map_eq_of_card_lt_of_maps_to (by simp) places
        rw [Finset.mem_range] at ha hb
        rcases Nat.lt_or_gt_of_ne different with hab | hab
        · exact ⟨a, b, hab, by omega, same⟩
        · exact ⟨b, a, hab, by omega, same.symm⟩
      refine ih (steps - (b - a)) (by omega) ?_
      rwa [iterate_shortcut same hab (by omega)]

end Iterate

namespace SourceUnit

open Relation

/-! ## Chains of parents -/

/-- One link up: the parent of a place, and the root itself. -/
def up (u : SourceUnit) (i : Nat) : Nat :=
  ((parentAt? u.nodes i).map UInt32.toNat).getD i

variable {u : SourceUnit} {i : Nat} {n : SourceNode}

theorem up_eq (hn : u.nodes[i]? = some n) : u.up i = (n.parent.map UInt32.toNat).getD i := by
  rw [up, parentAt?_eq hn]

theorem LinksTo.up_eq {p : Nat} (h : LinksTo u.nodes i p) : u.up i = p := by
  rw [up, h, Option.getD_some]

theorem isTop_iff (hn : u.nodes[i]? = some n) : IsTop u.nodes i ↔ n.parent = none := by
  rw [IsTop, parentAt?_eq hn]
  exact and_iff_right (Array.getElem?_eq_some_iff.mp hn).1

theorem up_lt_uint32Size (u : SourceUnit) (hi : i < UInt32.size) : u.up i < UInt32.size := by
  rw [up]
  cases parentAt? u.nodes i with
  | none => exact hi
  | some p => exact p.toNat_lt

theorem exists_iterate_of_reaches {j : Nat} (h : ReflTransGen (LinksTo u.nodes) i j) : ∃ m, u.up^[m] i = j := by
  induction h with
  | refl => exact ⟨0, rfl⟩
  | tail _ link ih =>
    obtain ⟨m, rfl⟩ := ih
    exact ⟨m + 1, by rw [Function.iterate_succ_apply', link.up_eq]⟩

/-! ## Sound units -/

section

variable (sound : u.validate = .ok ())

include sound

theorem up_lt (hi : i < u.nodes.size) : u.up i < u.nodes.size := by
  cases hp : parentAt? u.nodes i with
  | none => rwa [up, hp]
  | some p =>
    have link : LinksTo u.nodes i p.toNat := linksTo_iff.mpr ⟨p, hp, rfl⟩
    rw [link.up_eq]
    exact (validate_eq_ok_iff.mp sound).inside i _ link

theorem up_lt_placeCount (hi : i < u.placeCount) : u.up i < u.placeCount := by
  rw [placeCount, Nat.lt_min] at hi ⊢
  exact ⟨up_lt sound hi.1, up_lt_uint32Size u hi.2⟩

/-- Every chain of parents ends at a root, in fewer links than there are places. -/
theorem exists_isTop_up (hi : i < u.placeCount) : ∃ m < u.placeCount, IsTop u.nodes (u.up^[m] i) := by
  obtain ⟨root, top, reaches⟩ := (validate_eq_ok_iff.mp sound).tree
  obtain ⟨m, arrives⟩ := exists_iterate_of_reaches (reaches i (Nat.lt_of_lt_of_le hi (Nat.min_le_left _ _)))
  have isTop : IsTop u.nodes (u.up^[m] i) := (top _).mpr arrives
  exact exists_lt_iterate (IsTop u.nodes) (fun j hj => up_lt_placeCount sound hj) hi isTop

/-- The one root of a sound unit has a place, since the chain of parents of the first node ends there. -/
theorem exists_root :
    ∃ root, (∃ n, u.node? root = some n) ∧ ∀ i n, u.node? i = some n → (n.parent = none ↔ i = root) := by
  obtain ⟨root, top, _⟩ := (validate_eq_ok_iff.mp sound).tree
  have inside : root < u.nodes.size := ((top root).mpr rfl).1
  have some_node : 0 < u.placeCount := Nat.lt_min.mpr ⟨Nat.zero_lt_of_lt inside, by decide⟩
  obtain ⟨m, _, arrives⟩ := exists_isTop_up sound some_node
  have small : root < u.placeCount := by
    rw [← (top _).mp arrives]
    exact iterate_lt (fun j hj => up_lt_placeCount sound hj) some_node m
  have place : (UInt32.ofNat root).toNat = root :=
    UInt32.toNat_ofNat_of_lt' (Nat.lt_of_lt_of_le small (Nat.min_le_right _ _))
  refine ⟨UInt32.ofNat root, ⟨u.nodes[root], ?_⟩, fun i n hn => ?_⟩
  · rw [node?, place, Array.getElem?_eq_getElem inside]
  · rw [node?] at hn
    rw [← isTop_iff hn, top]
    constructor
    · intro here
      rw [← here, UInt32.ofNat_toNat]
    · rintro rfl
      exact place

end

end SourceUnit
end ProgramGraph.Program
