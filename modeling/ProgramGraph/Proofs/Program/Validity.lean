import Mathlib.Data.Nat.Find
import ProgramGraph.Proofs.Program.Walk

/-!
# ProgramGraph.Proofs.Program.Validity

The check of a unit accepts exactly the trees, and names the first defect of everything else.

* `WellFormed` — a unit that is one tree: no parse errors, all parents inside, one node without a parent, and every
  chain of parents ends there.
* `FirstDefect` — what is wrong with a unit, given that nothing that counts before it is wrong.
* `strayParent?_eq_some_iff`, `rootCount_eq_one_iff` — what the single checks find.
* `inspect_spec` — the inspection stays inside the unit, and finds nothing in a tree and the first defect otherwise.
* `validate_decides` — the check of a unit.
-/

namespace ProgramGraph.Program

/-- What is counted once stands in one place. -/
theorem countP_eq_one_iff {α : Type} {p : α → Bool} {l : List α} :
    l.countP p = 1 ↔ ∃ place, ∀ i : Nat, (∃ x, l[i]? = some x ∧ p x = true) ↔ i = place := by
  induction l with
  | nil =>
    simp only [List.countP_nil, List.getElem?_nil]
    constructor
    · intro h
      cases h
    · rintro ⟨place, only⟩
      obtain ⟨x, hx, _⟩ := (only place).mpr rfl
      cases hx
  | cons a l ih =>
    by_cases ha : p a = true
    · rw [List.countP_cons_of_pos ha, Nat.add_eq_right, List.countP_eq_zero]
      constructor
      · intro others
        refine ⟨0, fun i => ⟨?_, ?_⟩⟩
        · rintro ⟨x, hx, hp⟩
          cases i with
          | zero => rfl
          | succ i => exact absurd hp (others x (List.mem_of_getElem? hx))
        · rintro rfl
          exact ⟨a, rfl, ha⟩
      · rintro ⟨place, only⟩ x hx hp
        obtain ⟨i, hi⟩ := List.mem_iff_getElem?.mp hx
        have first := (only 0).mp ⟨a, rfl, ha⟩
        have later := (only (i + 1)).mp ⟨x, hi, hp⟩
        omega
    · rw [List.countP_cons_of_neg ha, ih]
      constructor
      · rintro ⟨place, only⟩
        refine ⟨place + 1, fun i => ?_⟩
        cases i with
        | zero => simp [ha]
        | succ i => simpa using only i
      · rintro ⟨place, only⟩
        cases place with
        | zero =>
          obtain ⟨x, ⟨⟩, hp⟩ := (only 0).mpr rfl
          exact absurd hp ha
        | succ place => exact ⟨place, fun i => by simpa using only (i + 1)⟩

namespace SourceUnit

open Relation

variable {u : SourceUnit}

/-! ## Trees and defects -/

/-- A place is the only one without a parent. -/
def OnlyTop (nodes : Array SourceNode) (root : Nat) : Prop :=
  ∀ i, IsTop nodes i ↔ i = root

/-- A place whose parent lies outside. -/
def IsStray (nodes : Array SourceNode) (i : Nat) : Prop :=
  ∃ q, LinksTo nodes i q ∧ nodes.size ≤ q

/-- A unit that is one tree, read without errors. -/
structure WellFormed (u : SourceUnit) : Prop where
  parses : u.parseErrors = []
  inhabited : u.nodes ≠ #[]
  inside : Inside u.nodes
  tree : ∃ root, OnlyTop u.nodes root ∧ ∀ i < u.nodes.size, ReflTransGen (LinksTo u.nodes) i root

/-- What is wrong with a unit in which nothing is wrong that counts before it. -/
inductive FirstDefect (u : SourceUnit) : Defect → Prop where
  | parseErrors {first : String} {rest : List String} (errors : u.parseErrors = first :: rest) :
      FirstDefect u (.parseErrors u.parseErrors.length first)
  | noNodes (parses : u.parseErrors = []) (empty : u.nodes = #[]) : FirstDefect u .noNodes
  | parentOutside {i : Nat} {p : UInt32} (parses : u.parseErrors = []) (parent : parentAt? u.nodes i = some p)
      (outside : u.nodes.size ≤ p.toNat) (least : ∀ j < i, ¬IsStray u.nodes j) :
      FirstDefect u (.parentOutside i p)
  | rootCount (parses : u.parseErrors = []) (inhabited : u.nodes ≠ #[]) (inside : Inside u.nodes)
      (tops : ¬∃ root, OnlyTop u.nodes root) : FirstDefect u (.rootCount (.ofNat u.rootCount))
  | cyclic {i root : Nat} (parses : u.parseErrors = []) (inside : Inside u.nodes) (top : OnlyTop u.nodes root)
      (place : i < u.nodes.size) (astray : ¬ReflTransGen (LinksTo u.nodes) i root)
      (least : ∀ j < i, ReflTransGen (LinksTo u.nodes) j root) : FirstDefect u (.cyclic i)

theorem OnlyTop.unique {nodes : Array SourceNode} {root root' : Nat} (h : OnlyTop nodes root)
    (h' : OnlyTop nodes root') : root = root' :=
  (h' root).mp ((h root).mpr rfl)

theorem OnlyTop.arrives_iff {nodes : Array SourceNode} {i root : Nat} (h : OnlyTop nodes root) :
    Arrives nodes i ↔ ReflTransGen (LinksTo nodes) i root := by
  constructor
  · rintro ⟨top, isTop, way⟩
    rwa [← (h top).mp isTop]
  · intro way
    exact ⟨root, (h root).mpr rfl, way⟩

theorem linksTo_iff {nodes : Array SourceNode} {i q : Nat} :
    LinksTo nodes i q ↔ ∃ p, parentAt? nodes i = some p ∧ p.toNat = q :=
  Option.map_eq_some_iff

theorem FirstDefect.not_wellFormed {d : Defect} (h : u.FirstDefect d) : ¬u.WellFormed := by
  intro tree
  cases h with
  | parseErrors errors => simp [tree.parses] at errors
  | noNodes _ empty => exact tree.inhabited empty
  | parentOutside _ parent outside _ =>
    exact absurd (tree.inside _ _ (linksTo_iff.mpr ⟨_, parent, rfl⟩)) (Nat.not_lt.mpr outside)
  | rootCount _ _ _ tops =>
    obtain ⟨root, top, _⟩ := tree.tree
    exact tops ⟨root, top⟩
  | cyclic _ _ top place astray _ =>
    obtain ⟨root, top', reaches⟩ := tree.tree
    rw [top.unique top'] at astray
    exact astray (reaches _ place)

/-! ## The single checks -/

theorem isStray_iff {i : Nat} (hi : i < u.nodes.size) :
    isStray u.nodes.size u.nodes[i] = true ↔ IsStray u.nodes i := by
  simp only [isStray, IsStray, LinksTo, parentAt?_eq (Array.getElem?_eq_getElem hi)]
  cases u.nodes[i].parent <;> simp

theorem findIdx?_isStray_eq_some_iff {i : Nat} :
    u.nodes.findIdx? (isStray u.nodes.size) = some i ↔ IsStray u.nodes i ∧ ∀ j < i, ¬IsStray u.nodes j := by
  rw [Array.findIdx?_eq_some_iff_getElem]
  constructor
  · rintro ⟨hi, stray, least⟩
    exact ⟨(isStray_iff hi).mp stray, fun j hj => mt (isStray_iff (hj.trans hi)).mpr (least j hj)⟩
  · rintro ⟨stray, least⟩
    have hi : i < u.nodes.size := by
      obtain ⟨q, link, _⟩ := stray
      exact link.lt_size
    exact ⟨hi, (isStray_iff hi).mpr stray, fun j hj => mt (isStray_iff (hj.trans hi)).mp (least j hj)⟩

theorem strayParent?_eq_some_iff {i : Nat} {p : UInt32} :
    u.strayParent? = some (i, p) ↔
      parentAt? u.nodes i = some p ∧ u.nodes.size ≤ p.toNat ∧ ∀ j < i, ¬IsStray u.nodes j := by
  have named : u.strayParent? = (u.nodes.findIdx? (isStray u.nodes.size)).bind fun i =>
      (parentAt? u.nodes i).map fun p => (i, p) := by
    refine congrArg (Option.bind _) (funext fun i => ?_)
    rw [parentAt?]
    cases u.nodes[i]? with
    | none => rfl
    | some n => cases hp : n.parent <;> simp [hp]
  simp only [named, Option.bind_eq_some_iff, findIdx?_isStray_eq_some_iff, Option.map_eq_some_iff, Prod.mk.injEq]
  constructor
  · rintro ⟨_, ⟨⟨q, link, outside⟩, least⟩, _, parent, rfl, rfl⟩
    obtain ⟨_, same, rfl⟩ := linksTo_iff.mp link
    cases parent.symm.trans same
    exact ⟨parent, outside, least⟩
  · rintro ⟨parent, outside, least⟩
    exact ⟨i, ⟨⟨p.toNat, linksTo_iff.mpr ⟨p, parent, rfl⟩, outside⟩, least⟩, p, parent, rfl, rfl⟩

theorem strayParent?_eq_none_iff : u.strayParent? = none ↔ Inside u.nodes := by
  constructor
  · intro none i q link
    by_contra outside
    have stray : ∃ i, IsStray u.nodes i := ⟨i, q, link, Nat.le_of_not_lt outside⟩
    classical
    obtain ⟨q, link, outside⟩ := Nat.find_spec stray
    obtain ⟨p, parent, rfl⟩ := linksTo_iff.mp link
    have found := strayParent?_eq_some_iff.mpr ⟨parent, outside, fun j hj => Nat.find_min stray hj⟩
    rw [none] at found
    cases found
  · intro inside
    rw [Option.eq_none_iff_forall_ne_some]
    rintro ⟨i, p⟩ found
    obtain ⟨parent, outside, _⟩ := strayParent?_eq_some_iff.mp found
    exact absurd (inside i _ (linksTo_iff.mpr ⟨p, parent, rfl⟩)) (Nat.not_lt.mpr outside)

theorem rootCount_eq_one_iff : u.rootCount = 1 ↔ ∃ root, OnlyTop u.nodes root := by
  rw [rootCount, ← Array.countP_toList, countP_eq_one_iff]
  have top : ∀ i, (∃ n, u.nodes.toList[i]? = some n ∧ n.parent.isNone = true) ↔ IsTop u.nodes i := by
    intro i
    rw [Array.getElem?_toList, IsTop, parentAt?]
    cases hn : u.nodes[i]? with
    | none => simp [← Array.getElem?_eq_none_iff, hn]
    | some n => simp [(Array.getElem?_eq_some_iff.mp hn).1]
  simp only [top, OnlyTop]

/-! ## The inspection -/

/-- What the inspection of a unit should say. -/
inductive Verdict (u : SourceUnit) : Option Defect → Prop where
  | sound (tree : u.WellFormed) : Verdict u none
  | faulty {d : Defect} (first : u.FirstDefect d) : Verdict u (some d)

theorem inspect_spec (u : SourceUnit) : ∃ found, u.inspect = .ok found ∧ u.Verdict found := by
  rw [inspect]
  cases errors : u.parseErrors with
  | cons first rest => exact ⟨_, rfl, .faulty (errors ▸ .parseErrors errors)⟩
  | nil =>
    by_cases empty : u.nodes = #[]
    · exact ⟨_, by simp [empty], .faulty (.noNodes errors empty)⟩
    · simp only [Array.isEmpty_iff, empty, if_false]
      cases stray : u.strayParent? with
      | some found =>
        obtain ⟨parent, outside, least⟩ := strayParent?_eq_some_iff.mp stray
        exact ⟨_, rfl, .faulty (.parentOutside errors parent outside least)⟩
      | none =>
        have inside := strayParent?_eq_none_iff.mp stray
        by_cases once : u.rootCount = 1
        · obtain ⟨root, top⟩ := rootCount_eq_one_iff.mp once
          obtain ⟨found, walked, all, first⟩ := cyclicNode?_eq inside
          simp only [top.arrives_iff] at all first
          refine ⟨found.map .cyclic, by simp [once, walked, Except.map], ?_⟩
          cases found with
          | none => exact .sound ⟨errors, empty, inside, root, top, all.mp rfl⟩
          | some i =>
            obtain ⟨place, astray, least⟩ := (first i).mp rfl
            exact .faulty (.cyclic errors inside top place astray least)
        · exact ⟨_, by simp [once], .faulty (.rootCount errors empty inside (mt rootCount_eq_one_iff.mpr once))⟩

/-- No two defects are both the first, since the inspection finds each. -/
theorem inspect_of_firstDefect {d : Defect} (h : u.FirstDefect d) : u.inspect = .ok (some d) := by
  cases h with
  | parseErrors errors => rw [inspect, errors]
  | noNodes parses empty => simp [inspect, parses, empty]
  | parentOutside parses parent outside least =>
    have inhabited : u.nodes ≠ #[] := Array.ne_empty_of_size_pos (Nat.zero_lt_of_lt
      (linksTo_iff.mpr ⟨_, parent, rfl⟩).lt_size)
    simp [inspect, parses, inhabited, strayParent?_eq_some_iff.mpr ⟨parent, outside, least⟩]
  | rootCount parses inhabited inside tops =>
    simp [inspect, parses, inhabited, strayParent?_eq_none_iff.mpr inside, mt rootCount_eq_one_iff.mp tops]
  | @cyclic i root parses inside top place astray least =>
    have inhabited : u.nodes ≠ #[] := Array.ne_empty_of_size_pos (Nat.zero_lt_of_lt place)
    obtain ⟨found, walked, _, first⟩ := cyclicNode?_eq inside
    simp only [top.arrives_iff] at first
    simp [inspect, parses, inhabited, strayParent?_eq_none_iff.mpr inside, rootCount_eq_one_iff.mpr ⟨root, top⟩,
      walked, (first i).mpr ⟨place, astray, least⟩, Except.map]

theorem defect?_eq_none_iff : u.defect? = none ↔ u.WellFormed := by
  obtain ⟨found, inspected, verdict⟩ := inspect_spec u
  rw [defect?, inspected]
  cases verdict with
  | sound tree => simp [tree]
  | faulty first => simp [first.not_wellFormed]

theorem defect?_eq_some_iff {d : Defect} : u.defect? = some d ↔ u.FirstDefect d := by
  constructor
  · intro h
    obtain ⟨found, inspected, verdict⟩ := inspect_spec u
    rw [defect?, inspected] at h
    cases h
    cases verdict with
    | faulty first => exact first
  · intro h
    rw [defect?, inspect_of_firstDefect h]

theorem validate_eq_ok_iff : u.validate = .ok () ↔ u.WellFormed := by
  rw [← defect?_eq_none_iff, validate]
  cases u.defect? <;> simp

theorem validate_eq_error_iff {m : Malformed} :
    u.validate = .error m ↔ m.unit = u.displayName ∧ u.FirstDefect m.defect := by
  obtain ⟨unit, defect⟩ := m
  rw [← defect?_eq_some_iff, validate]
  cases u.defect? <;> simp [eq_comm]

/-- The check of a unit stays inside the unit. It accepts exactly the trees, and everything else is reported under its
name with its first defect. -/
theorem validate_decides (u : SourceUnit) :
    (∃ found, u.inspect = .ok found) ∧ (u.validate = .ok () ↔ u.WellFormed) ∧
      ∀ m, u.validate = .error m ↔ m.unit = u.displayName ∧ u.FirstDefect m.defect := by
  obtain ⟨found, inspected, _⟩ := inspect_spec u
  exact ⟨⟨found, inspected⟩, validate_eq_ok_iff, fun m => validate_eq_error_iff⟩

/-- A branch that runs into a cycle. -/
example :
    validate { fileName := some "Cycle.java", nodes := #[{ kind := "CompilationUnit" },
      { kind := "NameExpr", parent := some 2 }, { kind := "A", parent := some 3 }, { kind := "B", parent := some 2 }] } =
      .error ⟨"Cycle.java", .cyclic 1⟩ := by decide +kernel

end SourceUnit
end ProgramGraph.Program
