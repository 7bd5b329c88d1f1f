import Mathlib.Data.List.Range
import Mathlib.Logic.Relation
import ProgramGraph.Program.Unit

/-!
# ProgramGraph.Proofs.Program.Walk

The walk along the parents finds the first node whose chain of parents never ends.

* `LinksTo`, `IsTop`, `Arrives` — a node and its parent, a node without one, and a node whose chain of parents ends.
* `not_arrives_of_cycle` — a chain that comes back to where it was never ends.
* `Faithful`, `OnWay` — what the marks say, and what is known while a chain is followed.
* `climb_spec`, `settle_spec` — following one chain, and marking what was passed.
* `cyclicNode?_eq` — the walk from every node in turn.
-/

namespace ProgramGraph.Program.SourceUnit

open Relation

/-! ## Chains of parents -/

section Chains

variable {nodes : Array SourceNode} {i j p : Nat}

/-- The parent of the node at a place. -/
def parentAt? (nodes : Array SourceNode) (i : Nat) : Option UInt32 :=
  nodes[i]?.bind SourceNode.parent

/-- A node and its parent. -/
def LinksTo (nodes : Array SourceNode) (i p : Nat) : Prop :=
  (parentAt? nodes i).map UInt32.toNat = some p

/-- A node without a parent. -/
def IsTop (nodes : Array SourceNode) (i : Nat) : Prop :=
  i < nodes.size ∧ parentAt? nodes i = none

/-- A node whose chain of parents ends. -/
def Arrives (nodes : Array SourceNode) (i : Nat) : Prop :=
  ∃ top, IsTop nodes top ∧ ReflTransGen (LinksTo nodes) i top

theorem parentAt?_eq {n : SourceNode} (hn : nodes[i]? = some n) : parentAt? nodes i = n.parent := by
  rw [parentAt?, hn, Option.bind_some]

theorem LinksTo.lt_size (h : LinksTo nodes i p) : i < nodes.size := by
  by_contra outside
  rw [LinksTo, parentAt?, Array.getElem?_eq_none (Nat.le_of_not_lt outside)] at h
  cases h

theorem LinksTo.unique {q : Nat} (h : LinksTo nodes i p) (h' : LinksTo nodes i q) : p = q :=
  Option.some.inj (h.symm.trans h')

theorem IsTop.not_linksTo (h : IsTop nodes i) : ¬LinksTo nodes i p := by
  simp [LinksTo, h.2]

theorem IsTop.arrives (h : IsTop nodes i) : Arrives nodes i :=
  ⟨i, h, .refl⟩

theorem LinksTo.arrives_iff (h : LinksTo nodes i p) : Arrives nodes i ↔ Arrives nodes p := by
  constructor
  · rintro ⟨top, isTop, way⟩
    rcases ReflTransGen.cases_head way with rfl | ⟨q, link, further⟩
    · exact absurd h isTop.not_linksTo
    · rw [h.unique link]
      exact ⟨top, isTop, further⟩
  · rintro ⟨top, isTop, way⟩
    exact ⟨top, isTop, .head h way⟩

theorem arrives_iff_of_reaches (h : ReflTransGen (LinksTo nodes) i j) : Arrives nodes i ↔ Arrives nodes j := by
  induction h with
  | refl => rfl
  | tail _ link ih => rw [ih, link.arrives_iff]

/-- All nodes of a cycle have a parent, the next node of the cycle. -/
theorem not_arrives_of_cycle (h : TransGen (LinksTo nodes) i i) : ¬Arrives nodes i := by
  rintro ⟨top, isTop, way⟩
  induction way using ReflTransGen.head_induction_on with
  | refl =>
    obtain ⟨p, link, _⟩ := TransGen.head'_iff.mp h
    exact isTop.not_linksTo link
  | head link _ ih =>
    obtain ⟨p, link', back⟩ := TransGen.head'_iff.mp h
    rw [← link.unique link'] at back
    exact ih (.tail' back link)

end Chains

/-! ## Following one chain -/

section Climb

variable {nodes : Array SourceNode} {marks : Array Mark} {path : List Nat} {start i : Nat} {next : Option Nat}

/-- What the marks say is so: the nodes on the path are those of this chain, and the others that were seen arrive. -/
structure Faithful (nodes : Array SourceNode) (marks : Array Mark) (path : List Nat) : Prop where
  size : marks.size = nodes.size
  inside : ∀ j ∈ path, j < nodes.size
  onPath : ∀ j, marks[j]? = some .onPath → j ∈ path
  arrives : ∀ j, marks[j]? = some .arrives → Arrives nodes j

/-- The chain of `start` was followed over a path to what comes next. -/
structure OnWay (nodes : Array SourceNode) (start : Nat) (path : List Nat) (next : Option Nat) : Prop where
  ahead : ∀ i, next = some i → ReflTransGen (LinksTo nodes) start i
  behind : ∀ i, next = some i → ∀ j ∈ path, TransGen (LinksTo nodes) j i
  ended : next = none → Arrives nodes start ∧ ∀ j ∈ path, Arrives nodes j

theorem faithful_replicate (nodes : Array SourceNode) :
    Faithful nodes (Array.replicate nodes.size .unseen) [] where
  size := Array.size_replicate
  inside := by simp
  onPath := by simp [Array.getElem?_replicate]
  arrives := by simp [Array.getElem?_replicate]

theorem onWay_start (nodes : Array SourceNode) (start : Nat) : OnWay nodes start [] (some start) where
  ahead := by
    rintro _ ⟨⟩
    exact .refl
  behind := by simp
  ended := by simp

theorem Faithful.visit (h : Faithful nodes marks path) (hi : i < nodes.size) :
    Faithful nodes (marks.setIfInBounds i .onPath) (i :: path) where
  size := by rw [Array.size_setIfInBounds, h.size]
  inside := by simpa [hi] using h.inside
  onPath := by
    intro j hj
    by_cases same : i = j
    · simp [same]
    · rw [Array.getElem?_setIfInBounds_ne same] at hj
      exact List.mem_cons_of_mem _ (h.onPath j hj)
  arrives := by
    intro j hj
    by_cases same : i = j
    · subst same
      simp [Array.getElem?_setIfInBounds_self_of_lt (h.size ▸ hi)] at hj
    · rw [Array.getElem?_setIfInBounds_ne same] at hj
      exact h.arrives j hj

theorem Faithful.settle (h : Faithful nodes marks (i :: path)) (hi : Arrives nodes i) :
    Faithful nodes (marks.setIfInBounds i .arrives) path where
  size := by rw [Array.size_setIfInBounds, h.size]
  inside := fun j hj => h.inside j (List.mem_cons_of_mem _ hj)
  onPath := by
    intro j hj
    have inside := h.inside i List.mem_cons_self
    by_cases same : i = j
    · subst same
      simp [Array.getElem?_setIfInBounds_self_of_lt (h.size ▸ inside)] at hj
    · rw [Array.getElem?_setIfInBounds_ne same] at hj
      exact (List.mem_cons.mp (h.onPath j hj)).resolve_left (Ne.symm same)
  arrives := by
    intro j hj
    by_cases same : i = j
    · exact same ▸ hi
    · rw [Array.getElem?_setIfInBounds_ne same] at hj
      exact h.arrives j hj

theorem OnWay.arrives (h : OnWay nodes start path (some i)) (hi : Arrives nodes i) :
    Arrives nodes start ∧ ∀ j ∈ path, Arrives nodes j :=
  ⟨(arrives_iff_of_reaches (h.ahead i rfl)).mpr hi,
    fun j hj => (arrives_iff_of_reaches (h.behind i rfl j hj).to_reflTransGen).mpr hi⟩

theorem OnWay.visit {n : SourceNode} (h : OnWay nodes start path (some i)) (hn : nodes[i]? = some n) :
    OnWay nodes start (i :: path) (n.parent.map UInt32.toNat) := by
  have link : ∀ p, n.parent.map UInt32.toNat = some p → LinksTo nodes i p := by
    intro p hp
    rw [LinksTo, parentAt?_eq hn, hp]
  refine ⟨fun p hp => (h.ahead i rfl).tail (link p hp), fun p hp j hj => ?_, fun none => ?_⟩
  · rcases List.mem_cons.mp hj with rfl | hj
    · exact .single (link p hp)
    · exact (h.behind i rfl j hj).tail (link p hp)
  · have top : IsTop nodes i := by
      refine ⟨(Array.getElem?_eq_some_iff.mp hn).1, ?_⟩
      rw [parentAt?_eq hn, Option.map_eq_none_iff.mp none]
    simpa [top.arrives] using h.arrives top.arrives

/-- How following the chain of `start` may end: the chain comes back to itself and never ends, or it ends, and so do the
chains of all nodes on the path. -/
def Climbed (nodes : Array SourceNode) (start : Nat) : Except OutOfBounds (Option (Array Mark × List Nat)) → Prop
  | .error _ => False
  | .ok none => ¬Arrives nodes start
  | .ok (some (marks, path)) =>
    Arrives nodes start ∧ (∀ j ∈ path, Arrives nodes j) ∧ Faithful nodes marks path

/-- No parent lies outside. -/
def Inside (nodes : Array SourceNode) : Prop :=
  ∀ i p, LinksTo nodes i p → p < nodes.size

theorem climb_spec (inside : Inside nodes) (faithful : Faithful nodes marks path)
    (way : OnWay nodes start path next) (hnext : ∀ i, next = some i → i < nodes.size) :
    Climbed nodes start (climb nodes marks path next) := by
  fun_induction climb nodes marks path next with
  | case1 marks path =>
    obtain ⟨hstart, hpath⟩ := way.ended rfl
    exact ⟨hstart, hpath, faithful⟩
  | case2 marks path i outside =>
    rw [Array.getElem?_eq_none_iff, faithful.size] at outside
    exact absurd (hnext i rfl) (Nat.not_lt.mpr outside)
  | case3 marks path i here =>
    obtain ⟨hstart, hpath⟩ := way.arrives (faithful.arrives i here)
    exact ⟨hstart, hpath, faithful⟩
  | case4 marks path i here =>
    have cycle := way.behind i rfl i (faithful.onPath i here)
    exact fun hstart => not_arrives_of_cycle cycle ((arrives_iff_of_reaches (way.ahead i rfl)).mp hstart)
  | case5 marks path i here outside =>
    exact absurd (hnext i rfl) (Nat.not_lt.mpr (Array.getElem?_eq_none_iff.mp outside))
  | case6 marks path i here n hn ih =>
    refine ih (faithful.visit (hnext i rfl)) (way.visit hn) fun p hp => inside i p ?_
    rw [LinksTo, parentAt?_eq hn, hp]

theorem settle_spec (faithful : Faithful nodes marks path) (arrives : ∀ j ∈ path, Arrives nodes j) :
    ∃ marks', settle marks path = .ok marks' ∧ Faithful nodes marks' [] := by
  induction path generalizing marks with
  | nil => exact ⟨marks, rfl, faithful⟩
  | cons i path ih =>
    have hi : i < marks.size := by
      rw [faithful.size]
      exact faithful.inside i List.mem_cons_self
    rw [settle, if_pos hi]
    exact ih (faithful.settle (arrives i List.mem_cons_self)) fun j hj => arrives j (List.mem_cons_of_mem _ hj)

end Climb

/-! ## All chains -/

open scoped Classical in
theorem walk_eq {nodes : Array SourceNode} {marks : Array Mark} {starts : List Nat} (inside : Inside nodes)
    (faithful : Faithful nodes marks []) (hstarts : ∀ i ∈ starts, i < nodes.size) :
    walk nodes marks starts = .ok (starts.find? fun i => ¬Arrives nodes i) := by
  induction starts generalizing marks with
  | nil => rfl
  | cons start starts ih =>
    have climbed := climb_spec inside faithful (onWay_start nodes start) (by simpa using hstarts start)
    rw [walk]
    cases outcome : climb nodes marks [] (some start) with
    | error e => rw [outcome] at climbed; exact climbed.elim
    | ok reached =>
      rw [outcome] at climbed
      cases reached with
      | none =>
        have stuck : ¬Arrives nodes start := climbed
        rw [List.find?_cons_of_pos (by simpa using stuck)]
        rfl
      | some reached =>
        obtain ⟨hstart, hpath, faithful'⟩ := climbed
        obtain ⟨marks', settled, faithful''⟩ := settle_spec faithful' hpath
        have others : ∀ i ∈ starts, i < nodes.size := fun i hi => hstarts i (List.mem_cons_of_mem _ hi)
        rw [List.find?_cons_of_neg (by simpa using hstart), ← ih faithful'' others]
        show (settle reached.1 reached.2 >>= fun marks => walk nodes marks starts) = _
        rw [settled]
        rfl

/-- Once no parent lies outside, the walk stays inside and finds the first node whose chain of parents never ends. -/
theorem cyclicNode?_eq {u : SourceUnit} (inside : Inside u.nodes) :
    ∃ found, u.cyclicNode? = .ok found ∧
      (found = none ↔ ∀ i < u.nodes.size, Arrives u.nodes i) ∧
      ∀ i, found = some i ↔ i < u.nodes.size ∧ ¬Arrives u.nodes i ∧ ∀ j < i, Arrives u.nodes j := by
  classical
  refine ⟨_, walk_eq inside (faithful_replicate u.nodes) (by simp), ?_, fun i => ?_⟩
  · simp
  · simp [List.find?_range_eq_some, and_left_comm]

end ProgramGraph.Program.SourceUnit
