import ProgramGraph.Program.Units
import ProgramGraph.Proofs.Program.Validity

/-!
# ProgramGraph.Proofs.Program.Units

What soundness of a unit gives to those who look at its nodes.

* `SourceUnit.placeCount` — how many nodes have a place of their own: places have 32 bits.
* `SourceUnit.node?_parent_isSome` — the parent of a node of a sound unit is a node of the unit.
* `Units.node?_eq_some_iff` — a node of a set of units is a node of one of them.
* `Units.nodeTotal`         — how many nodes there are.
* `Units.union`             — the units of two sets; for sets that `Agree` the order does not matter.
-/

namespace ProgramGraph.Program

namespace SourceUnit

/-- How many nodes of a unit have a place of their own. -/
def placeCount (u : SourceUnit) : Nat :=
  min u.nodes.size UInt32.size

theorem toNat_lt_placeCount {u : SourceUnit} {i : UInt32} {n : SourceNode} (hn : u.node? i = some n) :
    i.toNat < u.placeCount :=
  Nat.lt_min.mpr ⟨(Array.getElem?_eq_some_iff.mp hn).1, i.toNat_lt⟩

/-- The parent of a node of a sound unit is a node of the unit. -/
theorem node?_parent_isSome {u : SourceUnit} (h : u.validate = .ok ()) {i p : UInt32} {n : SourceNode}
    (hn : u.node? i = some n) (hp : n.parent = some p) : ∃ m, u.node? p = some m := by
  have link : LinksTo u.nodes i.toNat p.toNat := by rw [LinksTo, parentAt?_eq hn, hp, Option.map_some]
  exact ⟨_, Array.getElem?_eq_getElem ((validate_eq_ok_iff.mp h).inside _ _ link)⟩

end SourceUnit

namespace Units

@[simp] theorem get?_empty (id : UInt32) : empty.get? id = none := by
  simp [get?, empty]

theorem get?_insert (s : Units) (id id' : UInt32) (u : SourceUnit) (h : u.validate = .ok ()) :
    (s.insert id u h).get? id' = if id = id' then some u else s.get? id' := by
  simp [get?, insert, Std.ExtTreeMap.getElem?_insert]

theorem node?_eq_some_iff {s : Units} {r : NodeRef} {n : SourceNode} :
    s.node? r = some n ↔ ∃ u, s.get? r.unit = some u ∧ u.node? r.node = some n :=
  Option.bind_eq_some_iff

theorem validate_of_get? {s : Units} {id : UInt32} {u : SourceUnit} (h : s.get? id = some u) :
    u.validate = .ok () :=
  s.sound id u h

/-- The parent of a node of a set of units is a node of the same unit. -/
theorem node?_parent {s : Units} {r : NodeRef} {n : SourceNode} {p : UInt32} (hn : s.node? r = some n)
    (hp : n.parent = some p) : ∃ m, s.node? ⟨r.unit, p⟩ = some m := by
  obtain ⟨u, hu, hnode⟩ := node?_eq_some_iff.mp hn
  obtain ⟨m, hm⟩ := SourceUnit.node?_parent_isSome (validate_of_get? hu) hnode hp
  exact ⟨m, node?_eq_some_iff.mpr ⟨u, hu, hm⟩⟩

/-- How many nodes there are in all units. -/
def nodeTotal (s : Units) : Nat :=
  (s.toList.flatMap fun unit => unit.2.nodes.toList).length

/-! ## Unions -/

/-- The units of two sets. Of two units with the same number, that of the second set counts. -/
def union (s s' : Units) : Units where
  table := s.table ∪ s'.table
  sound := by
    intro id u found
    rw [Std.ExtTreeMap.getElem?_union, Option.or_eq_some_iff] at found
    rcases found with found | ⟨_, found⟩
    · exact s'.sound id u found
    · exact s.sound id u found

/-- Two sets have no different units with the same number. -/
def Agree (s s' : Units) : Prop :=
  ∀ id u u', s.get? id = some u → s'.get? id = some u' → u = u'

theorem get?_union (s s' : Units) (id : UInt32) : (s.union s').get? id = (s'.get? id).or (s.get? id) :=
  Std.ExtTreeMap.getElem?_union

theorem get?_union_eq_some_iff {s s' : Units} (agree : s.Agree s') {id : UInt32} {u : SourceUnit} :
    (s.union s').get? id = some u ↔ s.get? id = some u ∨ s'.get? id = some u := by
  rw [get?_union, Option.or_eq_some_iff]
  constructor
  · rintro (h | ⟨_, h⟩)
    · exact .inr h
    · exact .inl h
  · rintro (h | h)
    · cases h' : s'.get? id with
      | none => exact .inr ⟨rfl, h⟩
      | some u' => exact .inl (by rw [agree id u u' h h'])
    · exact .inl h

end Units
end ProgramGraph.Program
