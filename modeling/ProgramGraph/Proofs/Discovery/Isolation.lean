import ProgramGraph.Command.Discover
import ProgramGraph.Proofs.Discovery.Confluence
import ProgramGraph.Proofs.Program.Snapshot

/-!
# ProgramGraph.Proofs.Discovery.Isolation

A malformed unit of a snapshot touches no other unit, and nothing that is discovered depends on what stands in it.

* `worldOf_congr`       — snapshots that are alike where they are sound make the same world.
* `ofSnapshot_isolates` — every sound unit keeps its place, every malformed one is reported, and discovery sees no more.
-/

namespace ProgramGraph.Discovery

open Command Program

theorem worldOf_congr {s s' : Snapshot} (alike : s.AlikeWhereSound s') (options : Options) (hash : String) :
    worldOf options (ofSnapshot s' hash) = worldOf options (ofSnapshot s hash) := by
  have units := units_ofSnapshot_congr alike hash
  have tables : (ofSnapshot s' hash).tables = (ofSnapshot s hash).tables := tables_congr alike
  rw [worldOf, worldOf, units, tables]

/-- **Malformed units are isolated.** A unit of a program is a sound unit of its snapshot, found under its place there
whatever stands before it, and changed in nothing but a content hash that it did not have. Every malformed unit is
reported, in order. Two snapshots that differ in malformed units only are discovered alike, down to the order of the
entities and the counts. -/
theorem ofSnapshot_isolates (s : Snapshot) (hash : String) :
    let p := ofSnapshot s hash
    (s.units.length ≤ UInt32.size → ∀ id v, p.units.get? id = some v ↔
      ∃ u, s.units[id.toNat]? = some u ∧ u.validate = .ok () ∧
        v = { u with contentHash := some (u.contentHash.getD hash) }) ∧
      (p.rejected = s.units.zipIdx.filterMap fun placed => placed.1.report? placed.2) ∧
      ∀ s' options, s.AlikeWhereSound s' →
        discover (worldOf options (ofSnapshot s' hash)) = discover (worldOf options p) := by
  refine ⟨fun fits id v => get?_units_ofSnapshot fits, rejected_ofSnapshot s hash, ?_⟩
  intro s' options alike
  rw [worldOf_congr alike]

/-- A snapshot whose first unit has the given nodes, in front of a sound one. -/
def fronted (nodes : Array SourceNode) : Snapshot :=
  { units := [{ fileName := some "Front.java", nodes := nodes }, nameUnit] }

theorem ofSnapshot_isolates_fronted :
    (ofSnapshot (fronted #[]) "ff").units.get? 1 = some { nameUnit with contentHash := some "ff" } ∧
      (ofSnapshot (fronted #[]) "ff").rejected = [(0, ⟨"Front.java", .noNodes⟩)] ∧
      discover (worldOf {} (ofSnapshot (fronted #[{ kind := "NameExpr", parent := some 0 }]) "ff")) =
        discover (worldOf {} (ofSnapshot (fronted #[]) "ff")) := by
  obtain ⟨units, rejected, isolated⟩ := ofSnapshot_isolates (fronted #[]) "ff"
  refine ⟨(units (by decide) 1 _).mpr ⟨nameUnit, rfl, validate_nameUnit, rfl⟩,
    rejected.trans (by decide +kernel), isolated _ {} ⟨rfl, rfl, rfl, rfl, ?_⟩⟩
  intro i u u' hu hu'
  cases i with
  | zero =>
    cases hu
    cases hu'
    exact .inr ⟨by decide +kernel, by decide +kernel⟩
  | succ i => exact .inl (Option.some.inj (hu'.symm.trans hu))

end ProgramGraph.Discovery
