import Mathlib.Data.List.Basic
import ProgramGraph.Proofs.Discovery.Confluence
import ProgramGraph.Proofs.Discovery.Locality

/-!
# ProgramGraph.Proofs.Discovery.Noninterference

What is not reached does not matter.

* `run_congr`      — two runs from the same explorer go in step as long as the entities that one of them can come to are
  described alike in both worlds.
* `discover_eq_of_embeds` — a world is discovered like every world of the same units that it is embedded in, step by step:
  the same order, the same counts, the same events.
* `discover_local` — it is enough that two lookups agree on the nodes that can be resolved and on the declarations and
  types that one of the two discoveries comes to.
-/

namespace ProgramGraph.Discovery

open Program ProgramGraph.Graph

variable {w w' : World} {x : Explorer}

theorem seedUnit_congr (units : w'.units = w.units) (id : UInt32) : x.seedUnit w' id = x.seedUnit w id := by
  rw [Explorer.seedUnit, Explorer.seedUnit, units]

theorem seed_congr (units : w'.units = w.units) : x.seed w' = x.seed w := by
  rw [Explorer.seed, Explorer.seed, units]
  simp only [seedUnit_congr units]

theorem enrich_congr {e : Entity} (same : describe w' e = describe w e) : x.enrich w' e = x.enrich w e := by
  rw [Explorer.enrich, Explorer.enrich, same]

theorem wave_congr (same : ∀ e ∈ x.graph.frontier, describe w' e = describe w e) : x.wave w' = x.wave w := by
  rw [Explorer.wave_eq, Explorer.wave_eq]
  apply List.foldl_ext
  intro y e he
  exact enrich_congr (same e he)

/-- Two runs go in step if the worlds describe alike whatever the first of them can come to. -/
theorem run_congr (same : ∀ e, Genuine w e → describe w' e = describe w e) {done : List Entity}
    (path : Reaches w {} ⟨x, [], done⟩) : x.run w' = x.run w := by
  -- by the waves of the first run; that it has reached its frontier is all that is known of the second one
  fun_induction Explorer.run w x generalizing done with
  | case1 x h => exact Explorer.run_of_frontier_nil h
  | case2 x h ih =>
    have account := account_of_reaches path
    have wave : x.wave w' = x.wave w := by
      apply wave_congr
      intro e he
      rw [frontier_eq] at he
      exact same e (account.genuine e (List.mem_of_mem_drop he))
    rw [Explorer.run_of_frontier_ne_nil h, wave]
    exact ih (path.trans (reaches_wave w x done h))

theorem discover_eq_of_embeds (units : w'.units = w.units) (embeds : Embeds w w') : discover w' = discover w := by
  obtain ⟨done, path⟩ := reaches_perform w {} .seed []
  show (({} : Explorer).seed w').1.run w' = (({} : Explorer).seed w).1.run w
  rw [seed_congr units]
  refine run_congr ?_ path
  intro e genuine
  exact embeds.describe genuine.reachable

/-- **Discovery depends only on what it reaches.** If a second lookup resolves alike the nodes that can be resolved, and
answers alike for the declarations and types that are discovered with the first one, then it is discovered with it the very
same thing: the same entities and relationships in the same order with the same bags, and the same counts and events. -/
theorem discover_local (units : Units) (options : Options) (l l' : Lookup)
    (nodes : ∀ ref n, units.node? ref = some n → n.resolvable = true → l'.resolve ref = l.resolve ref)
    (symbols : ∀ d, .symbol d ∈ (discover ⟨units, l, options⟩).graph.keys →
      l'.declaration d = l.declaration d ∧ l'.returnType d = l.returnType d ∧ l'.valueType d = l.valueType d)
    (types : ∀ t, .type t ∈ (discover ⟨units, l, options⟩).graph.keys →
      l'.resolvedType t = l.resolvedType t ∧ l'.typeDeclaration t = l.typeDeclaration t) :
    discover ⟨units, l', options⟩ = discover ⟨units, l, options⟩ := by
  have settled := settled_discover ⟨units, l, options⟩
  refine discover_eq_of_embeds rfl ⟨rfl, ?_, ?_⟩
  · intro k reachable
    have known := settled.mem_keys_of_reachable reachable
    cases k with
    | node ref => rfl
    | symbol d => exact (symbols d known).1
    | type t => exact (types t known).1
  · intro k reachable
    have known := settled.mem_keys_of_reachable reachable
    cases k with
    | node ref => exact nodes ref
    | symbol d => exact (symbols d known).2
    | type t => exact (types t known).2

/-- What the knot comes to, and nothing else. -/
def closeUp : Lookup where
  resolve ref := if ref.node = 1 then .ok ⟨0⟩ else .error { kind := .other }
  declaration d := if d = ⟨0⟩ then knot.lookup.declaration d else .error { kind := .other }
  returnType d := if d = ⟨0⟩ then knot.lookup.returnType d else .error { kind := .other }
  valueType := knot.lookup.valueType
  resolvedType t := if t = ⟨0⟩ then knot.lookup.resolvedType t else .error { kind := .other }
  typeDeclaration t := if t = ⟨0⟩ then some ⟨0⟩ else none

theorem node_eq_of_resolvable_knot {ref : NodeRef} {n : SourceNode} (hn : knot.units.node? ref = some n)
    (resolvable : n.resolvable = true) : ref.node = 1 := by
  obtain ⟨u, hu, hnode⟩ := Units.node?_eq_some_iff.mp hn
  have name : u = nameUnit := by
    simp only [knot, Units.get?_insert, Units.get?_empty] at hu
    split at hu <;> simp_all
  subst name
  have place : nameUnit.nodes[ref.node.toNat]? = some n := hnode
  cases h : ref.node.toNat with
  | zero =>
    rw [h] at place
    cases place
    cases resolvable
  | succ i =>
    cases i with
    | zero => exact UInt32.toNat_inj.mp h
    | succ i =>
      rw [h] at place
      cases place

theorem eq_of_symbol_mem_knot {d : DeclId} (known : .symbol d ∈ (discover knot).graph.keys) : d = ⟨0⟩ := by
  cases (settled_discover knot).mem_keys_iff.mp known with
  | step _ leads =>
    cases leads with
    | resolved _ _ hd => cases hd; rfl
    | declared _ _ hd => cases hd; rfl

theorem eq_of_type_mem_knot {t : TypeId} (known : .type t ∈ (discover knot).graph.keys) : t = ⟨0⟩ := by
  cases (settled_discover knot).mem_keys_iff.mp known with
  | step _ leads =>
    cases leads with
    | returned _ _ ht => cases ht; rfl
    | valued _ _ ht => cases ht

theorem discover_local_knot :
    closeUp.resolve ⟨0, 0⟩ ≠ knot.lookup.resolve ⟨0, 0⟩ ∧ closeUp.declaration ⟨1⟩ ≠ knot.lookup.declaration ⟨1⟩ ∧
      discover ⟨knot.units, closeUp, {}⟩ = discover knot := by
  refine ⟨by decide, by decide, discover_local knot.units {} knot.lookup closeUp ?_ ?_ ?_⟩
  · intro ref n hn resolvable
    exact if_pos (node_eq_of_resolvable_knot hn resolvable)
  · intro d known
    rw [eq_of_symbol_mem_knot known]
    exact ⟨rfl, rfl, rfl⟩
  · intro t known
    rw [eq_of_type_mem_knot known]
    exact ⟨rfl, rfl⟩

end ProgramGraph.Discovery
