import ProgramGraph.Proofs.Discovery.Noninterference

/-!
# ProgramGraph.Proofs.Discovery.SelfLoops

Relating reference types to themselves adds these relationships and changes nothing else.

* `World.withoutLoops` — a world whose types are not related to themselves.
* `AddsLoops`       — a contribution that is another one, with relationships of the entity to itself in front.
* `Alike`           — two explorers that know the same entities with the same bags, wait for the same ones and have counted
  the same. With and without loops, a run takes alike explorers to alike ones.
* `self_loops_only` — so the relationships of types to themselves are all the difference.
-/

namespace ProgramGraph

open Program ProgramGraph.Graph

namespace Graph

@[simp] theorem vertices_relateAll (g : Graph) (rs : List (Relationship × Bag)) :
    (g.relateAll rs).vertices = g.vertices := by
  induction rs generalizing g with
  | nil => rfl
  | cons r rs ih =>
    rw [relateAll_cons, ih, relate]
    split <;> rfl

theorem vertices_registerAll_congr {g g' : Graph} (h : g'.vertices = g.vertices) (es : List Entity) :
    (g'.registerAll es).vertices = (g.registerAll es).vertices := by
  induction es generalizing g g' with
  | nil => exact h
  | cons e es ih =>
    apply ih
    simp [register, h]

end Graph

namespace Discovery

/-- The same world when types are not related to themselves. -/
def World.withoutLoops (w : World) : World :=
  { w with options := { typeSelfLoops := false } }

variable {w : World} {x y : Explorer} {e : Entity}

/-! ## Contributions -/

/-- A contribution is another one, with relationships of the entity to itself in front of its findings. -/
structure AddsLoops (e : Entity) (c c' : Enrichment) : Prop where
  bag : c'.bag = c.bag
  failure : c'.failure = c.failure
  missing : c'.missing = c.missing
  findings : ∃ loops, c.findings = loops ++ c'.findings ∧
    ∀ f ∈ loops, f = .relationship ⟨e, e, .typeOf⟩ (usedAs "reference_type")

theorem AddsLoops.refl (e : Entity) (c : Enrichment) : AddsLoops e c c :=
  ⟨rfl, rfl, rfl, [], rfl, by simp⟩

theorem addsLoops_describeType (w : World) (e : Entity) (t : TypeId) :
    AddsLoops e (describeType w e t) (describeType w.withoutLoops e t) := by
  have none : selfLoop w.withoutLoops e = [] := rfl
  have lookup : w.withoutLoops.lookup = w.lookup := rfl
  have declaration : ∀ type, describeTypeDeclaration w.withoutLoops t type = describeTypeDeclaration w t type :=
    fun _ => rfl
  unfold describeType
  rw [lookup]
  cases ht : w.lookup.resolvedType t with
  | error f => exact .refl e _
  | ok type =>
    by_cases reference : type.isReferenceType = true
    · simp only [reference, if_true, none, declaration, List.nil_append]
      exact ⟨rfl, rfl, rfl, selfLoop w e, rfl, fun f hf => (mem_selfLoop_iff.mp hf).2⟩
    · simp only [reference]
      exact .refl e _

theorem addsLoops_describe (w : World) (e : Entity) : AddsLoops e (describe w e) (describe w.withoutLoops e) := by
  obtain ⟨k, label⟩ := e
  cases k with
  | node ref => exact .refl _ _
  | symbol d => exact .refl _ _
  | type t => exact addsLoops_describeType w _ t

theorem relation_ne_typeOf {r : Relationship × Bag} (h : r ∈ (describe w.withoutLoops e).relationships) :
    r.1.relation ≠ .typeOf := by
  obtain ⟨r, bag⟩ := r
  cases mem_relationships_iff_finds.mp h with
  | self wanted => cases wanted
  | parent | returned | valued => simp

theorem relationships_withoutLoops (w : World) (e : Entity) :
    (describe w.withoutLoops e).relationships =
      (describe w e).relationships.filter fun r => r.1.relation ≠ .typeOf := by
  obtain ⟨loops, findings, hloops⟩ := (addsLoops_describe w e).findings
  rw [Enrichment.relationships, Enrichment.relationships, findings, List.filterMap_append, List.filter_append]
  have gone : (loops.filterMap Finding.relationship?).filter (fun r => r.1.relation ≠ .typeOf) = [] := by
    rw [List.filter_eq_nil_iff]
    intro r hr
    obtain ⟨f, hf, hr⟩ := List.mem_filterMap.mp hr
    rw [hloops f hf, Finding.relationship?, Option.some.injEq] at hr
    simp [← hr]
  have kept : (describe w.withoutLoops e).relationships.filter (fun r => r.1.relation ≠ .typeOf) =
      (describe w.withoutLoops e).relationships := by
    rw [List.filter_eq_self]
    intro r hr
    simpa using relation_ne_typeOf hr
  rw [gone, List.nil_append]
  exact kept.symm

/-! ## Two explorers in step -/

/-- Two explorers that differ in their relationships and events at most. -/
structure Alike (x y : Explorer) : Prop where
  vertices : y.graph.vertices = x.graph.vertices
  drained : y.graph.drained = x.graph.drained
  stats : y.stats = x.stats

theorem vertices_addTo_congr {g g' : Graph} {c c' : Enrichment} (h : AddsLoops e c c') (known : e.key ∈ g.keys)
    (same : g'.vertices = g.vertices) : (c'.addTo g' e).vertices = (c.addTo g e).vertices := by
  unfold Enrichment.addTo
  rw [h.missing, h.bag]
  split
  · exact same
  · obtain ⟨loops, findings, hloops⟩ := h.findings
    -- the loops only register the entity, and it is known already
    have still : g.registerAll (loops.flatMap Finding.entities) = g := by
      apply registerAll_of_subset
      intro e' he'
      obtain ⟨f, hf, he'⟩ := List.mem_flatMap.mp he'
      rw [hloops f hf] at he'
      simp [Finding.entities] at he'
      exact he' ▸ known
    have added : (addFindings g' c'.findings).vertices = (addFindings g c.findings).vertices := by
      rw [addFindings_eq, addFindings_eq, vertices_relateAll, vertices_relateAll, findings, List.flatMap_append,
        registerAll_append, still]
      exact vertices_registerAll_congr same _
    simp only [merge, added]

namespace Alike

theorem frontier (h : Alike x y) : y.graph.frontier = x.graph.frontier := by
  rw [Graph.frontier, Graph.frontier, h.vertices, h.drained]

theorem enrich (h : Alike x y) (known : e.key ∈ x.graph.keys) :
    Alike (x.enrich w e) (y.enrich w.withoutLoops e) := by
  have loops := addsLoops_describe w e
  refine ⟨vertices_addTo_congr loops known h.vertices, ?_, ?_⟩
  · rw [Explorer.drained_enrich, Explorer.drained_enrich, h.drained]
  · simp only [Explorer.enrich, h.stats, loops.failure]

theorem enrichAll {es : List Entity} (h : Alike x y) (known : ∀ e ∈ es, e.key ∈ x.graph.keys) :
    Alike (es.foldl (Explorer.enrich w) x) (es.foldl (Explorer.enrich w.withoutLoops) y) := by
  induction es generalizing x y with
  | nil => exact h
  | cons e es ih =>
    apply ih (h.enrich (known e List.mem_cons_self))
    intro e' he'
    exact Enrichment.keys_subset_addTo x.graph e _ (known e' (List.mem_cons_of_mem _ he'))

theorem wave (h : Alike x y) : Alike (x.wave w) (y.wave w.withoutLoops) := by
  rw [Explorer.wave_eq, Explorer.wave_eq, h.frontier]
  apply enrichAll
  · refine ⟨h.vertices, ?_, ?_⟩
    · simp [Explorer.startWave, Explorer.log, Graph.drain, h.vertices]
    · simp [Explorer.startWave, Explorer.log, h.stats]
  · intro e he
    rw [frontier_eq] at he
    exact mem_keys_of_mem_entities (List.mem_of_mem_drop he)

theorem run (h : Alike x y) : Alike (x.run w) (y.run w.withoutLoops) := by
  fun_induction Explorer.run w x generalizing y with
  | case1 x none_left =>
    rw [Explorer.run_of_frontier_nil (h.frontier.trans none_left)]
    exact ⟨h.vertices, h.drained, h.stats⟩
  | case2 x some_left ih =>
    have some_left' : y.graph.frontier ≠ [] := by rwa [h.frontier]
    have next := Explorer.run_of_frontier_ne_nil (w := w.withoutLoops) some_left'
    rw [next]
    exact ih h.wave

end Alike

theorem alike_discover (w : World) : Alike (discover w) (discover w.withoutLoops) := by
  have seeded : (({} : Explorer).seed w.withoutLoops).1 = (({} : Explorer).seed w).1 := rfl
  have start : Alike (({} : Explorer).seed w).1 (({} : Explorer).seed w.withoutLoops).1 := by
    rw [seeded]
    exact ⟨rfl, rfl, rfl⟩
  exact start.run

/-- **Loops change nothing else.** With and without relationships of reference types to themselves, a discovery comes to the
same entities in the same order with the same bags, and to the same counts. Its relationships without loops are those with
loops, in their order and with their bags, but for those of this kind, and these are all from a type to itself. -/
theorem self_loops_only (units : Units) (lookup : Lookup) :
    let looped := discover ⟨units, lookup, { typeSelfLoops := true }⟩
    let plain := discover ⟨units, lookup, { typeSelfLoops := false }⟩
    plain.graph.nodes = looped.graph.nodes ∧ plain.stats = looped.stats ∧
      plain.graph.relationships = looped.graph.relationships.filter (fun r => r.1.relation ≠ .typeOf) ∧
      ∀ r ∈ looped.graph.relationships, r.1.relation = .typeOf → r.1.isSelfLoop = true := by
  intro looped plain
  have alike : Alike looped plain := alike_discover ⟨units, lookup, { typeSelfLoops := true }⟩
  have settled : Settled ⟨units, lookup, { typeSelfLoops := true }⟩ looped := settled_discover _
  have settled' : Settled ⟨units, lookup, { typeSelfLoops := false }⟩ plain := settled_discover _
  refine ⟨by rw [Graph.nodes, Graph.nodes, alike.vertices], alike.stats, ?relationships, ?loops⟩
  case relationships =>
    have entities : plain.graph.entities = looped.graph.entities := by
      rw [entities_eq, entities_eq, alike.vertices]
    rw [settled'.relationships, settled.relationships, entities, List.filter_flatMap]
    congr 1
    funext e
    exact relationships_withoutLoops ⟨units, lookup, { typeSelfLoops := true }⟩ e
  case loops =>
    rintro ⟨r, bag⟩ hr relation
    obtain ⟨related, _, _⟩ := settled.mem_relationships_iff.mp hr
    have same : r.key.source = r.key.target := by
      have typeOf : r.key.relation = .typeOf := relation
      generalize r.key = k at related typeOf
      cases related with
      | self => rfl
      | parent | returned | valued => cases typeOf
    exact decide_eq_true same

theorem self_loops_only_knot :
    ∃ r ∈ (discover ⟨knot.units, knot.lookup, { typeSelfLoops := true }⟩).graph.relationships, r.1.isSelfLoop = true ∧
      r ∉ (discover ⟨knot.units, knot.lookup, { typeSelfLoops := false }⟩).graph.relationships := by
  obtain ⟨n, node, resolvable⟩ := node?_knot
  have symbol : Reachable knot (.symbol ⟨0⟩) := .step (.node node) (.resolved node resolvable rfl)
  have related : Related knot ⟨.type ⟨0⟩, .type ⟨0⟩, .typeOf⟩ (usedAs "reference_type") :=
    .self rfl (symbol.step (.returned rfl rfl rfl)) rfl rfl
  have mem := (settled_discover knot).mem_relationships_of_related related
  obtain ⟨_, _, kept, loops⟩ := self_loops_only knot.units knot.lookup
  refine ⟨_, mem, loops _ mem rfl, fun still => ?_⟩
  rw [kept] at still
  have other := (List.mem_filter.mp still).2
  simp [World.relationship] at other

end Discovery
end ProgramGraph
