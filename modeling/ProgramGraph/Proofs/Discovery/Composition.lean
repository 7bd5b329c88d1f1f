import ProgramGraph.Proofs.Discovery.Confluence
import ProgramGraph.Proofs.Discovery.Locality

/-!
# ProgramGraph.Proofs.Discovery.Composition

Programs that are put together from parts.

* `Graph.Within`     — a graph is part of another one: what it holds under a key, the other one holds as well.
* `Embeds.within`    — the graph of a world is part of the graph of every world that it is embedded in.
* `reachable_union`  — units reach together what they reach apart.
* `discover_union`   — the graph of a union of units is the union of their graphs.
-/

namespace ProgramGraph

open Program ProgramGraph.Graph

/-- What a graph holds under its keys, another one holds as well. -/
structure Graph.Within (g g' : Graph) : Prop where
  nodes : ∀ k ∈ g.keys, g'.get? k = g.get? k
  relationships : ∀ k ∈ g.relationKeys, g'.getRelationship? k = g.getRelationship? k

namespace Discovery

theorem Embeds.within {w w' : World} (h : Embeds w w') : (discover w).graph.Within (discover w').graph where
  nodes := by
    intro k hk
    have reachable := (settled_discover w).mem_keys_iff.mp hk
    have genuine := Genuine.of_key reachable
    rw [(settled_discover w).get?_of_reachable reachable,
      (settled_discover w').get?_of_reachable (h.reachable reachable), h.entity reachable, h.describe genuine.reachable]
  relationships := by
    intro k hk
    obtain ⟨bag, related⟩ := (settled_discover w).mem_relationKeys_iff.mp hk
    have source := related.reachable_source
    have same : w'.relationship k = w.relationship k := by
      rw [World.relationship, World.relationship, h.entity source, h.entity related.reachable_target]
    rw [(settled_discover w).getRelationship?_of_related related,
      (settled_discover w').getRelationship?_of_related ((h.related_iff source).mpr related), same]

section

variable {a b : Units} {lookup : Lookup} {options : Options}

/-- More units change nothing for those that are there. -/
theorem embeds_of_units (more : ∀ id u, a.get? id = some u → b.get? id = some u) :
    Embeds ⟨a, lookup, options⟩ ⟨b, lookup, options⟩ where
  options := rfl
  subject := by
    intro k reachable
    cases k with
    | node ref =>
      obtain ⟨n, hn⟩ := reachable.node?_isSome rfl
      obtain ⟨u, hu, _⟩ := Units.node?_eq_some_iff.mp hn
      exact (more _ u hu).trans hu.symm
    | symbol d => rfl
    | type t => rfl
  answers := by
    intro k _
    cases k with
    | node ref => exact fun _ _ _ => rfl
    | symbol d => exact ⟨rfl, rfl⟩
    | type t => rfl

theorem embeds_union_left (agree : a.Agree b) : Embeds ⟨a, lookup, options⟩ ⟨a.union b, lookup, options⟩ :=
  embeds_of_units fun _ _ hu => (Units.get?_union_eq_some_iff agree).mpr (.inl hu)

theorem embeds_union_right (agree : a.Agree b) : Embeds ⟨b, lookup, options⟩ ⟨a.union b, lookup, options⟩ :=
  embeds_of_units fun _ _ hu => (Units.get?_union_eq_some_iff agree).mpr (.inr hu)

/-- Units reach together what they reach apart. -/
theorem reachable_union (agree : a.Agree b) {k : EntityKey} :
    Reachable ⟨a.union b, lookup, options⟩ k ↔
      Reachable ⟨a, lookup, options⟩ k ∨ Reachable ⟨b, lookup, options⟩ k := by
  constructor
  · intro reachable
    induction reachable with
    | node hn =>
      obtain ⟨u, hu, hnode⟩ := Units.node?_eq_some_iff.mp hn
      rcases (Units.get?_union_eq_some_iff agree).mp hu with hu | hu
      · exact .inl (.node (Units.node?_eq_some_iff.mpr ⟨u, hu, hnode⟩))
      · exact .inr (.node (Units.node?_eq_some_iff.mpr ⟨u, hu, hnode⟩))
    | step _ leads ih =>
      -- a step from the inside of a part stays in that part
      rcases ih with before | before
      · exact .inl (before.step ((embeds_union_left agree).leads_of_leads before leads))
      · exact .inr (before.step ((embeds_union_right agree).leads_of_leads before leads))
  · rintro (reachable | reachable)
    · exact (embeds_union_left agree).reachable reachable
    · exact (embeds_union_right agree).reachable reachable

theorem related_union (agree : a.Agree b) {k : RelationKey} {bag : Bag} :
    Related ⟨a.union b, lookup, options⟩ k bag ↔
      Related ⟨a, lookup, options⟩ k bag ∨ Related ⟨b, lookup, options⟩ k bag := by
  constructor
  · intro related
    rcases (reachable_union agree).mp related.reachable_source with source | source
    · exact .inl (((embeds_union_left agree).related_iff source).mp related)
    · exact .inr (((embeds_union_right agree).related_iff source).mp related)
  · rintro (related | related)
    · exact ((embeds_union_left agree).related_iff related.reachable_source).mpr related
    · exact ((embeds_union_right agree).related_iff related.reachable_source).mpr related

end

/-- **Discovery is compositional.** The graph of a union of units holds the keys of the two graphs and no others, and under
each of them what that graph holds. Where both graphs hold something, they hold the same. -/
theorem discover_union (a b : Units) (agree : a.Agree b) (lookup : Lookup) (options : Options) :
    let whole := (discover ⟨a.union b, lookup, options⟩).graph
    let first := (discover ⟨a, lookup, options⟩).graph
    let second := (discover ⟨b, lookup, options⟩).graph
    (∀ k, k ∈ whole.keys ↔ k ∈ first.keys ∨ k ∈ second.keys) ∧
      (∀ k, k ∈ whole.relationKeys ↔ k ∈ first.relationKeys ∨ k ∈ second.relationKeys) ∧
      first.Within whole ∧ second.Within whole ∧
      (∀ k ∈ first.keys, k ∈ second.keys → first.get? k = second.get? k) ∧
      ∀ k ∈ first.relationKeys, k ∈ second.relationKeys →
        first.getRelationship? k = second.getRelationship? k := by
  intro whole first second
  have inFirst : first.Within whole := (embeds_union_left agree).within
  have inSecond : second.Within whole := (embeds_union_right agree).within
  refine ⟨?_, ?_, inFirst, inSecond, ?_, ?_⟩
  · intro k
    rw [(settled_discover _).mem_keys_iff, (settled_discover _).mem_keys_iff, (settled_discover _).mem_keys_iff]
    exact reachable_union agree
  · intro k
    rw [(settled_discover _).mem_relationKeys_iff, (settled_discover _).mem_relationKeys_iff,
      (settled_discover _).mem_relationKeys_iff, ← exists_or]
    simp only [related_union agree]
  · intro k hk hk'
    exact (inFirst.nodes k hk).symm.trans (inSecond.nodes k hk')
  · intro k hk hk'
    exact (inFirst.relationships k hk).symm.trans (inSecond.relationships k hk')

/-- Units that have one in common with the knot. -/
def neighbours : Units :=
  (Units.empty.insert 1 nameUnit validate_nameUnit).insert 2 nameUnit validate_nameUnit

theorem agree_neighbours : knot.units.Agree neighbours := by
  intro id u u' hu hu'
  simp only [knot, neighbours, Units.get?_insert, Units.get?_empty] at hu hu'
  split at hu <;> split at hu' <;> simp_all

theorem discover_union_knot :
    knot.units.Agree neighbours ∧
      (discover knot).graph.Within (discover ⟨knot.units.union neighbours, knot.lookup, {}⟩).graph := by
  obtain ⟨_, _, within, _⟩ := discover_union knot.units neighbours agree_neighbours knot.lookup {}
  exact ⟨agree_neighbours, within⟩

end Discovery
end ProgramGraph
