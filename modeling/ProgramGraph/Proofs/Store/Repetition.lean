import ProgramGraph.Proofs.Store.Export
import ProgramGraph.Proofs.Store.Rows

/-!
# ProgramGraph.Proofs.Store.Repetition

Exporting a graph once more.

* `nodup_keys_nodeEntries`, `nodup_keys_edgeEntries` — an export merges at most once under every key.
* `exportGraph_again` — a second export of the same graph leaves the store as it is, and comes to the same counts.
-/

namespace ProgramGraph.Store

open ProgramGraph.Graph Memory

variable (refused : List String) (scope : Option String) (g : Graph) (m : Memory)

theorem nodup_keys_nodeEntries : ((nodeEntries refused scope g).map Prod.fst).Nodup := by
  rw [nodeEntries, List.map_map]
  exact (nodup_keys_nodeRows scope g).sublist (List.filter_sublist.map _)

theorem nodup_keys_edgeEntries : ((edgeEntries refused scope g m).map Prod.fst).Nodup := by
  rw [edgeEntries, List.map_map]
  exact (nodup_keys_edgeRows scope g).sublist (List.filter_sublist.map _)

theorem insertMany_insertMany_self (labels : Std.ExtTreeSet String compare) (more : List String) :
    (labels.insertMany more).insertMany more = labels.insertMany more := by
  apply Std.ExtTreeSet.ext_mem
  intro label
  simp only [Std.ExtTreeSet.mem_insertMany_list, or_assoc, or_self]

/-- **Exporting is idempotent.** Whatever a store holds and refuses, and whether or not the ends of relationships have the
labels under which they are stored, a graph that was exported into it can be exported again: nothing changes, and what is
taken and what is not is the same as before. -/
theorem exportGraph_again :
    let first := exportGraph (Memory.store refused) scope g m
    let second := exportGraph (Memory.store refused) scope g first.state
    second.state = first.state ∧ second.summary = first.summary := by
  intro first second
  have state := state_exportGraph_eq refused scope g m
  have state' := state_exportGraph_eq refused scope g first.state
  have nodes : (first.state.withNodes refused scope g).nodes = (m.withNodes refused scope g).nodes := by
    rw [nodes_withNodes, nodes_withNodes, state]
    exact mergeAll_mergeAll_self (nodup_keys_nodeEntries refused scope g) m.nodes
  -- the second export finds the ends of the same relationships, although it starts from another store
  have same : ∀ r ∈ edgeRows scope g, takesEdge refused (first.state.withNodes refused scope g) r =
      takesEdge refused (m.withNodes refused scope g) r :=
    fun r _ => congrFun (takesEdge_congr nodes) r
  refine ⟨?_, summary_exportGraph_congr same⟩
  refine state'.trans ?_
  rw [edgeEntries_congr same, state, mergeAll_mergeAll_self (nodup_keys_nodeEntries refused scope g),
    mergeAll_mergeAll_self (nodup_keys_edgeEntries refused scope g m), insertMany_insertMany_self]

end ProgramGraph.Store
