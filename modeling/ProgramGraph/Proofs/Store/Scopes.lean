import ProgramGraph.Proofs.Store.Export
import ProgramGraph.Proofs.Store.Rows

/-!
# ProgramGraph.Proofs.Store.Scopes

Graphs that go out in different scopes share a store without meeting there.

* `inScope_of_mem_nodeEntries`, `inScope_of_mem_edgeEntries` — an export touches identities of its own scope only.
* `takesEdge_after`  — so what one of them stores decides nothing about the relationships of another one.
* `state_after_comm` — both merge into the store what they merge alone, and that in either order.
* `exports_commute`  — the order of two exports does not matter, neither for the store nor for what each of them counts.
-/

namespace ProgramGraph.Store

open ProgramGraph.Graph Memory

section

variable {refused : List String} {scope : Option String} {g : Graph} {m : Memory}

theorem inScope_of_mem_nodeEntries {k : NodeKey} (h : k ∈ (nodeEntries refused scope g).map Prod.fst) :
    k.InScope scope := by
  rw [nodeEntries, List.map_map, List.mem_map] at h
  obtain ⟨r, mem, rfl⟩ := h
  exact inScope_of_mem_nodeRows (List.mem_filter.mp mem).1

theorem inScope_of_mem_edgeEntries {k : EdgeKey} (h : k ∈ (edgeEntries refused scope g m).map Prod.fst) :
    k.source.InScope scope := by
  rw [edgeEntries, List.map_map, List.mem_map] at h
  obtain ⟨r, mem, rfl⟩ := h
  exact (inScope_of_mem_edgeRows (List.mem_filter.mp mem).1).1

end

theorem insertMany_comm (labels : Std.ExtTreeSet String compare) (some_labels others : List String) :
    (labels.insertMany some_labels).insertMany others = (labels.insertMany others).insertMany some_labels := by
  apply Std.ExtTreeSet.ext_mem
  intro label
  simp only [Std.ExtTreeSet.mem_insertMany_list, or_assoc]
  rw [or_comm (a := _ = true)]

section

variable (refused : List String) (g g' : Graph) {scope scope' : Option String} (m : Memory) (different : scope ≠ scope')

include different

theorem getElem?_nodes_after {k : NodeKey} (inside : k.InScope scope') :
    ((exportGraph (Memory.store refused) scope g m).state.withNodes refused scope' g').nodes[k]? =
      (m.withNodes refused scope' g').nodes[k]? := by
  have untouched : k ∉ (nodeEntries refused scope g).map Prod.fst := by
    intro touched
    exact different ((inScope_of_mem_nodeEntries touched).eq inside)
  rw [nodes_withNodes, nodes_withNodes, state_exportGraph_eq]
  exact getElem?_mergeAll_congr (getElem?_mergeAll_of_not_mem untouched m.nodes) _

theorem takesEdge_after : ∀ r ∈ edgeRows scope' g',
    takesEdge refused ((exportGraph (Memory.store refused) scope g m).state.withNodes refused scope' g') r =
      takesEdge refused (m.withNodes refused scope' g') r := by
  intro r hr
  obtain ⟨source, target⟩ := inScope_of_mem_edgeRows hr
  exact takesEdge_congr_ends (getElem?_nodes_after refused g g' m different source)
    (getElem?_nodes_after refused g g' m different target)

/-- The second of two exports merges what it merges when it goes out alone. -/
theorem state_after :
    (exportGraph (Memory.store refused) scope' g' (exportGraph (Memory.store refused) scope g m).state).state =
      { nodes := mergeAll (mergeAll m.nodes (nodeEntries refused scope g)) (nodeEntries refused scope' g')
        edges := mergeAll (mergeAll m.edges (edgeEntries refused scope g m)) (edgeEntries refused scope' g' m)
        indexes := (m.indexes.insertMany (nodeLabels g)).insertMany (nodeLabels g') } := by
  have same := edgeEntries_congr (takesEdge_after refused g g' m different)
  rw [state_exportGraph_eq, same, state_exportGraph_eq]

theorem state_after_comm :
    (exportGraph (Memory.store refused) scope' g' (exportGraph (Memory.store refused) scope g m).state).state =
      (exportGraph (Memory.store refused) scope g (exportGraph (Memory.store refused) scope' g' m).state).state := by
  have nodes : ∀ k ∈ (nodeEntries refused scope g).map Prod.fst, k ∉ (nodeEntries refused scope' g').map Prod.fst := by
    intro k hk hk'
    exact different ((inScope_of_mem_nodeEntries hk).eq (inScope_of_mem_nodeEntries hk'))
  have edges : ∀ k ∈ (edgeEntries refused scope g m).map Prod.fst,
      k ∉ (edgeEntries refused scope' g' m).map Prod.fst := by
    intro k hk hk'
    exact different ((inScope_of_mem_edgeEntries hk).eq (inScope_of_mem_edgeEntries hk'))
  rw [state_after refused g g' m different, state_after refused g' g m different.symm, mergeAll_comm nodes,
    mergeAll_comm edges, insertMany_comm]

end

/-- **Exports in different scopes do not interfere.** The scope and the key can be read off a scoped id, whatever the text
of the scope is. So two graphs that are exported in different scopes, into any store that refuses any ids, leave the same
behind in either order, and each of them counts what it counts when it goes out alone. -/
theorem exports_commute :
    (Function.Injective fun p : Option String × EntityKey => scopedId p.1 p.2.id) ∧
      ∀ (refused : List String) (g g' : Graph) (scope scope' : Option String) (m : Memory), scope ≠ scope' →
        let one := exportGraph (Memory.store refused) scope g m
        let other := exportGraph (Memory.store refused) scope' g' m
        let otherAfter := exportGraph (Memory.store refused) scope' g' one.state
        let oneAfter := exportGraph (Memory.store refused) scope g other.state
        otherAfter.state = oneAfter.state ∧ otherAfter.summary = other.summary ∧ oneAfter.summary = one.summary := by
  refine ⟨?_, ?_⟩
  · intro p p' h
    obtain ⟨scope, key⟩ := scopedId_injective h
    exact Prod.ext scope key
  · intro refused g g' scope scope' m different one other otherAfter oneAfter
    refine ⟨state_after_comm refused g g' m different, ?_, ?_⟩
    · exact summary_exportGraph_congr (takesEdge_after refused g g' m different)
    · exact summary_exportGraph_congr (takesEdge_after refused g' g m different.symm)

/-- A node under a file, as a graph. -/
def leaf (file : String) : Graph :=
  Graph.empty.connect ⟨.ofNode ⟨0, 1⟩ "NameExpr", .ofNode ⟨0, 0⟩ file, .parentOf⟩ .empty

theorem exports_commute_leaf :
    let send := exportGraph (Memory.store ["/syntax:0:1"])
    (none : Option String) ≠ some "" ∧
      (send (some "") (leaf "B") (send none (leaf "A") {}).state).state =
        (send none (leaf "A") (send (some "") (leaf "B") {}).state).state := by
  refine ⟨by decide, ?_⟩
  exact (exports_commute.2 ["/syntax:0:1"] (leaf "A") (leaf "B") none (some "") {} (by decide)).1

end ProgramGraph.Store
