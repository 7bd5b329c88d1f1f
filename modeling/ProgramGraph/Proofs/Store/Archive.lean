import ProgramGraph.Proofs.Store.Integrity
import ProgramGraph.Proofs.Store.Repetition
import ProgramGraph.Proofs.Store.Scopes

/-!
# ProgramGraph.Proofs.Store.Archive

A store in memory to which many graphs were exported, each in its own scope, beside entities outside all scopes.

* `Memory.Archive`             — what such a store holds, said by the graphs and the other entities alone.
* `Memory.Archive.exportGraph` — one more graph. It may be there already; other graphs must have other scopes.
* `Memory.Archive.mergeNode`   — one more entity outside all scopes.
* `Memory.Archive.same`        — so neither the order nor the number of the exports matters.
-/

namespace ProgramGraph.Store

open ProgramGraph.Graph

/-- No scope is named in the id. -/
def NodeKey.IsOutside (k : NodeKey) : Prop :=
  '/' ∉ k.id.toList

theorem NodeKey.not_isOutside_of_inScope {k : NodeKey} {scope : String} (h : k.InScope (some scope)) : ¬k.IsOutside := by
  obtain ⟨e, id⟩ := h
  rw [IsOutside, id, toList_scopedId_some]
  simp

namespace Memory

/-! ## Merging what may be there already -/

section

variable {κ : Type} {cmp : κ → κ → Ordering} [Std.TransCmp cmp] [Std.LawfulEqCmp cmp]

/-- Bags under different keys are added to what is held, if nothing else is held under these keys. -/
theorem getElem?_mergeAll_of_agree {t : Std.ExtTreeMap κ Bag cmp} {rows : List (κ × Bag)}
    (different : (rows.map Prod.fst).Nodup)
    (agree : ∀ k ∈ rows.map Prod.fst, ∀ bag, t[k]? = some bag → (k, bag) ∈ rows) {k : κ} {bag : Bag} :
    (mergeAll t rows)[k]? = some bag ↔ t[k]? = some bag ∨ (k, bag) ∈ rows := by
  by_cases known : k ∈ rows.map Prod.fst
  · obtain ⟨⟨k, b⟩, mem, rfl⟩ := List.mem_map.mp known
    have only : ∀ b', (k, b') ∈ rows → b' = b := by
      intro b' mem'
      exact congrArg Prod.snd (List.inj_on_of_nodup_map different mem' mem rfl)
    have merged : mergedBag t[k]? b = b := by
      cases held : t[k]? with
      | none => rw [mergedBag, Option.getD_none, Bag.empty_merge]
      | some b' =>
        rw [mergedBag, Option.getD_some, only b' (agree k known b' held)]
        simpa using Bag.merge_merge_self .empty b
    rw [getElem?_mergeAll_of_mem different mem, merged, Option.some.injEq]
    constructor
    · rintro rfl
      exact .inr mem
    · rintro (held | mem')
      · exact (only bag (agree k known bag held)).symm
      · exact (only bag mem').symm
  · have absent : (k, bag) ∉ rows := fun mem => known (List.mem_map_of_mem mem)
    rw [getElem?_mergeAll_of_not_mem known]
    simp only [absent, or_false]

end

/-! ## Archives -/

theorem exists_mem_concat_iff {α : Type} {p : α → Prop} {l : List α} {a : α} :
    (∃ x ∈ l ++ [a], p x) ↔ (∃ x ∈ l, p x) ∨ p a := by
  simp [or_and_right, exists_or]

/-- A store holds some graphs, each in the scope beside it, and some entities outside all scopes. -/
structure Archive (m : Memory) (graphs : List (String × Graph)) (others : List NodeRow) : Prop where
  outside : ∀ r ∈ others, r.key.IsOutside
  node : ∀ k bag, m.nodes[k]? = some bag ↔
    (∃ s ∈ graphs, (k, bag) ∈ nodeEntries [] (some s.1) s.2) ∨ ∃ r ∈ others, r.key = k ∧ r.properties = bag
  edge : ∀ k bag, m.edges[k]? = some bag ↔ ∃ s ∈ graphs, (k, bag) ∈ edgeEntries [] (some s.1) s.2 {}
  index : ∀ label, label ∈ m.indexes ↔ ∃ s ∈ graphs, label ∈ nodeLabels s.2

namespace Archive

variable {m m' : Memory} {graphs graphs' : List (String × Graph)} {others others' : List NodeRow}

protected theorem empty : Archive {} [] [] where
  outside := by simp
  node := by simp
  edge := by simp
  index := by simp

section

variable {scope : String} {g : Graph} (h : Archive m graphs others) (only : ∀ g', (scope, g') ∈ graphs → g' = g)

include h only

/-- What is held in the scope of a graph is what the graph brings. -/
theorem mem_nodeEntries {k : NodeKey} (inside : k.InScope (some scope)) {bag : Bag} (held : m.nodes[k]? = some bag) :
    (k, bag) ∈ nodeEntries [] (some scope) g := by
  rcases (h.node k bag).mp held with ⟨⟨scope', g'⟩, mem, entry⟩ | ⟨r, mem, rfl, _⟩
  · cases (inScope_of_mem_nodeEntries (List.mem_map_of_mem entry)).eq inside
    rwa [← only g' mem]
  · exact absurd (h.outside r mem) (NodeKey.not_isOutside_of_inScope inside)

theorem mem_edgeEntries {k : EdgeKey} (inside : k.source.InScope (some scope)) {bag : Bag}
    (held : m.edges[k]? = some bag) : (k, bag) ∈ edgeEntries [] (some scope) g {} := by
  obtain ⟨⟨scope', g'⟩, mem, entry⟩ := (h.edge k bag).mp held
  cases (inScope_of_mem_edgeEntries (List.mem_map_of_mem entry)).eq inside
  rwa [← only g' mem]

theorem getElem?_mergeAll_nodeEntries {k : NodeKey} {bag : Bag} :
    (mergeAll m.nodes (nodeEntries [] (some scope) g))[k]? = some bag ↔
      m.nodes[k]? = some bag ∨ (k, bag) ∈ nodeEntries [] (some scope) g :=
  getElem?_mergeAll_of_agree (nodup_keys_nodeEntries [] (some scope) g) fun _ hk _ =>
    h.mem_nodeEntries only (inScope_of_mem_nodeEntries hk)

/-- Which relationships of a graph have their ends depends on the graph alone. -/
theorem takesEdge_eq : ∀ r ∈ edgeRows (some scope) g,
    takesEdge [] (m.withNodes [] (some scope) g) r = takesEdge [] (({} : Memory).withNodes [] (some scope) g) r := by
  have ends : ∀ k : NodeKey, k.InScope (some scope) →
      (m.withNodes [] (some scope) g).nodes[k]? = (({} : Memory).withNodes [] (some scope) g).nodes[k]? := by
    intro k inside
    apply Option.ext
    intro bag
    rw [nodes_withNodes, nodes_withNodes, h.getElem?_mergeAll_nodeEntries only,
      Archive.empty.getElem?_mergeAll_nodeEntries (by simp)]
    constructor
    · rintro (held | mem)
      · exact .inr (h.mem_nodeEntries only inside held)
      · exact .inr mem
    · rintro (held | mem)
      · simp at held
      · exact .inr mem
  intro r hr
  obtain ⟨source, target⟩ := inScope_of_mem_edgeRows hr
  exact takesEdge_congr_ends (ends _ source) (ends _ target)

/-- One more graph. It counts what it counts in a fresh store. -/
theorem exportGraph :
    Archive (exportGraph (store []) (some scope) g m).state (graphs ++ [(scope, g)]) others ∧
      (Store.exportGraph (store []) (some scope) g m).summary =
        (Store.exportGraph (store []) (some scope) g {}).summary := by
  have same := h.takesEdge_eq only
  refine ⟨?_, summary_exportGraph_congr same⟩
  rw [state_exportGraph_eq, edgeEntries_congr same]
  refine ⟨h.outside, ?_, ?_, ?_⟩
  · intro k bag
    rw [h.getElem?_mergeAll_nodeEntries only, h.node, exists_mem_concat_iff, or_right_comm]
  · intro k bag
    have agree : ∀ k ∈ (edgeEntries [] (some scope) g {}).map Prod.fst, ∀ bag, m.edges[k]? = some bag →
        (k, bag) ∈ edgeEntries [] (some scope) g {} :=
      fun _ hk _ => h.mem_edgeEntries only (inScope_of_mem_edgeEntries hk)
    rw [getElem?_mergeAll_of_agree (nodup_keys_edgeEntries [] (some scope) g {}) agree, h.edge, exists_mem_concat_iff]
  · intro label
    rw [Std.ExtTreeSet.mem_insertMany_list, h.index, exists_mem_concat_iff, List.contains_iff_mem]

end

/-- One more entity outside all scopes, under an identity of its own. -/
theorem mergeNode (h : Archive m graphs others) {r : NodeRow} (outside : r.key.IsOutside)
    (fresh : ∀ r' ∈ others, r'.key ≠ r.key) : Archive (m.mergeNode r) graphs (others ++ [r]) where
  outside := List.forall_mem_append.mpr ⟨h.outside, by simpa using outside⟩
  node k bag := by
    have free : m.nodes[r.key]? = none := by
      rw [Option.eq_none_iff_forall_ne_some]
      intro bag held
      rcases (h.node r.key bag).mp held with ⟨s, _, entry⟩ | ⟨r', mem, same, _⟩
      · exact NodeKey.not_isOutside_of_inScope (inScope_of_mem_nodeEntries (List.mem_map_of_mem entry)) outside
      · exact fresh r' mem same
    have written : (m.mergeNode r).nodes[k]? = some bag ↔ m.nodes[k]? = some bag ∨ r.key = k ∧ r.properties = bag := by
      rw [getElem?_nodes_mergeNode, free, mergedBag, Option.getD_none, Bag.empty_merge]
      by_cases here : k = r.key
      · subst here
        simp [free]
      · simp [here, Ne.symm here]
    rw [written, h.node, exists_mem_concat_iff, or_assoc]
  edge := h.edge
  index := h.index

/-- Two stores hold the same of the same graphs. -/
theorem same (h : Archive m graphs others) (h' : Archive m' graphs' others')
    (graphs_iff : ∀ s, s ∈ graphs ↔ s ∈ graphs') :
    m.edges = m'.edges ∧ m.indexes = m'.indexes ∧ ∀ k : NodeKey, ¬k.IsOutside → m.nodes[k]? = m'.nodes[k]? := by
  refine ⟨?_, ?_, ?_⟩
  · apply Std.ExtTreeMap.ext_getElem?
    intro k
    apply Option.ext
    intro bag
    simp only [h.edge, h'.edge, graphs_iff]
  · apply Std.ExtTreeSet.ext_mem
    intro label
    simp only [h.index, h'.index, graphs_iff]
  · intro k inside
    have none_other : ∀ {m : Memory} {graphs others}, Archive m graphs others → ∀ bag,
        ¬∃ r ∈ others, r.key = k ∧ r.properties = bag := by
      rintro m graphs others h bag ⟨r, mem, rfl, _⟩
      exact inside (h.outside r mem)
    apply Option.ext
    intro bag
    simp only [h.node, h'.node, graphs_iff, none_other h, none_other h', or_false]

end Archive

end Memory
end ProgramGraph.Store
