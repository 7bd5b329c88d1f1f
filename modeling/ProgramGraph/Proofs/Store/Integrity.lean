import ProgramGraph.Proofs.Store.Calls

/-!
# ProgramGraph.Proofs.Store.Integrity

What a store in memory keeps, whatever it is asked.

* `Memory.perform_cases` — what one call can do: be refused, merge a row that is taken, or add indexes.
* `Memory.Sound`         — stored relationships have both their ends, no stored id is a refused one, and nothing is stored
  without a label.
* `accepted`, `Call.nodeBag?`, `Call.edgeBag?`, `Overlays` — the calls that were taken, the bag that one writes under a key,
  and a bag made of several.
* `Memory.Kept`          — the invariant of a run, kept by every call: `Kept.perform`, and so by all: `Kept.after`.
* `memory_integrity`     — the invariant from an empty store on, and that a refused call changes nothing.
-/

namespace ProgramGraph.Store

open ProgramGraph.Graph

namespace Memory

variable {refused : List String} {m : Memory}

/-- A call is refused and changes nothing, or it merges a row that is taken, or it adds indexes. -/
theorem perform_cases (refused : List String) (m : Memory) (call : Call) :
    (∃ cause, (store refused).perform m call = .refused m cause) ∨
      (∃ r, call = .node r ∧ takesNode refused r = true ∧ (store refused).perform m call = .taken (m.mergeNode r)) ∨
      (∃ r, call = .edge r ∧ takesEdge refused m r = true ∧ (store refused).perform m call = .taken (m.mergeEdge r)) ∨
      ∃ labels, call = .indexes labels ∧
        (store refused).perform m call = .taken { m with indexes := m.indexes.insertMany labels } := by
  cases call with
  | node r =>
    cases taken : takesNode refused r with
    | true => exact .inr (.inl ⟨r, rfl, taken, upsertNode_of_takes taken⟩)
    | false => exact .inl (upsertNode_of_refuses taken)
  | edge r =>
    cases taken : takesEdge refused m r with
    | true => exact .inr (.inr (.inl ⟨r, rfl, taken, upsertEdge_of_takes taken⟩))
    | false => exact .inl (upsertEdge_of_refuses taken)
  | indexes labels => exact .inr (.inr (.inr ⟨labels, rfl, rfl⟩))

theorem state_perform_of_error {call : Call} {cause : StoreError}
    (h : ((store refused).perform m call).result = .error cause) : ((store refused).perform m call).state = m := by
  rcases perform_cases refused m call with ⟨_, answer⟩ | ⟨_, _, _, answer⟩ | ⟨_, _, _, answer⟩ | ⟨_, _, answer⟩
  · rw [answer]
    rfl
  all_goals
    rw [answer] at h
    cases h

/-! ## What is stored -/

/-- Relationships have their ends, no id is a refused one, and nothing lacks a label. -/
structure Sound (refused : List String) (m : Memory) : Prop where
  ends : ∀ k ∈ m.edges, k.source ∈ m.nodes ∧ k.target ∈ m.nodes
  nodes : ∀ k ∈ m.nodes, k.label ≠ "" ∧ k.id ∉ refused
  edges : ∀ k ∈ m.edges, k.label ≠ "" ∧ k.source.id ∉ refused ∧ k.target.id ∉ refused

theorem getElem?_nodes_mergeNode (r : NodeRow) (k : NodeKey) :
    (m.mergeNode r).nodes[k]? = if k = r.key then some (mergedBag m.nodes[r.key]? r.properties) else m.nodes[k]? := by
  rw [mergeNode, Std.ExtTreeMap.getElem?_insert]
  exact if_congr (Std.LawfulEqCmp.compare_eq_iff_eq.trans eq_comm) rfl rfl

theorem getElem?_edges_mergeEdge (r : EdgeRow) (k : EdgeKey) :
    (m.mergeEdge r).edges[k]? = if k = r.key then some (mergedBag m.edges[r.key]? r.properties) else m.edges[k]? := by
  rw [mergeEdge, Std.ExtTreeMap.getElem?_insert]
  exact if_congr (Std.LawfulEqCmp.compare_eq_iff_eq.trans eq_comm) rfl rfl

theorem mem_nodes_mergeNode {r : NodeRow} {k : NodeKey} : k ∈ (m.mergeNode r).nodes ↔ k = r.key ∨ k ∈ m.nodes := by
  rw [mergeNode, Std.ExtTreeMap.mem_insert, Std.LawfulEqCmp.compare_eq_iff_eq, eq_comm]

theorem mem_edges_mergeEdge {r : EdgeRow} {k : EdgeKey} : k ∈ (m.mergeEdge r).edges ↔ k = r.key ∨ k ∈ m.edges := by
  rw [mergeEdge, Std.ExtTreeMap.mem_insert, Std.LawfulEqCmp.compare_eq_iff_eq, eq_comm]

theorem Sound.mergeNode {r : NodeRow} (h : Sound refused m) (taken : takesNode refused r = true) :
    Sound refused (m.mergeNode r) where
  ends k hk := by
    obtain ⟨source, target⟩ := h.ends k hk
    exact ⟨mem_nodes_mergeNode.mpr (.inr source), mem_nodes_mergeNode.mpr (.inr target)⟩
  nodes k hk := by
    rcases mem_nodes_mergeNode.mp hk with rfl | hk
    · exact takesNode_iff.mp taken
    · exact h.nodes k hk
  edges := h.edges

theorem Sound.mergeEdge {r : EdgeRow} (h : Sound refused m) (taken : takesEdge refused m r = true) :
    Sound refused (m.mergeEdge r) where
  ends k hk := by
    rcases mem_edges_mergeEdge.mp hk with rfl | hk
    · obtain ⟨_, _, _, ends⟩ := takesEdge_iff.mp taken
      exact ends
    · exact h.ends k hk
  nodes := h.nodes
  edges k hk := by
    rcases mem_edges_mergeEdge.mp hk with rfl | hk
    · obtain ⟨label, source, target, _⟩ := takesEdge_iff.mp taken
      exact ⟨label, source, target⟩
    · exact h.edges k hk

end Memory

/-! ## What was written -/

def accepted (log : List (Call × Answer)) : List Call :=
  (log.filter fun a => a.2.isOk).map Prod.fst

/-- What a call writes into the entity under a key. -/
def Call.nodeBag? (k : NodeKey) : Call → Option Bag
  | .node r => if r.key = k then some r.properties else none
  | _ => none

/-- What a call writes into the relationship under a key. -/
def Call.edgeBag? (k : EdgeKey) : Call → Option Bag
  | .edge r => if r.key = k then some r.properties else none
  | _ => none

/-- A stored bag is made of some bags: it is there as soon as there is one of them, and under a name it has the value of the
last one that has this name. -/
structure Overlays (bags : List Bag) (stored : Option Bag) : Prop where
  isSome : stored.isSome = true ↔ bags ≠ []
  value : ∀ bag, stored = some bag → ∀ name : String, bag[name]? = bags.reverse.findSome? fun b => b[name]?

protected theorem Overlays.nil : Overlays [] none :=
  ⟨by simp, by simp⟩

/-- One more bag is written over the others. -/
theorem Overlays.concat {bags : List Bag} {stored : Option Bag} (h : Overlays bags stored) (bag : Bag) :
    Overlays (bags ++ [bag]) (some (Memory.mergedBag stored bag)) where
  isSome := by simp
  value := by
    rintro _ ⟨rfl⟩ name
    rw [Memory.mergedBag, Bag.merge, Std.ExtTreeMap.getElem?_union, List.reverse_append, List.reverse_singleton,
      List.singleton_append, List.findSome?_cons]
    -- without a bag before it there is nothing stored, so the new bag is merged into the empty one
    have before : (stored.getD Bag.empty)[name]? = bags.reverse.findSome? fun b => b[name]? := by
      cases stored with
      | none =>
        have none_before : bags = [] := by simpa using h.isSome
        rw [none_before]
        exact Std.ExtTreeMap.getElem?_empty
      | some old => exact h.value old rfl name
    rw [before]
    cases (bag[name]? : Option Property) <;> rfl

namespace Memory

variable {refused : List String} {m : Memory}

/-- A store is sound and holds what some calls wrote. -/
structure Kept (refused : List String) (m : Memory) (calls : List Call) : Prop where
  sound : Sound refused m
  nodes : ∀ k, Overlays (calls.filterMap (Call.nodeBag? k)) m.nodes[k]?
  edges : ∀ k, Overlays (calls.filterMap (Call.edgeBag? k)) m.edges[k]?

protected theorem Kept.empty (refused : List String) : Kept refused {} [] where
  sound := ⟨by simp, by simp, by simp⟩
  nodes k := by simpa using Overlays.nil
  edges k := by simpa using Overlays.nil

theorem Kept.mergeNode {calls : List Call} {r : NodeRow} (h : Kept refused m calls)
    (taken : takesNode refused r = true) : Kept refused (m.mergeNode r) (calls ++ [.node r]) where
  sound := h.sound.mergeNode taken
  nodes k := by
    rw [getElem?_nodes_mergeNode, List.filterMap_append]
    by_cases same : k = r.key
    · rw [if_pos same, same]
      simpa [Call.nodeBag?] using (h.nodes r.key).concat r.properties
    · rw [if_neg same]
      simpa [Call.nodeBag?, Ne.symm same] using h.nodes k
  edges k := by simpa [Call.edgeBag?, Memory.mergeNode, List.filterMap_cons] using h.edges k

theorem Kept.mergeEdge {calls : List Call} {r : EdgeRow} (h : Kept refused m calls)
    (taken : takesEdge refused m r = true) : Kept refused (m.mergeEdge r) (calls ++ [.edge r]) where
  sound := h.sound.mergeEdge taken
  nodes k := by simpa [Call.nodeBag?, Memory.mergeEdge, List.filterMap_cons] using h.nodes k
  edges k := by
    rw [getElem?_edges_mergeEdge, List.filterMap_append]
    by_cases same : k = r.key
    · rw [if_pos same, same]
      simpa [Call.edgeBag?] using (h.edges r.key).concat r.properties
    · rw [if_neg same]
      simpa [Call.edgeBag?, Ne.symm same] using h.edges k

theorem Kept.perform {calls : List Call} (h : Kept refused m calls) (call : Call) :
    Kept refused ((store refused).perform m call).state
      (calls ++ accepted [(call, ((store refused).perform m call).result)]) := by
  rcases perform_cases refused m call with
    ⟨_, answer⟩ | ⟨r, rfl, taken, answer⟩ | ⟨r, rfl, taken, answer⟩ | ⟨labels, rfl, answer⟩
  · -- a refused call is not among those taken, and nothing changed
    rw [answer]
    exact (List.append_nil calls).symm ▸ h
  · rw [answer]
    exact h.mergeNode taken
  · rw [answer]
    exact h.mergeEdge taken
  · rw [answer]
    refine ⟨⟨h.sound.ends, h.sound.nodes, h.sound.edges⟩, ?_, ?_⟩
    · intro k
      simpa [accepted, Response.taken, Except.isOk, Except.toBool, Call.nodeBag?, List.filterMap_cons] using h.nodes k
    · intro k
      simpa [accepted, Response.taken, Except.isOk, Except.toBool, Call.edgeBag?, List.filterMap_cons] using h.edges k

theorem accepted_cons (a : Call × Answer) (log : List (Call × Answer)) :
    accepted (a :: log) = accepted [a] ++ accepted log := by
  rw [accepted, accepted, accepted, ← List.map_append, ← List.filter_append, List.singleton_append]

theorem Kept.after {before : List Call} (h : Kept refused m before) (calls : List Call) :
    Kept refused ((store refused).after m calls) (before ++ accepted ((store refused).answers m calls)) := by
  induction calls generalizing m before with
  | nil => exact (List.append_nil before).symm ▸ h
  | cons call calls ih =>
    rw [Store.answers, accepted_cons, ← List.append_assoc]
    exact ih (h.perform call)

/-- **A store in memory keeps what it was given, and nothing else.** Whatever ids it refuses and whatever it is asked, from an
empty store on: every stored relationship has both its ends, no stored id is a refused one, and nothing is stored without a
label. A call that fails changes nothing. What is stored under a key is what the calls that were taken wrote there, later
values over earlier ones. -/
theorem memory_integrity (refused : List String) (calls : List Call) :
    let m := (store refused).after {} calls
    let taken := accepted ((store refused).answers {} calls)
    Sound refused m ∧
      (∀ call cause, ((store refused).perform m call).result = .error cause →
        ((store refused).perform m call).state = m) ∧
      (∀ k, Overlays (taken.filterMap (Call.nodeBag? k)) m.nodes[k]?) ∧
      ∀ k, Overlays (taken.filterMap (Call.edgeBag? k)) m.edges[k]? := by
  intro m taken
  have kept := (Kept.empty refused).after calls
  exact ⟨kept.sound, fun call cause h => state_perform_of_error h, kept.nodes, kept.edges⟩

/-- A node and a relationship to another one, which is refused and so cannot be its end. -/
def brokenLink : List Call :=
  [.node ⟨"NameExpr", "1", .empty⟩, .node ⟨"File", "0", .empty⟩, .edge ⟨"NameExpr", "1", "File", "0", "parent_of", .empty⟩]

theorem memory_integrity_brokenLink :
    let m := (store ["0"]).after {} brokenLink
    let again := (store ["0"]).perform m (.node ⟨"File", "0", .empty⟩)
    again.result = .error (.rejected "id 0 is rejected") ∧ again.state = m ∧ Sound ["0"] m :=
  ⟨rfl, (memory_integrity ["0"] brokenLink).2.1 _ _ rfl, (memory_integrity ["0"] brokenLink).1⟩

end Memory
end ProgramGraph.Store
