import ProgramGraph.Store.Memory
import ProgramGraph.Proofs.Graph.Basic

/-!
# ProgramGraph.Proofs.Store.Memory

What calls do to a store in memory.

* `Memory.takesNode`, `Memory.takesEdge` — whether a row is taken. `upsertNode_eq` and `upsertEdge_eq`: a row that is taken
  is merged in, and nothing happens otherwise.
* `Memory.mergeAll` — merge bags under keys, one after the other: what a map of bags holds under a key afterwards.
  Merging the same bags again changes nothing (`mergeAll_mergeAll_self`), and bags under different keys can be merged in
  either order (`mergeAll_comm`).
* `Memory.mergeNodes`, `Memory.mergeEdges` — the same for rows of entities and of relationships.
* `Memory.edge?_eq_some` — a relationship is found by its ids and its label when no other one has the same.
-/

namespace ProgramGraph.Store.Memory

open ProgramGraph.Graph

variable {refused : List String} {m : Memory}

/-! ## What is taken -/

/-- Whether an entity is taken. -/
def takesNode (refused : List String) (r : NodeRow) : Bool :=
  r.label ≠ "" && r.id ∉ refused

/-- Whether a relationship is taken. -/
def takesEdge (refused : List String) (m : Memory) (r : EdgeRow) : Bool :=
  r.label ≠ "" && r.sourceId ∉ refused && r.targetId ∉ refused && r.source ∈ m.nodes && r.target ∈ m.nodes

theorem takesNode_iff {r : NodeRow} : takesNode refused r = true ↔ r.label ≠ "" ∧ r.id ∉ refused := by
  simp [takesNode]

theorem takesEdge_iff {r : EdgeRow} :
    takesEdge refused m r = true ↔
      r.label ≠ "" ∧ r.sourceId ∉ refused ∧ r.targetId ∉ refused ∧ r.source ∈ m.nodes ∧ r.target ∈ m.nodes := by
  simp [takesEdge, and_assoc]

theorem checkNode_eq_ok_iff {r : NodeRow} : checkNode refused r = .ok () ↔ takesNode refused r = true := by
  unfold checkNode checkLabel checkId takesNode
  by_cases label : r.label = ""
  · simp [label, bind, Except.bind]
  · by_cases id : r.id ∈ refused
    · simp [label, id, bind, Except.bind]
    · simp [label, id, bind, Except.bind]

theorem checkEdge_eq_ok_iff {r : EdgeRow} : checkEdge refused m r = .ok () ↔ takesEdge refused m r = true := by
  unfold checkEdge checkLabel checkId checkEnd takesEdge
  by_cases label : r.label = ""
  · simp [label, bind, Except.bind]
  · by_cases source : r.sourceId ∈ refused
    · simp [label, source, bind, Except.bind]
    · by_cases target : r.targetId ∈ refused
      · simp [label, source, target, bind, Except.bind]
      · by_cases start : r.source ∈ m.nodes
        · simp [label, source, target, start, bind, Except.bind]
        · simp [label, source, target, start, bind, Except.bind]

theorem upsertNode_of_takes {r : NodeRow} (h : takesNode refused r = true) :
    (store refused).upsertNode m r = .taken (m.mergeNode r) := by
  show m.guarded (checkNode refused r) (m.mergeNode r) = _
  rw [checkNode_eq_ok_iff.mpr h, guarded]

theorem upsertNode_of_refuses {r : NodeRow} (h : takesNode refused r = false) :
    ∃ cause, (store refused).upsertNode m r = .refused m cause := by
  show ∃ cause, m.guarded (checkNode refused r) (m.mergeNode r) = _
  cases check : checkNode refused r with
  | ok =>
    rw [checkNode_eq_ok_iff, h] at check
    cases check
  | error cause => exact ⟨cause, rfl⟩

theorem upsertEdge_of_takes {r : EdgeRow} (h : takesEdge refused m r = true) :
    (store refused).upsertEdge m r = .taken (m.mergeEdge r) := by
  show m.guarded (checkEdge refused m r) (m.mergeEdge r) = _
  rw [checkEdge_eq_ok_iff.mpr h, guarded]

theorem upsertEdge_of_refuses {r : EdgeRow} (h : takesEdge refused m r = false) :
    ∃ cause, (store refused).upsertEdge m r = .refused m cause := by
  show ∃ cause, m.guarded (checkEdge refused m r) (m.mergeEdge r) = _
  cases check : checkEdge refused m r with
  | ok =>
    rw [checkEdge_eq_ok_iff, h] at check
    cases check
  | error cause => exact ⟨cause, rfl⟩

/-- Whether a relationship is taken depends on what is stored for its ends. -/
theorem takesEdge_congr_ends {m' : Memory} {r : EdgeRow} (source : m'.nodes[r.source]? = m.nodes[r.source]?)
    (target : m'.nodes[r.target]? = m.nodes[r.target]?) : takesEdge refused m' r = takesEdge refused m r := by
  rw [Bool.eq_iff_iff, takesEdge_iff, takesEdge_iff]
  simp only [Std.ExtTreeMap.mem_iff_isSome_getElem?, source, target]

/-- What is taken depends on the stored entities alone. -/
theorem takesEdge_congr {m' : Memory} (h : m'.nodes = m.nodes) : takesEdge refused m' = takesEdge refused m := by
  funext r
  rw [takesEdge, takesEdge, h]

/-! ## Merging bags under keys -/

section

variable {κ : Type} {cmp : κ → κ → Ordering} [Std.TransCmp cmp]

/-- Merge bags under keys, one after the other. -/
def mergeAll (t : Std.ExtTreeMap κ Bag cmp) (rows : List (κ × Bag)) : Std.ExtTreeMap κ Bag cmp :=
  rows.foldl (fun t r => t.insert r.1 (mergedBag t[r.1]? r.2)) t

theorem mergeAll_cons (t : Std.ExtTreeMap κ Bag cmp) (r : κ × Bag) (rows : List (κ × Bag)) :
    mergeAll t (r :: rows) = mergeAll (t.insert r.1 (mergedBag t[r.1]? r.2)) rows := rfl

variable [Std.LawfulEqCmp cmp]

theorem getElem?_mergeAll_of_not_mem {rows : List (κ × Bag)} {k : κ} (h : k ∉ rows.map Prod.fst)
    (t : Std.ExtTreeMap κ Bag cmp) : (mergeAll t rows)[k]? = t[k]? := by
  induction rows generalizing t with
  | nil => rfl
  | cons r rows ih =>
    rw [List.map_cons, List.mem_cons, not_or] at h
    rw [mergeAll_cons, ih h.2, Std.ExtTreeMap.getElem?_insert, if_neg]
    intro same
    exact h.1 (Std.LawfulEqCmp.eq_of_compare same).symm

theorem getElem?_mergeAll_of_mem {rows : List (κ × Bag)} {k : κ} {bag : Bag} (different : (rows.map Prod.fst).Nodup)
    (h : (k, bag) ∈ rows) (t : Std.ExtTreeMap κ Bag cmp) : (mergeAll t rows)[k]? = some (mergedBag t[k]? bag) := by
  induction rows generalizing t with
  | nil => cases h
  | cons r rows ih =>
    rw [List.map_cons, List.nodup_cons] at different
    rw [mergeAll_cons]
    rcases List.mem_cons.mp h with rfl | later
    · rw [getElem?_mergeAll_of_not_mem different.1, Std.ExtTreeMap.getElem?_insert_self]
    · rw [ih different.2 later, Std.ExtTreeMap.getElem?_insert, if_neg]
      intro same
      rw [Std.LawfulEqCmp.eq_of_compare same] at different
      exact different.1 (List.mem_map_of_mem later)

/-- What is held under a key depends on what was held there. -/
theorem getElem?_mergeAll_congr {t t' : Std.ExtTreeMap κ Bag cmp} {k : κ} (h : t[k]? = t'[k]?) (rows : List (κ × Bag)) :
    (mergeAll t rows)[k]? = (mergeAll t' rows)[k]? := by
  induction rows generalizing t t' with
  | nil => exact h
  | cons r rows ih =>
    rw [mergeAll_cons, mergeAll_cons]
    apply ih
    rw [Std.ExtTreeMap.getElem?_insert, Std.ExtTreeMap.getElem?_insert]
    by_cases same : cmp r.1 k = .eq
    · rw [if_pos same, if_pos same, Std.LawfulEqCmp.eq_of_compare same, h]
    · rw [if_neg same, if_neg same, h]

/-- Merging the same bags once more changes nothing. -/
theorem mergeAll_mergeAll_self {rows : List (κ × Bag)} (different : (rows.map Prod.fst).Nodup)
    (t : Std.ExtTreeMap κ Bag cmp) : mergeAll (mergeAll t rows) rows = mergeAll t rows := by
  apply Std.ExtTreeMap.ext_getElem?
  intro k
  by_cases known : k ∈ rows.map Prod.fst
  · obtain ⟨⟨k, bag⟩, mem, rfl⟩ := List.mem_map.mp known
    rw [getElem?_mergeAll_of_mem different mem, getElem?_mergeAll_of_mem different mem, mergedBag, mergedBag,
      Option.getD_some, Bag.merge_merge_self]
  · rw [getElem?_mergeAll_of_not_mem known]

/-- Bags under different keys can be merged in either order. -/
theorem mergeAll_comm {rows rows' : List (κ × Bag)} (apart : ∀ k ∈ rows.map Prod.fst, k ∉ rows'.map Prod.fst)
    (t : Std.ExtTreeMap κ Bag cmp) : mergeAll (mergeAll t rows) rows' = mergeAll (mergeAll t rows') rows := by
  apply Std.ExtTreeMap.ext_getElem?
  intro k
  by_cases known : k ∈ rows.map Prod.fst
  · have untouched : ∀ t : Std.ExtTreeMap κ Bag cmp, (mergeAll t rows')[k]? = t[k]? :=
      getElem?_mergeAll_of_not_mem (apart k known)
    rw [untouched, getElem?_mergeAll_congr (untouched t)]
  · have untouched : ∀ t : Std.ExtTreeMap κ Bag cmp, (mergeAll t rows)[k]? = t[k]? :=
      getElem?_mergeAll_of_not_mem known
    rw [untouched, getElem?_mergeAll_congr (untouched t)]

/-- Bags under different keys, merged into nothing, are what is held. -/
theorem getElem?_mergeAll_empty_iff {rows : List (κ × Bag)} {k : κ} {bag : Bag}
    (different : (rows.map Prod.fst).Nodup) :
    (mergeAll (∅ : Std.ExtTreeMap κ Bag cmp) rows)[k]? = some bag ↔ (k, bag) ∈ rows := by
  have fresh : ∀ b, mergedBag (∅ : Std.ExtTreeMap κ Bag cmp)[k]? b = b := by
    intro b
    rw [Std.ExtTreeMap.getElem?_empty, mergedBag, Option.getD_none, Bag.empty_merge]
  constructor
  · intro found
    by_cases known : k ∈ rows.map Prod.fst
    · obtain ⟨⟨k', b⟩, mem, rfl⟩ := List.mem_map.mp known
      rw [getElem?_mergeAll_of_mem different mem, fresh] at found
      cases found
      exact mem
    · rw [getElem?_mergeAll_of_not_mem known, Std.ExtTreeMap.getElem?_empty] at found
      cases found
  · intro mem
    rw [getElem?_mergeAll_of_mem different mem, fresh]

/-- The same for those of some rows that pass a test. -/
theorem getElem?_mergeAll_filter_iff {ρ : Type} {key : ρ → κ} {bag : ρ → Bag} {rows : List ρ} {p : ρ → Bool} {k : κ}
    {b : Bag} (different : (rows.map key).Nodup) :
    (mergeAll (∅ : Std.ExtTreeMap κ Bag cmp) ((rows.filter p).map fun r => (key r, bag r)))[k]? = some b ↔
      ∃ r ∈ rows, p r = true ∧ key r = k ∧ bag r = b := by
  have kept : (((rows.filter p).map fun r => (key r, bag r)).map Prod.fst).Nodup := by
    rw [List.map_map]
    exact different.sublist (List.filter_sublist.map _)
  rw [getElem?_mergeAll_empty_iff kept, List.mem_map]
  constructor
  · rintro ⟨r, mem, same⟩
    obtain ⟨here, passed⟩ := List.mem_filter.mp mem
    obtain ⟨hk, hb⟩ := Prod.mk.inj same
    exact ⟨r, here, passed, hk, hb⟩
  · rintro ⟨r, here, passed, rfl, rfl⟩
    exact ⟨r, List.mem_filter.mpr ⟨here, passed⟩, rfl⟩

end

/-! ## Merging rows -/

/-- Merge some entities. -/
def mergeNodes (m : Memory) (rows : List NodeRow) : Memory :=
  rows.foldl mergeNode m

/-- Merge some relationships. -/
def mergeEdges (m : Memory) (rows : List EdgeRow) : Memory :=
  rows.foldl mergeEdge m

theorem mergeNodes_eq (m : Memory) (rows : List NodeRow) :
    m.mergeNodes rows = { m with nodes := mergeAll m.nodes (rows.map fun r => (r.key, r.properties)) } := by
  induction rows generalizing m with
  | nil => rfl
  | cons r rows ih => exact ih (m.mergeNode r)

theorem mergeEdges_eq (m : Memory) (rows : List EdgeRow) :
    m.mergeEdges rows = { m with edges := mergeAll m.edges (rows.map fun r => (r.key, r.properties)) } := by
  induction rows generalizing m with
  | nil => rfl
  | cons r rows ih => exact ih (m.mergeEdge r)

theorem nodes_mergeNodes (m : Memory) (rows : List NodeRow) :
    (m.mergeNodes rows).nodes = mergeAll m.nodes (rows.map fun r => (r.key, r.properties)) := by
  rw [mergeNodes_eq]

theorem edges_mergeNodes (m : Memory) (rows : List NodeRow) : (m.mergeNodes rows).edges = m.edges := by
  rw [mergeNodes_eq]

theorem edges_mergeEdges (m : Memory) (rows : List EdgeRow) :
    (m.mergeEdges rows).edges = mergeAll m.edges (rows.map fun r => (r.key, r.properties)) := by
  rw [mergeEdges_eq]

theorem nodes_mergeEdges (m : Memory) (rows : List EdgeRow) : (m.mergeEdges rows).nodes = m.nodes := by
  rw [mergeEdges_eq]

/-! ## Looking a relationship up -/

theorem joins_iff {source label target : String} {k : EdgeKey} :
    joins source label target k = true ↔ k.source.id = source ∧ k.target.id = target ∧ k.label = label := by
  simp [joins, and_assoc]

/-- A relationship is found by its ids and its label when no other one has the same. -/
theorem edge?_eq_some {k : EdgeKey} {bag : Bag} (stored : m.edges[k]? = some bag)
    (only : ∀ k' ∈ m.edges, k'.source.id = k.source.id → k'.target.id = k.target.id → k'.label = k.label → k' = k) :
    m.edge? k.source.id k.label k.target.id = some bag := by
  have mem : (k, bag) ∈ m.edges.toList := Std.ExtTreeMap.mem_toList_iff_getElem?_eq_some.mpr stored
  have joined : joins k.source.id k.label k.target.id k = true := joins_iff.mpr ⟨rfl, rfl, rfl⟩
  rw [edge?]
  cases found : m.edges.toList.find? fun e => joins k.source.id k.label k.target.id e.1 with
  | none => exact absurd joined (List.find?_eq_none.mp found _ mem)
  | some e =>
    have joins' : joins k.source.id k.label k.target.id e.1 = true := by simpa using List.find?_some found
    obtain ⟨source, target, label⟩ := joins_iff.mp joins'
    have here := Std.ExtTreeMap.mem_toList_iff_getElem?_eq_some.mp (List.mem_of_find?_eq_some found)
    have same := only e.1 (Std.ExtTreeMap.mem_iff_isSome_getElem?.mpr (by rw [here]; rfl)) source target label
    rw [same, stored] at here
    exact here.symm

end ProgramGraph.Store.Memory
