import Mathlib.Data.List.Perm.Basic
import ProgramGraph.Proofs.Cypher.Database
import ProgramGraph.Proofs.Store.Integrity

/-!
# ProgramGraph.Proofs.Cypher.Refinement

A graph database behind the client is a store in memory.

* `Call.labelled`, `Call.leavesIds`, `Call.needs` — a call names no blank label; it writes no property over the id of an entity;
  what must be stored before it.
* `Database.Layout`  — a database has a node for every stored entity and an edge for every stored relationship, in the order of
  two lists of keys; `Layout.holds`.
* `Database.Mirrors` — the invariant of a run: some layout. Kept by every call, which is answered as by the store in memory:
  `Mirrors.perform`.
* `client_refines_memory` — the same answers to all calls, and the same nodes and edges after each.
-/

namespace ProgramGraph.Store

open ProgramGraph.Graph

def Call.labels : Call → List String
  | .node r => [r.label]
  | .edge r => [r.sourceLabel, r.targetLabel, r.label]
  | .indexes labels => labels

/-- Whether no label of a call is blank. -/
def Call.labelled (c : Call) : Bool :=
  c.labels.all fun label => !Text.isAllBlank label

/-- An entity is not written with a property that has the name of its id. -/
def Call.leavesIds : Call → Prop
  | .node r => "id" ∉ r.properties
  | _ => True

/-- What must be stored before a call. -/
def Call.needs : Call → List NodeKey
  | .edge r => [r.source, r.target]
  | _ => []

theorem labelled_node {r : NodeRow} : (Call.node r).labelled = true ↔ Text.isAllBlank r.label = false := by
  simp [Call.labelled, Call.labels]

theorem labelled_edge {r : EdgeRow} :
    (Call.edge r).labelled = true ↔
      Text.isAllBlank r.sourceLabel = false ∧ Text.isAllBlank r.targetLabel = false ∧ Text.isAllBlank r.label = false := by
  simp [Call.labelled, Call.labels]

end ProgramGraph.Store

namespace ProgramGraph.Cypher

open ProgramGraph.Graph Store

/-- Keys that are the keys of a map, each once, give its entries in some order. -/
theorem perm_toList {κ γ : Type} {cmp : κ → κ → Ordering} [Std.TransCmp cmp] [Std.LawfulEqCmp cmp]
    {t : Std.ExtTreeMap κ Bag cmp} {keys : List κ} (different : keys.Nodup) (mem_iff : ∀ k, k ∈ keys ↔ k ∈ t)
    (f : κ → Bag → γ) : (keys.map fun k => f k (t[k]?.getD .empty)).Perm (t.toList.map fun e => f e.1 e.2) := by
  have entries : (t.toList.map fun e => f e.1 e.2) = t.keys.map fun k => f k (t[k]?.getD .empty) := by
    rw [← Std.ExtTreeMap.map_fst_toList_eq_keys, List.map_map]
    apply List.map_congr_left
    intro e he
    rw [Function.comp, Std.ExtTreeMap.mem_toList_iff_getElem?_eq_some.mp he, Option.getD_some]
  rw [entries]
  apply List.Perm.map
  rw [List.perm_ext_iff_of_nodup different Std.ExtTreeMap.nodup_keys]
  intro k
  rw [mem_iff, Std.ExtTreeMap.mem_keys]

namespace Database

variable {db : Database} {m : Memory} {nodes : List NodeKey} {edges : List EdgeKey}

def storedNode (m : Memory) (k : NodeKey) : StoredNode :=
  .ofEntry k (m.nodes[k]?.getD .empty)

/-- The edge for a stored relationship, where the nodes are in the order of some keys. -/
def storedEdge (m : Memory) (nodes : List NodeKey) (k : EdgeKey) : StoredEdge :=
  ⟨nodes.idxOf k.source, nodes.idxOf k.target, k.label, Values.ofBag (m.edges[k]?.getD .empty)⟩

/-- The nodes and edges of a database are those of a store in memory, in the order of some keys. -/
structure Layout (db : Database) (m : Memory) (nodes : List NodeKey) (edges : List EdgeKey) : Prop where
  nodup_nodes : nodes.Nodup
  nodup_edges : edges.Nodup
  mem_nodes : ∀ k, k ∈ nodes ↔ k ∈ m.nodes
  mem_edges : ∀ k, k ∈ edges ↔ k ∈ m.edges
  ends : ∀ k ∈ edges, k.source ∈ nodes ∧ k.target ∈ nodes
  nodes_eq : db.nodes = nodes.map (storedNode m)
  edges_eq : db.edges = edges.map (storedEdge m nodes)

namespace Layout

protected theorem empty : Layout {} {} [] [] :=
  ⟨.nil, .nil, by simp, by simp, by simp, rfl, rfl⟩

theorem getElem?_nodes (h : Layout db m nodes edges) (i : Nat) : db.nodes[i]? = nodes[i]?.map (storedNode m) := by
  rw [h.nodes_eq, List.getElem?_map]

/-! ### Reading -/

/-- The label and the id of a key match one node if something is stored there, and no node otherwise. -/
theorem places_eq (h : Layout db m nodes edges) (k : NodeKey) :
    db.places k.label "id" k.id = (if k ∈ m.nodes then some (nodes.idxOf k) else none).toList := by
  have fits_iff : ∀ i (hi : i < nodes.length),
      db.nodes[i]?.any (StoredNode.fits k.label "id" k.id) = true ↔ nodes[i] = k := by
    intro i hi
    rw [h.getElem?_nodes, List.getElem?_eq_getElem hi, Option.map_some, Option.any_some, storedNode]
    exact StoredNode.fits_ofEntry
  have length_eq : db.nodes.length = nodes.length := by rw [h.nodes_eq, List.length_map]
  rw [places, placesOf, length_eq]
  split
  · next known =>
    rw [← h.mem_nodes] at known
    -- no key is there twice, so the filter keeps the place of the key alone
    have same : ∀ i ∈ List.range nodes.length,
        db.nodes[i]?.any (StoredNode.fits k.label "id" k.id) = (i == nodes.idxOf k) := by
      intro i hi
      rw [Bool.eq_iff_iff, fits_iff i (List.mem_range.mp hi), beq_iff_eq]
      constructor
      · intro found
        rw [← found, h.nodup_nodes.idxOf_getElem]
      · rintro rfl
        exact List.getElem_idxOf _
    have place : nodes.idxOf k ∈ List.range nodes.length := List.mem_range.mpr (List.idxOf_lt_length_of_mem known)
    rw [List.filter_congr same, List.filter_beq, List.count_eq_one_of_mem List.nodup_range place, List.replicate_one]
    rfl
  · next unknown =>
    rw [← h.mem_nodes] at unknown
    refine List.filter_eq_nil_iff.mpr ?_
    intro i hi fits
    have found := (fits_iff i (List.mem_range.mp hi)).mp fits
    exact unknown (found ▸ List.getElem_mem _)

theorem keyAt?_idxOf (h : Layout db m nodes edges) {k : NodeKey} (known : k ∈ nodes) :
    db.keyAt? (nodes.idxOf k) = some k := by
  rw [keyAt?, h.getElem?_nodes, List.getElem?_idxOf known, Option.map_some, Option.bind_some, storedNode,
    StoredNode.key?_ofEntry]

theorem holds (h : Layout db m nodes edges) : db.Holds m where
  nodes := by
    rw [h.nodes_eq]
    exact perm_toList h.nodup_nodes h.mem_nodes StoredNode.ofEntry
  edges := by
    have entries : db.edges.map db.entry? = edges.map fun k => some (k, Values.ofBag (m.edges[k]?.getD .empty)) := by
      rw [h.edges_eq, List.map_map]
      apply List.map_congr_left
      intro k hk
      obtain ⟨source, target⟩ := h.ends k hk
      rw [Function.comp, entry?, storedEdge, h.keyAt?_idxOf source, h.keyAt?_idxOf target]
      rfl
    rw [entries]
    exact perm_toList h.nodup_edges h.mem_edges fun k b => some (k, Values.ofBag b)

/-! ### Writing -/

theorem mergeNode (h : Layout db m nodes edges) {r : NodeRow} (noId : "id" ∉ r.properties) :
    Layout (db.mergeNode r.label "id" r.id (bagValues r.properties)) (m.mergeNode r) (enlist nodes r.key) edges where
  nodup_nodes := nodup_enlist h.nodup_nodes r.key
  nodup_edges := h.nodup_edges
  mem_nodes k := by rw [mem_enlist, h.mem_nodes, Memory.mem_nodes_mergeNode]
  mem_edges := h.mem_edges
  ends k hk := by
    obtain ⟨source, target⟩ := h.ends k hk
    exact ⟨mem_enlist.mpr (.inr source), mem_enlist.mpr (.inr target)⟩
  nodes_eq := by
    have written : storedNode (m.mergeNode r) r.key = .ofEntry r.key ((m.nodes[r.key]?.getD .empty).merge r.properties) := by
      rw [storedNode, Memory.getElem?_nodes_mergeNode, if_pos rfl]
      rfl
    rw [Database.mergeNode, h.nodes_eq]
    refine mergeSet_map (fun _ _ => StoredNode.fits_ofEntry) ?_ ?_ ?_ ?_
    · rw [StoredNode.make_eq]
      exact StoredNode.fits_ofEntry.mpr rfl
    · intro _
      rw [written]
      exact StoredNode.add_ofEntry noId
    · intro unknown
      rw [h.mem_nodes] at unknown
      rw [written, Std.ExtTreeMap.getElem?_eq_none unknown, StoredNode.make_eq]
      exact StoredNode.add_ofEntry noId
    · intro k other
      rw [storedNode, storedNode, Memory.getElem?_nodes_mergeNode, if_neg other]
  edges_eq := by
    rw [Database.mergeNode, h.edges_eq]
    apply List.map_congr_left
    intro k hk
    obtain ⟨source, target⟩ := h.ends k hk
    -- a new node comes last, so the ends of the edges keep their places
    rw [storedEdge, storedEdge, idxOf_enlist source, idxOf_enlist target]
    rfl

/-- An edge is the only one between its ends under its label. -/
theorem fits_storedEdge (h : Layout db m nodes edges) (key : EdgeKey) {k : EdgeKey} (hk : k ∈ edges) :
    (storedEdge m nodes k).fits (nodes.idxOf key.source) (nodes.idxOf key.target) key.label = true ↔ k = key := by
  -- places determine keys only because the ends of a stored edge are among the nodes
  obtain ⟨source, target⟩ := h.ends k hk
  rw [StoredEdge.fits, storedEdge, Bool.and_eq_true, Bool.and_eq_true, decide_eq_true_iff, decide_eq_true_iff,
    decide_eq_true_iff, List.idxOf_inj source, List.idxOf_inj target, and_assoc]
  cases k
  cases key
  rw [EdgeKey.mk.injEq]

theorem mergeEdge (h : Layout db m nodes edges) {r : EdgeRow} (source : r.source ∈ m.nodes) (target : r.target ∈ m.nodes) :
    Layout (db.mergeEdge (nodes.idxOf r.source) (nodes.idxOf r.target) r.label (bagValues r.properties)) (m.mergeEdge r) nodes
      (enlist edges r.key) where
  nodup_nodes := h.nodup_nodes
  nodup_edges := nodup_enlist h.nodup_edges r.key
  mem_nodes := h.mem_nodes
  mem_edges k := by rw [mem_enlist, h.mem_edges, Memory.mem_edges_mergeEdge]
  ends k hk := by
    rcases mem_enlist.mp hk with rfl | hk
    · exact ⟨(h.mem_nodes _).mpr source, (h.mem_nodes _).mpr target⟩
    · exact h.ends k hk
  nodes_eq := h.nodes_eq
  edges_eq := by
    have written : storedEdge (m.mergeEdge r) nodes r.key =
        ⟨nodes.idxOf r.source, nodes.idxOf r.target, r.label,
          (Values.ofBag (m.edges[r.key]?.getD .empty)).add (bagValues r.properties)⟩ := by
      rw [storedEdge, Memory.getElem?_edges_mergeEdge, if_pos rfl, Option.getD_some, Memory.mergedBag, Values.ofBag_merge]
      rfl
    rw [Database.mergeEdge, h.edges_eq]
    refine mergeSet_map (fun _ => h.fits_storedEdge r.key) ?_ ?_ ?_ ?_
    · simp [StoredEdge.fits]
    · intro _
      rw [written]
      rfl
    · intro unknown
      rw [h.mem_edges] at unknown
      rw [written, Std.ExtTreeMap.getElem?_eq_none unknown, Option.getD_none, Values.ofBag_empty]
    · intro k other
      rw [storedEdge, storedEdge, Memory.getElem?_edges_mergeEdge, if_neg other]

/-- The statement for a relationship is answered with what is stored of its ends, and changes something if both are. -/
theorem answer_mergeEdge (h : Layout db m nodes edges) (r : EdgeRow) :
    db.answer (Statement.mergeEdge r).query =
      (.row [("source_found", some (decide (r.source ∈ m.nodes))), ("target_found", some (decide (r.target ∈ m.nodes)))],
        if r.source ∈ m.nodes ∧ r.target ∈ m.nodes then
          db.mergeEdge (nodes.idxOf r.source) (nodes.idxOf r.target) r.label (bagValues r.properties)
        else db) := by
  rw [Database.answer_mergeEdge (h.places_eq r.source) (h.places_eq r.target)]
  by_cases source : r.source ∈ m.nodes
  · by_cases target : r.target ∈ m.nodes
    · simp [source, target, mergeBetween]
    · simp [source, target, mergeBetween]
  · by_cases target : r.target ∈ m.nodes
    · simp [source, target, mergeBetween]
    · simp [source, target, mergeBetween]

end Layout

/-- The invariant of a run: a database mirrors a store in memory in some order. -/
def Mirrors (db : Database) (m : Memory) : Prop :=
  ∃ nodes edges, Layout db m nodes edges

protected theorem Mirrors.empty : Mirrors {} {} :=
  ⟨[], [], .empty⟩

theorem Mirrors.holds (h : Mirrors db m) : db.Holds m := by
  obtain ⟨_, _, layout⟩ := h
  exact layout.holds

end Database

/-! ## Labels -/

theorem checkLabel_of_not_blank {label : String} (h : Text.isAllBlank label = false) : checkLabel label = .ok () := by
  rw [checkLabel, h]
  rfl

theorem ne_empty_of_not_blank {label : String} (h : Text.isAllBlank label = false) : label ≠ "" := by
  rintro rfl
  simp [Text.isAllBlank] at h

theorem ofNode_of_labelled {r : NodeRow} (h : (Call.node r).labelled = true) : Statement.ofNode r = .ok (.mergeNode r) := by
  rw [Statement.ofNode, checkLabel_of_not_blank (labelled_node.mp h)]
  rfl

theorem ofEdge_of_labelled {r : EdgeRow} (h : (Call.edge r).labelled = true) : Statement.ofEdge r = .ok (.mergeEdge r) := by
  obtain ⟨source, target, label⟩ := labelled_edge.mp h
  rw [Statement.ofEdge, checkLabel_of_not_blank source, checkLabel_of_not_blank target, checkLabel_of_not_blank label]
  rfl

theorem ofIndex_of_not_blank {label : String} (h : Text.isAllBlank label = false) :
    Statement.ofIndex label = .ok (.labelIndex label) := by
  rw [Statement.ofIndex, checkLabel_of_not_blank h]
  rfl

/-! ## Answers -/

/-- The client blames the ends that the answer denies, the source first, as a store in memory does. -/
theorem checkEnds_row (m : Memory) (r : EdgeRow) :
    Client.checkEnds r
        (.row [("source_found", some (decide (r.source ∈ m.nodes))), ("target_found", some (decide (r.target ∈ m.nodes)))]) =
      (do m.checkEnd r.source; m.checkEnd r.target) := by
  by_cases source : r.source ∈ m.nodes
  · by_cases target : r.target ∈ m.nodes
    · simp only [source, target, decide_true, Memory.checkEnd, if_true]
      rfl
    · simp only [source, target, decide_true, decide_false, Memory.checkEnd, if_true, if_false]
      rfl
  · simp only [source, decide_false, Memory.checkEnd, if_false]
    rfl

/-! ## A store in memory that refuses no ids -/

theorem upsertNode_of_labelled (m : Memory) {r : NodeRow} (h : (Call.node r).labelled = true) :
    (Memory.store []).upsertNode m r = .taken (m.mergeNode r) :=
  Memory.upsertNode_of_takes
    (Memory.takesNode_iff.mpr ⟨ne_empty_of_not_blank (labelled_node.mp h), List.not_mem_nil⟩)

/-- A relationship with a label only needs its ends. -/
theorem upsertEdge_of_labelled (m : Memory) {r : EdgeRow} (h : (Call.edge r).labelled = true) :
    (Memory.store []).upsertEdge m r = m.guarded (do m.checkEnd r.source; m.checkEnd r.target) (m.mergeEdge r) := by
  show m.guarded (Memory.checkEdge [] m r) _ = _
  rw [Memory.checkEdge, Memory.checkLabel, if_neg (ne_empty_of_not_blank (labelled_edge.mp h).2.2)]
  rfl

/-- A call that names labels is only refused when something that it needs is not stored. -/
theorem result_of_labelled (m : Memory) {call : Call} (labelled : call.labelled = true) :
    ((Memory.store []).perform m call).result = .ok () ∨
      ∃ k ∈ call.needs, k ∉ m.nodes ∧
        ((Memory.store []).perform m call).result = .error (.missingEndpoint k.label k.id) := by
  cases call with
  | node r =>
    left
    rw [Store.perform, upsertNode_of_labelled m labelled]
    rfl
  | edge r =>
    rw [Store.perform, upsertEdge_of_labelled m labelled, Memory.checkEnd, Memory.checkEnd]
    by_cases source : r.source ∈ m.nodes
    · by_cases target : r.target ∈ m.nodes
      · rw [if_pos source, if_pos target]
        exact .inl rfl
      · rw [if_pos source, if_neg target]
        exact .inr ⟨r.target, List.mem_pair.mpr (.inr rfl), target, rfl⟩
    · rw [if_neg source]
      exact .inr ⟨r.source, List.mem_pair.mpr (.inl rfl), source, rfl⟩
  | indexes labels => exact .inl rfl

/-! ## Calls -/

namespace Database

/-- The client answers as a store in memory does, and the database goes on to mirror it. -/
structure Agree (client : Response (Session Database)) (memory : Response Memory) : Prop where
  result : client.result = memory.result
  mirrors : client.state.server.Mirrors memory.state

variable {s : Session Database} {m : Memory}

theorem Mirrors.upsertNode (h : s.server.Mirrors m) {r : NodeRow} (labelled : (Call.node r).labelled = true)
    (noId : "id" ∉ r.properties) : Agree ((Client.store server).upsertNode s r) ((Memory.store []).upsertNode m r) := by
  obtain ⟨nodes, edges, layout⟩ := h
  have answer : (Client.store server).upsertNode s r =
      { state := ⟨(s.server.answer (Statement.mergeNode r).query).2, .mergeNode r :: s.sent⟩
        result := Client.checkDone (s.server.answer (Statement.mergeNode r).query).1 } :=
    congrArg (Client.submit server s · _) (ofNode_of_labelled labelled)
  rw [answer, upsertNode_of_labelled m labelled, answer_mergeNode]
  exact ⟨rfl, _, _, layout.mergeNode noId⟩

theorem Mirrors.upsertEdge (h : s.server.Mirrors m) {r : EdgeRow} (labelled : (Call.edge r).labelled = true) :
    Agree ((Client.store server).upsertEdge s r) ((Memory.store []).upsertEdge m r) := by
  obtain ⟨nodes, edges, layout⟩ := h
  have answer : (Client.store server).upsertEdge s r =
      { state := ⟨(s.server.answer (Statement.mergeEdge r).query).2, .mergeEdge r :: s.sent⟩
        result := Client.checkEnds r (s.server.answer (Statement.mergeEdge r).query).1 } :=
    congrArg (Client.submit server s · _) (ofEdge_of_labelled labelled)
  rw [answer, upsertEdge_of_labelled m labelled, layout.answer_mergeEdge, checkEnds_row, Memory.checkEnd, Memory.checkEnd]
  by_cases source : r.source ∈ m.nodes
  · by_cases target : r.target ∈ m.nodes
    · rw [if_pos source, if_pos target, if_pos ⟨source, target⟩]
      exact ⟨rfl, _, _, layout.mergeEdge source target⟩
    · rw [if_pos source, if_neg target, if_neg (mt And.right target)]
      exact ⟨rfl, _, _, layout⟩
  · rw [if_neg source, if_neg (mt And.left source)]
    exact ⟨rfl, _, _, layout⟩

theorem submit_labelIndex (s : Session Database) (label : String) :
    Client.submit server s (.ok (.labelIndex label)) Client.checkDone =
      .taken ⟨s.server, .labelIndex label :: s.sent⟩ := by
  have answer := answer_labelIndex s.server label
  rw [Client.submit, Session.send]
  simp only [server, answer]
  rfl

/-- Indexes leave the nodes and edges alone, and all of them are made unless a label is blank. -/
theorem makeIndexes_server (s : Session Database) (labels : List String) :
    (Client.makeIndexes server s labels).state.server = s.server ∧
      (Client.makeIndexes server s labels).result.isOk = labels.all fun label => !Text.isAllBlank label := by
  induction labels generalizing s with
  | nil => exact ⟨rfl, rfl⟩
  | cons label labels ih =>
    rw [List.all_cons]
    cases blank : Text.isAllBlank label with
    | true =>
      rw [Client.makeIndexes, Statement.ofIndex, checkLabel, blank]
      exact ⟨rfl, rfl⟩
    | false =>
      rw [Client.makeIndexes, ofIndex_of_not_blank blank, submit_labelIndex]
      exact ih _

theorem Mirrors.ensureIndexes (h : s.server.Mirrors m) {labels : List String}
    (labelled : (Call.indexes labels).labelled = true) :
    Agree ((Client.store server).ensureIndexes s labels) ((Memory.store []).ensureIndexes m labels) := by
  obtain ⟨nodes, edges, layout⟩ := h
  obtain ⟨same, made⟩ := makeIndexes_server s labels
  refine ⟨?_, nodes, edges, ?_⟩
  · rw [show labels.all _ = true from labelled] at made
    show (Client.makeIndexes server s labels).result = .ok ()
    cases result : (Client.makeIndexes server s labels).result with
    | ok => rfl
    | error =>
      rw [result] at made
      cases made
  · show Layout (Client.makeIndexes server s labels).state.server _ nodes edges
    rw [same]
    exact { layout with }

theorem Mirrors.perform (h : s.server.Mirrors m) {call : Call} (labelled : call.labelled = true)
    (leavesIds : call.leavesIds) :
    Agree ((Client.store server).perform s call) ((Memory.store []).perform m call) := by
  cases call with
  | node r => exact h.upsertNode labelled leavesIds
  | edge r => exact h.upsertEdge labelled
  | indexes labels => exact h.ensureIndexes labelled

theorem Mirrors.run (h : s.server.Mirrors m) {calls : List Call} (labelled : ∀ call ∈ calls, call.labelled = true)
    (leavesIds : ∀ call ∈ calls, call.leavesIds) :
    (Client.store server).answers s calls = (Memory.store []).answers m calls ∧
      ((Client.store server).after s calls).server.Mirrors ((Memory.store []).after m calls) := by
  induction calls generalizing s m with
  | nil => exact ⟨rfl, h⟩
  | cons call calls ih =>
    have agree := h.perform (labelled call List.mem_cons_self) (leavesIds call List.mem_cons_self)
    obtain ⟨answers, after⟩ := ih agree.mirrors (fun c hc => labelled c (List.mem_cons_of_mem _ hc))
      fun c hc => leavesIds c (List.mem_cons_of_mem _ hc)
    rw [Store.answers, Store.answers, agree.result, answers]
    exact ⟨rfl, after⟩

end Database

/-- **A graph database is used as a store in memory.** Both are asked the same from the start on, with no blank label and no
property over an id. Then both give the same answers, and all they refuse are relationships that lack an end; and after each
call the database holds the nodes and edges of the store, each once and with the same values, and nothing else. -/
theorem client_refines_memory {calls : List Call} (labelled : ∀ call ∈ calls, call.labelled = true)
    (leavesIds : ∀ call ∈ calls, call.leavesIds) :
    let answers := (Client.store Database.server).answers { server := {} } calls
    answers = (Memory.store []).answers {} calls ∧
      (∀ a ∈ answers, a.2 = .ok () ∨ ∃ k ∈ a.1.needs, a.2 = .error (.missingEndpoint k.label k.id)) ∧
      ∀ n, ((Client.store Database.server).after { server := {} } (calls.take n)).server.Holds
        ((Memory.store []).after {} (calls.take n)) := by
  intro answers
  have start : ({ server := {} } : Session Database).server.Mirrors {} := .empty
  have same : answers = (Memory.store []).answers {} calls := (start.run labelled leavesIds).1
  refine ⟨same, ?_, ?_⟩
  · intro a ha
    rw [same] at ha
    obtain ⟨m, result⟩ := exists_perform_of_mem_answers ha
    rw [result]
    refine (result_of_labelled m (labelled a.1 (fst_mem_of_mem_answers ha))).imp_right ?_
    rintro ⟨k, needed, _, missing⟩
    exact ⟨k, needed, missing⟩
  · intro n
    have labelled : ∀ call ∈ calls.take n, call.labelled = true := fun call hc => labelled call (List.mem_of_mem_take hc)
    have leavesIds : ∀ call ∈ calls.take n, call.leavesIds := fun call hc => leavesIds call (List.mem_of_mem_take hc)
    exact (start.run labelled leavesIds).2.holds

/-- A relationship that comes once before its target and once after it, with a reference. -/
def reference : List Call :=
  [.node ⟨"NameExpr", "1:2", .ofList [("image", .text "x")]⟩,
   .edge ⟨"NameExpr", "1:2", "Symbol", "symbol:7", "REFERS_TO", .empty⟩,
   .node ⟨"Symbol", "symbol:7", .ofList [("declaredAt", .ref "1:2")]⟩,
   .edge ⟨"NameExpr", "1:2", "Symbol", "symbol:7", "REFERS_TO", .empty⟩]

theorem client_refines_memory_reference :
    (∀ call ∈ reference, call.labelled = true) ∧ (∀ call ∈ reference, call.leavesIds) ∧
      (Client.store Database.server).answers { server := {} } reference = (Memory.store []).answers {} reference ∧
      ((Client.store Database.server).after { server := {} } (reference.take 4)).server.Holds
        ((Memory.store []).after {} (reference.take 4)) := by
  have labelled : ∀ call ∈ reference, call.labelled = true := by decide
  have leavesIds : ∀ call ∈ reference, call.leavesIds := by
    simp [reference, Call.leavesIds, Bag.ofList, Bag.empty]
  obtain ⟨same, _, holds⟩ := client_refines_memory labelled leavesIds
  exact ⟨labelled, leavesIds, same, holds 4⟩

end ProgramGraph.Cypher
