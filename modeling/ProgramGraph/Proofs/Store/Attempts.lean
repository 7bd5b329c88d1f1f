import Mathlib.Order.Compare
import Mathlib.Data.String.Basic
import ProgramGraph.Proofs.Graph.Basic
import ProgramGraph.Proofs.Store.Calls
import ProgramGraph.Proofs.Store.Rows

/-!
# ProgramGraph.Proofs.Store.Attempts

An export tries everything once, whatever fails.

* `recorded`        — a store that keeps a record of what it is asked and what it answers, and is the same store otherwise:
  `after_recorded`, `answers_recorded`. How a store answers may depend on everything it was asked before.
* `sorted_nodeLabels`, `mem_nodeLabels_iff` — the labels of a graph, in increasing order.
* `ExportSummary.Counts` — a summary counts the answers of a record.
* `export_attempts` — the calls that go out, and what the summary says about their answers.
-/

namespace ProgramGraph.Store

open ProgramGraph.Graph

variable {σ : Type}

/-! ## Recording -/

/-- A response, and the call that it answers at the end of a record. -/
def Response.record (log : List (Call × Answer)) (call : Call) (r : Response σ) : Response (σ × List (Call × Answer)) where
  state := (r.state, log ++ [(call, r.result)])
  result := r.result
  events := r.events

/-- A store that keeps, beside its state, what it was asked and what it answered. -/
def recorded (store : Store σ) : Store (σ × List (Call × Answer)) where
  upsertNode s row := (store.upsertNode s.1 row).record s.2 (.node row)
  upsertEdge s row := (store.upsertEdge s.1 row).record s.2 (.edge row)
  ensureIndexes s labels := (store.ensureIndexes s.1 labels).record s.2 (.indexes labels)

variable (store : Store σ)

theorem perform_recorded (state : σ) (log : List (Call × Answer)) (call : Call) :
    store.recorded.perform (state, log) call = (store.perform state call).record log call := by
  cases call <;> rfl

theorem after_recorded (state : σ) (log : List (Call × Answer)) (calls : List Call) :
    store.recorded.after (state, log) calls = (store.after state calls, log ++ store.answers state calls) := by
  induction calls generalizing state log with
  | nil => rw [after, after, answers, List.append_nil]
  | cons call calls ih =>
    rw [after, perform_recorded, Response.record, ih, after, answers, List.append_assoc, List.singleton_append]

theorem answers_recorded (state : σ) (log : List (Call × Answer)) (calls : List Call) :
    store.recorded.answers (state, log) calls = store.answers state calls := by
  induction calls generalizing state log with
  | nil => rfl
  | cons call calls ih => rw [answers, perform_recorded, Response.record, ih, answers]

/-! ## Labels -/

/-- The labels are in increasing order, so each is there once. -/
theorem sorted_nodeLabels (g : Graph) : (nodeLabels g).Pairwise (· < ·) :=
  Std.ExtTreeSet.ordered_toList.imp compare_lt_iff_lt.mp

theorem mem_nodeLabels_iff {g : Graph} {label : String} :
    label ∈ nodeLabels g ↔ ∃ e ∈ g.entities, e.label = label := by
  rw [nodeLabels, Std.ExtTreeSet.mem_toList, Std.ExtTreeSet.mem_ofList, List.contains_iff_mem, entities]
  simp only [List.mem_map, exists_exists_and_eq_and]

/-! ## The export -/

/-- A summary counts what was taken and what was not. -/
structure ExportSummary.Counts (s : ExportSummary) (log : List (Call × Answer)) : Prop where
  nodesExported : s.nodesExported = succeeded Call.isNode log
  nodesFailed : s.nodesFailed = failed Call.isNode log
  relationshipsExported : s.relationshipsExported = succeeded Call.isEdge log
  relationshipsFailed : s.relationshipsFailed = failed Call.isEdge log

variable (scope : Option String) (g : Graph) (state : σ)

theorem counts_summary_exportGraph :
    (exportGraph store scope g state).summary.Counts (store.answers state (exportCalls scope g)) := by
  obtain ⟨taken, left, taken', left'⟩ := foldl_count {} (store.answers state (exportCalls scope g))
  rw [← summary_exportGraph_answers] at taken left taken' left'
  exact ⟨taken.trans (Nat.zero_add _), left.trans (Nat.zero_add _), taken'.trans (Nat.zero_add _),
    left'.trans (Nat.zero_add _)⟩

/-- The calls of an export for entities are those for the rows of its entities. -/
theorem countP_node_exportCalls (p : Call → Bool) :
    ((exportCalls scope g).countP fun call => call.isNode && p call) = (nodeRows scope g).countP fun r => p (.node r) := by
  rw [exportCalls, rowCalls, List.countP_append, List.countP_append, List.countP_map, List.countP_map,
    show (fun call => Call.isNode call && p call) ∘ Call.edge = fun _ => false from rfl, List.countP_false]
  rfl

theorem countP_edge_exportCalls (p : Call → Bool) :
    ((exportCalls scope g).countP fun call => call.isEdge && p call) = (edgeRows scope g).countP fun r => p (.edge r) := by
  rw [exportCalls, rowCalls, List.countP_append, List.countP_append, List.countP_map, List.countP_map,
    show (fun call => Call.isEdge call && p call) ∘ Call.node = fun _ => false from rfl, List.countP_false]
  exact Nat.zero_add _

theorem countP_isNode_exportCalls : (exportCalls scope g).countP Call.isNode = g.nodeCount := by
  have rows := countP_node_exportCalls scope g fun _ => true
  simp only [Bool.and_true, List.countP_true] at rows
  rw [rows, length_nodeRows]

theorem countP_isEdge_exportCalls : (exportCalls scope g).countP Call.isEdge = g.relationshipCount := by
  have rows := countP_edge_exportCalls scope g fun _ => true
  simp only [Bool.and_true, List.countP_true] at rows
  rw [rows, length_edgeRows]

theorem nodesExported_add_nodesFailed :
    (exportGraph store scope g state).summary.nodesExported + (exportGraph store scope g state).summary.nodesFailed =
      g.nodeCount := by
  have counts := counts_summary_exportGraph store scope g state
  rw [counts.nodesExported, counts.nodesFailed, succeeded_add_failed, map_fst_answers, countP_isNode_exportCalls]

theorem relationshipsExported_add_relationshipsFailed :
    (exportGraph store scope g state).summary.relationshipsExported +
      (exportGraph store scope g state).summary.relationshipsFailed = g.relationshipCount := by
  have counts := counts_summary_exportGraph store scope g state
  rw [counts.relationshipsExported, counts.relationshipsFailed, succeeded_add_failed, map_fst_answers,
    countP_isEdge_exportCalls]

/-- Only the call for the indexes counts labels. -/
theorem indexedLabels_exportGraph :
    (exportGraph store scope g state).summary.indexedLabels =
      if (store.ensureIndexes (store.after state (rowCalls scope g)) (nodeLabels g)).result.isOk then
        (nodeLabels g).length
      else 0 := by
  have rows : ∀ a ∈ store.answers state (rowCalls scope g), a.1.isNode = true ∨ a.1.isEdge = true := by
    intro a ha
    have mem := fst_mem_of_mem_answers ha
    rw [rowCalls, List.mem_append, List.mem_map, List.mem_map] at mem
    rcases mem with ⟨row, _, call⟩ | ⟨row, _, call⟩
    · exact .inl (call ▸ rfl)
    · exact .inr (call ▸ rfl)
  rw [summary_exportGraph_answers, exportCalls, answers_append, List.foldl_append]
  -- the fold over the rows leaves the count at zero, which is what remains if the last call fails
  have before := indexedLabels_foldl_count {} rows
  generalize List.foldl ExportSummary.count {} (store.answers state (rowCalls scope g)) = s at before
  rw [answers, answers, List.foldl_cons, List.foldl_nil]
  show (s.countIndexes _ (store.ensureIndexes _ _).result).indexedLabels = _
  cases (store.ensureIndexes (store.after state (rowCalls scope g)) (nodeLabels g)).result with
  | ok => rfl
  | error => exact before

/-- **An export tries everything exactly once.** Whatever a store answers to whatever it was asked before, what goes out is
every entity and then every relationship, in order of registration and with the same scope in every id, and at last one
call for the indexes of all labels, which are in increasing order. The summary counts the answers, and the labels only if
that last call was taken. -/
theorem export_attempts {σ : Type} (store : Store σ) (scope : Option String) (g : Graph) (state : σ) :
    let x := exportGraph store.recorded scope g (state, [])
    let log := x.state.2
    log.map Prod.fst =
        g.nodes.map (fun n => .node ⟨n.1.label, scopedId scope n.1.id, n.2⟩) ++
          g.relationships.map (fun r =>
            .edge ⟨r.1.source.label, scopedId scope r.1.source.id, r.1.target.label, scopedId scope r.1.target.id,
              r.1.relation.name, r.2⟩) ++
          [.indexes (nodeLabels g)] ∧
      ((nodeLabels g).Pairwise (· < ·) ∧ ∀ label, label ∈ nodeLabels g ↔ ∃ e ∈ g.entities, e.label = label) ∧
      x.summary.Counts log ∧
      x.summary.nodesExported + x.summary.nodesFailed = g.nodeCount ∧
      x.summary.relationshipsExported + x.summary.relationshipsFailed = g.relationshipCount ∧
      (∃ answer, log.getLast? = some (.indexes (nodeLabels g), answer) ∧
        x.summary.indexedLabels = if answer.isOk then (nodeLabels g).length else 0) ∧
      x.state.1 = (exportGraph store scope g state).state ∧ x.summary = (exportGraph store scope g state).summary := by
  intro x log
  have state_eq : x.state = (store.after state (exportCalls scope g), store.answers state (exportCalls scope g)) := by
    rw [state_exportGraph_after, after_recorded, List.nil_append]
  have log_eq : log = store.answers state (exportCalls scope g) := congrArg Prod.snd state_eq
  have summary_eq : x.summary = (exportGraph store scope g state).summary := by
    rw [summary_exportGraph_answers, answers_recorded, summary_exportGraph_answers]
  have counts := counts_summary_exportGraph store scope g state
  rw [← summary_eq, ← log_eq] at counts
  have calls : log.map Prod.fst = exportCalls scope g := by rw [log_eq, map_fst_answers]
  refine ⟨?_, ⟨sorted_nodeLabels g, fun _ => mem_nodeLabels_iff⟩, counts, ?_, ?_, ?_, ?_, summary_eq⟩
  · rw [calls, exportCalls, rowCalls, nodeRows, edgeRows, List.map_map, List.map_map]
    rfl
  · rw [summary_eq, nodesExported_add_nodesFailed]
  · rw [summary_eq, relationshipsExported_add_relationshipsFailed]
  · refine ⟨_, ?_, summary_eq ▸ indexedLabels_exportGraph store scope g state⟩
    rw [log_eq, exportCalls, answers_append]
    exact List.getLast?_concat
  · rw [state_eq, state_exportGraph_after]

end ProgramGraph.Store
