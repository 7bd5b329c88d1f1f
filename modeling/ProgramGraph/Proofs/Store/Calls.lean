import ProgramGraph.Proofs.Store.Export

/-!
# ProgramGraph.Proofs.Store.Calls

Stores under sequences of calls, with nothing assumed about how they answer.

* `Call`              — the three calls, as data.
* `perform`           — one call; `answers` and `after`: what a sequence of calls is answered, and the state it leaves.
* `succeeded`, `failed` — how many calls of a kind were taken, and how many were not.
* `exportCalls`       — the calls of an export. `state_exportGraph_after` and `summary_exportGraph_answers`: they all go out,
  and the summary counts their answers.
-/

namespace ProgramGraph.Store

open ProgramGraph.Graph

inductive Call where
  | node (row : NodeRow)
  | edge (row : EdgeRow)
  | indexes (labels : List String)
  deriving DecidableEq

namespace Call

def isNode : Call → Bool
  | .node _ => true
  | _ => false

def isEdge : Call → Bool
  | .edge _ => true
  | _ => false

end Call

abbrev Answer := Except StoreError Unit

variable {σ : Type}

def perform (store : Store σ) (state : σ) : Call → Response σ
  | .node row => store.upsertNode state row
  | .edge row => store.upsertEdge state row
  | .indexes labels => store.ensureIndexes state labels

/-- Some calls with what they are answered, each on the state that the one before it left. -/
def answers (store : Store σ) (state : σ) : List Call → List (Call × Answer)
  | [] => []
  | call :: calls =>
    (call, (store.perform state call).result) :: store.answers (store.perform state call).state calls

/-- The state that some calls leave. -/
def after (store : Store σ) (state : σ) : List Call → σ
  | [] => state
  | call :: calls => store.after (store.perform state call).state calls

theorem map_fst_answers (store : Store σ) (state : σ) (calls : List Call) :
    (store.answers state calls).map Prod.fst = calls := by
  induction calls generalizing state with
  | nil => rfl
  | cons call calls ih => rw [answers, List.map_cons, ih]

theorem fst_mem_of_mem_answers {store : Store σ} {state : σ} {calls : List Call} {a : Call × Answer}
    (h : a ∈ store.answers state calls) : a.1 ∈ calls :=
  map_fst_answers store state calls ▸ List.mem_map_of_mem h

/-- Every answer is one to its call in some state. -/
theorem exists_perform_of_mem_answers {store : Store σ} {state : σ} {calls : List Call} {a : Call × Answer}
    (h : a ∈ store.answers state calls) : ∃ state', a.2 = (store.perform state' a.1).result := by
  induction calls generalizing state with
  | nil => cases h
  | cons call calls ih =>
    rcases List.mem_cons.mp h with rfl | later
    · exact ⟨state, rfl⟩
    · exact ih later

theorem answers_append (store : Store σ) (state : σ) (calls calls' : List Call) :
    store.answers state (calls ++ calls') = store.answers state calls ++ store.answers (store.after state calls) calls' := by
  induction calls generalizing state with
  | nil => rfl
  | cons call calls ih => rw [List.cons_append, answers, ih, answers, after, List.cons_append]

/-! ## Counting answers -/

/-- How many calls of a kind were taken. -/
def succeeded (kind : Call → Bool) (log : List (Call × Answer)) : Nat :=
  log.countP fun a => kind a.1 && a.2.isOk

def failed (kind : Call → Bool) (log : List (Call × Answer)) : Nat :=
  log.countP fun a => kind a.1 && !a.2.isOk

theorem succeeded_add_failed (kind : Call → Bool) (log : List (Call × Answer)) :
    succeeded kind log + failed kind log = (log.map Prod.fst).countP kind := by
  rw [succeeded, failed, List.countP_map]
  induction log with
  | nil => rfl
  | cons a log ih =>
    rw [List.countP_cons, List.countP_cons, List.countP_cons, Function.comp, ← ih]
    cases kind a.1 <;> cases a.2.isOk <;> simp <;> omega

/-- An answer, counted. -/
def ExportSummary.count (s : ExportSummary) (a : Call × Answer) : ExportSummary :=
  match a.1 with
  | .node _ => s.countNode a.2
  | .edge _ => s.countEdge a.2
  | .indexes labels => s.countIndexes labels.length a.2

theorem foldl_count (s : ExportSummary) (log : List (Call × Answer)) :
    (log.foldl ExportSummary.count s).nodesExported = s.nodesExported + succeeded Call.isNode log ∧
      (log.foldl ExportSummary.count s).nodesFailed = s.nodesFailed + failed Call.isNode log ∧
      (log.foldl ExportSummary.count s).relationshipsExported = s.relationshipsExported + succeeded Call.isEdge log ∧
      (log.foldl ExportSummary.count s).relationshipsFailed = s.relationshipsFailed + failed Call.isEdge log := by
  induction log generalizing s with
  | nil => exact ⟨rfl, rfl, rfl, rfl⟩
  | cons a log ih =>
    obtain ⟨taken, left, taken', left'⟩ := ih (s.count a)
    rw [List.foldl_cons, taken, left, taken', left']
    simp only [succeeded, failed, List.countP_cons]
    obtain ⟨call, answer⟩ := a
    cases call <;> cases answer <;>
      simp [ExportSummary.count, ExportSummary.countNode, ExportSummary.countEdge, ExportSummary.countIndexes,
        Call.isNode, Call.isEdge, Except.isOk, Except.toBool] <;> omega

/-- Only calls for indexes count labels. -/
theorem indexedLabels_foldl_count (s : ExportSummary) {log : List (Call × Answer)}
    (rows : ∀ a ∈ log, a.1.isNode = true ∨ a.1.isEdge = true) :
    (log.foldl ExportSummary.count s).indexedLabels = s.indexedLabels := by
  induction log generalizing s with
  | nil => rfl
  | cons a log ih =>
    rw [List.foldl_cons, ih _ fun b hb => rows b (List.mem_cons_of_mem _ hb)]
    have row := rows a List.mem_cons_self
    obtain ⟨call, answer⟩ := a
    cases call with
    | node => cases answer <;> rfl
    | edge => cases answer <;> rfl
    | indexes => simp [Call.isNode, Call.isEdge] at row

/-! ## Exports -/

/-- The calls of an export for its entities and then for its relationships, each in order of registration. -/
def rowCalls (scope : Option String) (g : Graph) : List Call :=
  (nodeRows scope g).map .node ++ (edgeRows scope g).map .edge

/-- The calls of an export: those for its rows, then one for the indexes. -/
def exportCalls (scope : Option String) (g : Graph) : List Call :=
  rowCalls scope g ++ [.indexes (nodeLabels g)]

namespace Exporting

def add (store : Store σ) (x : Exporting σ) : Call → Exporting σ
  | .node row => x.addNode store row
  | .edge row => x.addEdge store row
  | .indexes labels => x.addIndexes store labels

theorem state_add (store : Store σ) (x : Exporting σ) (call : Call) :
    (x.add store call).state = (store.perform x.state call).state := by
  cases call <;> rfl

theorem summary_add (store : Store σ) (x : Exporting σ) (call : Call) :
    (x.add store call).summary = x.summary.count (call, (store.perform x.state call).result) := by
  cases call <;> rfl

theorem state_foldl_add (store : Store σ) (calls : List Call) (x : Exporting σ) :
    (calls.foldl (add store) x).state = store.after x.state calls := by
  induction calls generalizing x with
  | nil => rfl
  | cons call calls ih => rw [List.foldl_cons, ih, state_add, after]

theorem summary_foldl_add (store : Store σ) (calls : List Call) (x : Exporting σ) :
    (calls.foldl (add store) x).summary = (store.answers x.state calls).foldl ExportSummary.count x.summary := by
  induction calls generalizing x with
  | nil => rfl
  | cons call calls ih => rw [List.foldl_cons, ih, summary_add, state_add, answers, List.foldl_cons]

end Exporting

variable (store : Store σ) (scope : Option String) (g : Graph) (state : σ)

theorem exportGraph_eq_foldl :
    exportGraph store scope g state =
      ((exportCalls scope g).foldl (Exporting.add store)
        { state := state, events := [.exporting g.nodeCount g.relationshipCount] }).conclude := by
  rw [exportCalls, rowCalls, List.foldl_append, List.foldl_append, List.foldl_map, List.foldl_map]
  rfl

theorem state_exportGraph_after :
    (exportGraph store scope g state).state = store.after state (exportCalls scope g) := by
  rw [exportGraph_eq_foldl, Exporting.state_conclude, Exporting.state_foldl_add]

theorem summary_exportGraph_answers :
    (exportGraph store scope g state).summary =
      (store.answers state (exportCalls scope g)).foldl ExportSummary.count {} := by
  rw [exportGraph_eq_foldl, Exporting.summary_conclude, Exporting.summary_foldl_add]

end ProgramGraph.Store
