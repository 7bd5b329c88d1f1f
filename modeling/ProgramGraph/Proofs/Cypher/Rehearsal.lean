import ProgramGraph.Command.Discover
import ProgramGraph.Proofs.Cypher.Refinement
import ProgramGraph.Proofs.Discovery.Names
import ProgramGraph.Proofs.Store.Attempts
import ProgramGraph.Proofs.Store.Exactness

/-!
# ProgramGraph.Proofs.Cypher.Rehearsal

An export into memory as a rehearsal of one into a graph database.

* `Supported`            — calls in which relationships come after their ends, such as those of an export of a coherent graph.
* `Mirrors.isOk_answers` — of such calls the client takes those that name no blank label.
* `summary_client_eq_iff` — when both exports of a graph come to the same summary.
* `rehearsal_iff`        — the same for discovered graphs, by the kinds of the syntax nodes.
-/

namespace ProgramGraph

open ProgramGraph.Graph

namespace Store

/-! ## Relationships after their ends -/

namespace Call

/-- What a call stores for others to refer to. -/
def makes : Call → List NodeKey
  | .node r => [r.key]
  | _ => []

theorem not_blank_of_mem_needs {call : Call} (h : call.labelled = true) {k : NodeKey} (hk : k ∈ call.needs) :
    Text.isAllBlank k.label = false := by
  cases call with
  | edge r =>
    obtain ⟨source, target, _⟩ := labelled_edge.mp h
    rcases List.mem_pair.mp hk with rfl | rfl
    · exact source
    · exact target
  | node r => cases hk
  | indexes labels => cases hk

theorem labelled_of_mem_makes {call : Call} {k : NodeKey} (hk : k ∈ call.makes) :
    call.labelled = !Text.isAllBlank k.label := by
  cases call with
  | node r =>
    rw [List.mem_singleton.mp hk]
    exact Bool.and_true _
  | edge r => cases hk
  | indexes labels => cases hk

end Call

/-- What calls need is known, or made by calls before them. -/
def Supported : List NodeKey → List Call → Prop
  | _, [] => True
  | known, call :: calls => (∀ k ∈ call.needs, k ∈ known) ∧ Supported (call.makes ++ known) calls

theorem Supported.nodes {known : List NodeKey} {rows : List NodeRow} {calls : List Call}
    (h : Supported ((rows.map NodeRow.key).reverse ++ known) calls) : Supported known (rows.map .node ++ calls) := by
  induction rows generalizing known with
  | nil => exact h
  | cons r rows ih =>
    rw [List.map_cons, List.reverse_cons, List.append_assoc] at h
    exact ⟨by simp [Call.needs], ih h⟩

theorem Supported.edges {known : List NodeKey} {rows : List EdgeRow} {calls : List Call}
    (ends : ∀ r ∈ rows, r.source ∈ known ∧ r.target ∈ known) (h : Supported known calls) :
    Supported known (rows.map .edge ++ calls) := by
  induction rows with
  | nil => exact h
  | cons r rows ih =>
    obtain ⟨source, target⟩ := ends r List.mem_cons_self
    refine ⟨?_, ih fun r' hr' => ends r' (List.mem_cons_of_mem _ hr')⟩
    intro k hk
    rcases List.mem_pair.mp hk with rfl | rfl
    · exact source
    · exact target

theorem supported_exportCalls {g : Graph} (scope : Option String) (coherent : g.Coherent) :
    Supported [] (exportCalls scope g) := by
  rw [exportCalls, rowCalls, List.append_assoc]
  refine .nodes (.edges ?_ ⟨by simp [Call.needs], trivial⟩)
  intro row hrow
  obtain ⟨⟨r, bag⟩, hr, rfl⟩ := List.mem_map.mp hrow
  have known : ∀ e ∈ g.entities, nodeKey scope e ∈ (((nodeRows scope g).map NodeRow.key).reverse ++ []) := by
    intro e he
    obtain ⟨n, hn, rfl⟩ := List.mem_map.mp he
    rw [List.append_nil, List.mem_reverse, nodeRows, List.map_map]
    exact List.mem_map_of_mem (f := NodeRow.key ∘ fun n => nodeRow scope n.1 n.2) hn
  obtain ⟨source, target⟩ := coherent r bag hr
  exact ⟨known _ source, known _ target⟩

/-! ## Counting calls -/

theorem failed_eq_countP {taken : Call → Bool} {log : List (Call × Answer)} (h : ∀ a ∈ log, a.2.isOk = taken a.1)
    (kind : Call → Bool) : failed kind log = (log.map Prod.fst).countP fun call => kind call && !taken call := by
  rw [failed, List.countP_map]
  apply List.countP_congr
  intro a ha
  rw [h a ha]
  rfl

/-- Of two tests, one of which implies the other, as many pass the one as the other if just the same do. -/
theorem countP_eq_countP_iff {α : Type} {l : List α} {p q : α → Bool} (imp : ∀ a ∈ l, p a = true → q a = true) :
    l.countP p = l.countP q ↔ ∀ a ∈ l, q a = true → p a = true := by
  induction l with
  | nil => simp
  | cons a l ih =>
    have later : ∀ b ∈ l, p b = true → q b = true := fun b hb => imp b (List.mem_cons_of_mem _ hb)
    have le : l.countP p ≤ l.countP q := List.countP_mono_left later
    have first := imp a List.mem_cons_self
    rw [List.countP_cons, List.countP_cons, List.forall_mem_cons, ← ih later]
    cases hp : p a with
    | true => simp [first hp]
    | false =>
      cases hq : q a with
      | true =>
        simp
        omega
      | false => simp

end Store

/-! ## The client -/

namespace Cypher

open Store

theorem checkLabel_of_blank {label : String} (h : Text.isAllBlank label = true) :
    checkLabel label = .error (.invalidLabel label) := by
  rw [checkLabel, if_pos h]

theorem ofNode_of_not_labelled {r : NodeRow} (h : (Call.node r).labelled = false) :
    ∃ cause, Statement.ofNode r = .error cause := by
  have blank : Text.isAllBlank r.label = true := by simpa [Call.labelled, Call.labels] using h
  rw [Statement.ofNode, checkLabel_of_blank blank]
  exact ⟨_, rfl⟩

theorem ofEdge_of_not_labelled {r : EdgeRow} (h : (Call.edge r).labelled = false) :
    ∃ cause, Statement.ofEdge r = .error cause := by
  rw [Statement.ofEdge, checkLabel, checkLabel, checkLabel]
  cases source : Text.isAllBlank r.sourceLabel with
  | true => exact ⟨_, rfl⟩
  | false =>
    cases target : Text.isAllBlank r.targetLabel with
    | true => exact ⟨_, rfl⟩
    | false =>
      cases label : Text.isAllBlank r.label with
      | true => exact ⟨_, rfl⟩
      | false => simp [Call.labelled, Call.labels, source, target, label] at h

namespace Database

variable {s : Session Database} {m : Memory}

/-- A call that names a blank label is refused, and changes no node and no edge. -/
theorem perform_of_not_labelled (s : Session Database) {call : Call} (h : call.labelled = false) :
    ((Client.store server).perform s call).result.isOk = false ∧
      ((Client.store server).perform s call).state.server = s.server := by
  cases call with
  | node r =>
    obtain ⟨cause, unsent⟩ := ofNode_of_not_labelled h
    have answer : (Client.store server).perform s (.node r) = .refused s cause :=
      congrArg (Client.submit server s · _) unsent
    rw [answer]
    exact ⟨rfl, rfl⟩
  | edge r =>
    obtain ⟨cause, unsent⟩ := ofEdge_of_not_labelled h
    have answer : (Client.store server).perform s (.edge r) = .refused s cause :=
      congrArg (Client.submit server s · _) unsent
    rw [answer]
    exact ⟨rfl, rfl⟩
  | indexes labels =>
    obtain ⟨same, made⟩ := makeIndexes_server s labels
    exact ⟨made.trans h, same⟩

theorem result_of_supported (m : Memory) {call : Call} (labelled : call.labelled = true)
    (supported : ∀ k ∈ call.needs, k ∈ m.nodes) : ((Memory.store []).perform m call).result = .ok () := by
  rcases result_of_labelled m labelled with taken | ⟨k, needed, absent, _⟩
  · exact taken
  · exact absurd (supported k needed) absent

theorem mem_nodes_perform (m : Memory) {call : Call} (labelled : call.labelled = true) {k : NodeKey}
    (h : k ∈ call.makes ∨ k ∈ m.nodes) : k ∈ ((Memory.store []).perform m call).state.nodes := by
  cases call with
  | node r =>
    rw [Store.perform, upsertNode_of_labelled m labelled]
    exact Memory.mem_nodes_mergeNode.mpr (h.imp_left List.mem_singleton.mp)
  | edge r =>
    have before := h.resolve_left List.not_mem_nil
    rw [Store.perform, upsertEdge_of_labelled m labelled, Memory.guarded.eq_def]
    split
    · exact before
    · exact before
  | indexes labels => exact h.resolve_left List.not_mem_nil

/-- Of calls whose needs are met, the client takes those that name no blank label. The store that the database mirrors is one
that was given these calls alone. -/
theorem Mirrors.isOk_answers (h : s.server.Mirrors m) {known : List NodeKey} {calls : List Call}
    (leavesIds : ∀ call ∈ calls, call.leavesIds) (supported : Supported known calls)
    (stored : ∀ k ∈ known, Text.isAllBlank k.label = false → k ∈ m.nodes) :
    ∀ a ∈ (Client.store server).answers s calls, a.2.isOk = a.1.labelled := by
  induction calls generalizing known s m with
  | nil => simp [Store.answers]
  | cons call calls ih =>
    obtain ⟨here, supported⟩ := supported
    have later : ∀ call ∈ calls, call.leavesIds := fun c hc => leavesIds c (List.mem_cons_of_mem _ hc)
    rw [Store.answers, List.forall_mem_cons]
    cases labelled : call.labelled with
    | false =>
      -- the mirrored store is not asked; what the call makes has a blank label, so only calls with a blank label need it
      obtain ⟨refused, same⟩ := perform_of_not_labelled s labelled
      refine ⟨refused, ih (same ▸ h) later supported ?_⟩
      intro k hk label
      rcases List.mem_append.mp hk with made | hk
      · rw [Call.labelled_of_mem_makes made, label] at labelled
        cases labelled
      · exact stored k hk label
    | true =>
      have agree := h.perform labelled (leavesIds call List.mem_cons_self)
      have taken : ((Memory.store []).perform m call).result = .ok () :=
        result_of_supported m labelled fun k hk => stored k (here k hk) (Call.not_blank_of_mem_needs labelled hk)
      refine ⟨?_, ih agree.mirrors later supported ?_⟩
      · rw [agree.result, taken]
        rfl
      · intro k hk label
        exact mem_nodes_perform m labelled ((List.mem_append.mp hk).imp_right fun hk => stored k hk label)

end Database

/-! ## Exports -/

theorem not_blank_relation (relation : Relation) : Text.isAllBlank relation.name = false := by
  cases relation <;> decide

section

variable {g : Graph} (scope : Option String)

theorem isOk_answers_exportCalls (coherent : g.Coherent) (noId : ∀ n ∈ g.nodes, "id" ∉ n.2) :
    ∀ a ∈ (Client.store Database.server).answers { server := {} } (exportCalls scope g), a.2.isOk = a.1.labelled := by
  have start : ({ server := {} } : Session Database).server.Mirrors {} := .empty
  refine start.isOk_answers ?_ (supported_exportCalls scope coherent) (by simp)
  intro call hcall
  cases call with
  | node row =>
    obtain ⟨n, hn, rfl⟩ : ∃ n ∈ g.nodes, nodeRow scope n.1 n.2 = row := by
      simpa [exportCalls, rowCalls, nodeRows] using hcall
    exact noId n hn
  | edge row => trivial
  | indexes labels => trivial

variable (coherent : g.Coherent) (noId : ∀ n ∈ g.nodes, "id" ∉ n.2)

include coherent noId

theorem nodesFailed_client :
    (exportGraph (Client.store Database.server) scope g { server := {} }).summary.nodesFailed =
      g.entities.countP fun e => Text.isAllBlank e.label := by
  rw [(counts_summary_exportGraph _ _ _ _).nodesFailed,
    failed_eq_countP (isOk_answers_exportCalls scope coherent noId), map_fst_answers,
    countP_node_exportCalls scope g fun call => !call.labelled, nodeRows, entities, List.countP_map, List.countP_map]
  apply List.countP_congr
  intro n _
  simp [Call.labelled, Call.labels, nodeRow]

theorem relationshipsFailed_client :
    (exportGraph (Client.store Database.server) scope g { server := {} }).summary.relationshipsFailed =
      g.relationships.countP fun r => Text.isAllBlank r.1.source.label || Text.isAllBlank r.1.target.label := by
  rw [(counts_summary_exportGraph _ _ _ _).relationshipsFailed,
    failed_eq_countP (isOk_answers_exportCalls scope coherent noId), map_fst_answers,
    countP_edge_exportCalls scope g fun call => !call.labelled, edgeRows, List.countP_map]
  apply List.countP_congr
  intro r _
  have relation := not_blank_relation r.1.relation
  simp [Call.labelled, Call.labels, edgeRow, relation]

end

theorem indexedLabels_client (scope : Option String) (g : Graph) :
    (exportGraph (Client.store Database.server) scope g { server := {} }).summary.indexedLabels =
      if ∀ e ∈ g.entities, Text.isAllBlank e.label = false then (nodeLabels g).length else 0 := by
  rw [indexedLabels_exportGraph]
  refine if_congr ?_ rfl rfl
  show (Client.makeIndexes Database.server _ (nodeLabels g)).result.isOk = true ↔ _
  rw [(Database.makeIndexes_server _ _).2, List.all_eq_true]
  constructor
  · intro h e he
    simpa using h e.label (mem_nodeLabels_iff.mpr ⟨e, he, rfl⟩)
  · intro h label hl
    obtain ⟨e, he, rfl⟩ := mem_nodeLabels_iff.mp hl
    rw [h e he]
    rfl

/-- Summaries that count the same rows differ in what failed or in the indexes. -/
theorem summary_eq_iff {a b : ExportSummary}
    (nodes : a.nodesExported + a.nodesFailed = b.nodesExported + b.nodesFailed)
    (relationships : a.relationshipsExported + a.relationshipsFailed = b.relationshipsExported + b.relationshipsFailed) :
    { a with indexedLabels := b.indexedLabels } = b ↔
      a.nodesFailed = b.nodesFailed ∧ a.relationshipsFailed = b.relationshipsFailed := by
  constructor
  · intro same
    rw [← same]
    exact ⟨rfl, rfl⟩
  · rintro ⟨nodesFailed, relationshipsFailed⟩
    rw [nodesFailed, Nat.add_right_cancel_iff] at nodes
    rw [relationshipsFailed, Nat.add_right_cancel_iff] at relationships
    rw [nodes, nodesFailed, relationships, relationshipsFailed]

/-- The summaries of an export into memory and of one into a database agree, up to the indexes, if no label is blank but the
empty one, and altogether if no label is blank. -/
theorem summary_client_eq_iff {g : Graph} (scope : Option String) (coherent : g.Coherent)
    (noId : ∀ n ∈ g.nodes, "id" ∉ n.2) :
    let actual := (exportGraph (Client.store Database.server) scope g { server := {} }).summary
    let rehearsed := (exportGraph (Memory.store []) scope g {}).summary
    ({ actual with indexedLabels := rehearsed.indexedLabels } = rehearsed ↔
        ∀ e ∈ g.entities, Text.isAllBlank e.label = true → e.label = "") ∧
      (actual = rehearsed ↔ ∀ e ∈ g.entities, Text.isAllBlank e.label = false) := by
  intro actual rehearsed
  have nodes : actual.nodesExported + actual.nodesFailed = rehearsed.nodesExported + rehearsed.nodesFailed := by
    rw [nodesExported_add_nodesFailed, nodesExported_add_nodesFailed]
  have relationships : actual.relationshipsExported + actual.relationshipsFailed =
      rehearsed.relationshipsExported + rehearsed.relationshipsFailed := by
    rw [relationshipsExported_add_relationshipsFailed, relationshipsExported_add_relationshipsFailed]
  have blank_of_empty : ∀ label : String, label = "" → Text.isAllBlank label = true := by
    rintro _ rfl
    rfl
  have nodesFailed : actual.nodesFailed = rehearsed.nodesFailed ↔
      ∀ e ∈ g.entities, Text.isAllBlank e.label = true → e.label = "" := by
    rw [nodesFailed_client scope coherent noId, Memory.nodesFailed_exportGraph, eq_comm, countP_eq_countP_iff]
    · simp only [decide_eq_true_eq]
    · intro e _ empty
      exact blank_of_empty _ (of_decide_eq_true empty)
  have relationshipsFailed (same : ∀ e ∈ g.entities, Text.isAllBlank e.label = true → e.label = "") :
      actual.relationshipsFailed = rehearsed.relationshipsFailed := by
    rw [relationshipsFailed_client scope coherent noId, Memory.relationshipsFailed_exportGraph coherent]
    apply List.countP_congr
    intro r hr
    obtain ⟨source, target⟩ := coherent r.1 r.2 hr
    rw [Bool.or_eq_true, Bool.or_eq_true, decide_eq_true_iff, decide_eq_true_iff]
    exact or_congr ⟨same _ source, blank_of_empty _⟩ ⟨same _ target, blank_of_empty _⟩
  have upToIndexes : { actual with indexedLabels := rehearsed.indexedLabels } = rehearsed ↔
      ∀ e ∈ g.entities, Text.isAllBlank e.label = true → e.label = "" := by
    rw [summary_eq_iff nodes relationships, nodesFailed]
    exact ⟨And.left, fun same => ⟨same, relationshipsFailed same⟩⟩
  refine ⟨upToIndexes, ?_⟩
  have rehearsedLabels : rehearsed.indexedLabels = (nodeLabels g).length :=
    congrArg ExportSummary.indexedLabels (summary_exportGraph [] scope g {})
  have actualLabels := indexedLabels_client scope g
  constructor
  · intro same
    -- with a blank label the client counts no labels, though there is that one
    by_contra blank
    have no_labels : (nodeLabels g).length = 0 := by
      rw [← rehearsedLabels, ← same, actualLabels, if_neg blank]
    apply blank
    intro e he
    have here := mem_nodeLabels_iff.mpr ⟨e, he, rfl⟩
    rw [List.eq_nil_of_length_eq_zero no_labels] at here
    cases here
  · intro none_blank
    have same := upToIndexes.mpr fun e he blank => absurd blank (by rw [none_blank e he]; exact Bool.false_ne_true)
    have labels : rehearsed.indexedLabels = actual.indexedLabels := by
      rw [rehearsedLabels, actualLabels, if_pos none_blank]
    rwa [labels] at same

end Cypher

/-! ## Discovered graphs -/

namespace Program

theorem DeclCategory.not_blank_label (c : DeclCategory) : Text.isAllBlank c.label = false := by
  cases c <;> decide

theorem TypeCategory.not_blank_label (c : TypeCategory) : Text.isAllBlank c.label = false := by
  cases c <;> decide

end Program

namespace Discovery

open Command Program Store Cypher

theorem not_blank_symbolEntity (w : World) (d : DeclId) : Text.isAllBlank (symbolEntity w d).label = false := by
  obtain ⟨c, label⟩ := exists_label_symbolEntity w d
  rw [label]
  exact c.not_blank_label

theorem not_blank_typeEntity (w : World) (t : TypeId) : Text.isAllBlank (typeEntity w t).label = false := by
  obtain ⟨c, label⟩ := exists_label_typeEntity w t
  rw [label]
  exact c.not_blank_label

/-- Nothing is told about an entity under the name of its id. -/
theorem Settled.id_not_mem_nodes {w : World} {x : Explorer} (h : Settled w x) : ∀ n ∈ x.graph.nodes, "id" ∉ n.2 := by
  intro n hn named
  rw [h.nodes] at hn
  obtain ⟨e, _, rfl⟩ := List.mem_map.mp hn
  exact absurd (names_describe w e named) (by decide)

/-- What holds of the labels of symbols and types holds of all labels if it holds of the kinds of the syntax nodes. -/
theorem Settled.forall_labels_iff {w : World} {x : Explorer} (h : Settled w x) {P : String → Prop}
    (symbols : ∀ d, P (symbolEntity w d).label) (types : ∀ t, P (typeEntity w t).label) :
    (∀ e ∈ x.graph.entities, P e.label) ↔ ∀ ref n, w.units.node? ref = some n → P n.kind := by
  constructor
  · intro all ref n hn
    have here := all _ (h.mem_entities_iff.mpr (.of_key (.node hn)))
    rwa [World.entity_node hn] at here
  · intro all e he
    have genuine := h.mem_entities_iff.mp he
    rw [genuine.canonical]
    cases hk : e.key with
    | node ref =>
      obtain ⟨n, hn⟩ := genuine.reachable.node?_isSome hk
      rw [World.entity_node hn]
      exact all ref n hn
    | symbol d => exact symbols d
    | type t => exact types t

/-- **A dry run, and the run.** A discovered graph goes into memory and into a database with the same summary exactly if no
syntax node has a blank kind. The summaries agree up to the indexes exactly if no kind is blank but the empty one. -/
theorem rehearsal_iff (w : World) (scope : Option String) :
    let g := (discover w).graph
    let actual := (exportGraph (Client.store Database.server) scope g { server := {} }).summary
    let rehearsed := (exportGraph (Memory.store []) scope g {}).summary
    (actual = rehearsed ↔ ∀ ref n, w.units.node? ref = some n → Text.isAllBlank n.kind = false) ∧
      ({ actual with indexedLabels := rehearsed.indexedLabels } = rehearsed ↔
        ∀ ref n, w.units.node? ref = some n → Text.isAllBlank n.kind = true → n.kind = "") := by
  intro g actual rehearsed
  have settled := settled_discover w
  obtain ⟨upToIndexes, altogether⟩ := summary_client_eq_iff scope settled.coherent settled.id_not_mem_nodes
  constructor
  · refine altogether.trans (settled.forall_labels_iff (P := fun label => Text.isAllBlank label = false) ?_ ?_)
    · exact not_blank_symbolEntity w
    · exact not_blank_typeEntity w
  · refine upToIndexes.trans
      (settled.forall_labels_iff (P := fun label => Text.isAllBlank label = true → label = "") ?_ ?_)
    · intro d blank
      rw [not_blank_symbolEntity] at blank
      cases blank
    · intro t blank
      rw [not_blank_typeEntity] at blank
      cases blank

/-- A snapshot of one syntax node, with a space for its kind. -/
def spaced : Snapshot :=
  { units := [{ nodes := #[{ kind := " " }] }] }

theorem rehearsal_differs_spaced :
    let g := (discover (worldOf {} (ofSnapshot spaced "ff"))).graph
    (exportGraph (Client.store Database.server) none g { server := {} }).summary ≠
      (exportGraph (Memory.store []) none g {}).summary := by
  intro g same
  have settled := settled_discover (worldOf {} (ofSnapshot spaced "ff"))
  have none_blank := (summary_client_eq_iff none settled.coherent settled.id_not_mem_nodes).2.mp same
  have node : (worldOf {} (ofSnapshot spaced "ff")).units.node? ⟨0, 0⟩ = some { kind := " " } := by
    decide +kernel
  have blank := none_blank _ (settled.mem_entities_iff.mpr (.of_key (.node node)))
  rw [World.entity_node node] at blank
  exact absurd blank (by decide)

end Discovery
end ProgramGraph
