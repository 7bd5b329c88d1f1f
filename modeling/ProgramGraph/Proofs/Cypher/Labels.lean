import ProgramGraph.Proofs.Cypher.Rehearsal

/-!
# ProgramGraph.Proofs.Cypher.Labels

What is sent, as a database reads it.

* `nodeText`, `edgeText`, `indexText` — the texts of the statements, with labels in them.
* `Session.Sends`      — the texts that were sent between two points of a session, and the tokens they are read as.
* `labels_stay_quoted` — whatever a label is, it is read back as one identifier in its place, and nothing else changes.
-/

namespace ProgramGraph.Cypher

open Store

/-! ## Texts -/

def nodeText (label : String) : String :=
  "\n            MERGE (n:" ++ quoted label ++ " \x7bid: $id\x7d)\n            SET n += $props\n            "

def edgeText (source target label : String) : String :=
  "\n            OPTIONAL MATCH (a:" ++ quoted source ++
  " \x7bid: $source_id\x7d)\n            OPTIONAL MATCH (b:" ++ quoted target ++
  " \x7bid: $target_id\x7d)\n            FOREACH (_ IN CASE WHEN a IS NOT NULL AND b IS NOT NULL THEN [1] ELSE [] END |\n                MERGE (a)-[r:" ++ quoted label ++
  "]->(b)\n                SET r += $props\n            )\n            RETURN a IS NOT NULL AS source_found, b IS NOT NULL AS target_found\n            "

def indexText (label : String) : String :=
  "CREATE INDEX IF NOT EXISTS FOR (n:" ++ quoted label ++ ") ON (n.id)"

theorem text_mergeNode (row : NodeRow) : (Statement.mergeNode row).text = nodeText row.label := by
  unfold nodeText
  simp only [Statement.text, Statement.template, List.foldl_cons, List.foldl_nil, Piece.text]
  rw [String.empty_append]

theorem text_mergeEdge (row : EdgeRow) :
    (Statement.mergeEdge row).text = edgeText row.sourceLabel row.targetLabel row.label := by
  unfold edgeText
  simp only [Statement.text, Statement.template, List.foldl_cons, List.foldl_nil, Piece.text]
  rw [String.empty_append]

theorem text_labelIndex (label : String) : (Statement.labelIndex label).text = indexText label := by
  unfold indexText
  simp only [Statement.text, Statement.template, List.foldl_cons, List.foldl_nil, Piece.text]
  rw [String.empty_append]

/-! ## What is sent -/

theorem quoteLabel_eq_error_iff {label : String} :
    (∃ cause, quoteLabel label = .error cause) ↔ ∀ c ∈ label.toList, Text.isBlank c = true := by
  rw [← List.all_eq_true, ← Text.isAllBlank]
  cases blank : Text.isAllBlank label with
  | true => simp [quoteLabel, checkLabel_of_blank blank, bind, Except.bind]
  | false => simp [quoteLabel, checkLabel_of_not_blank blank, bind, Except.bind, pure, Except.pure]

theorem eq_quoted_of_quoteLabel {label text : String} (h : quoteLabel label = .ok text) : text = quoted label := by
  cases blank : Text.isAllBlank label with
  | true =>
    rw [quoteLabel, checkLabel_of_blank blank] at h
    cases h
  | false =>
    rw [quoteLabel, checkLabel_of_not_blank blank] at h
    cases h
    rfl

variable {δ : Type}

/-- The texts of the statements sent between two points of a session, in their order, with the tokens they are read as. -/
def Session.Sends (s s' : Session δ) (read : List (String × List Token)) : Prop :=
  ∃ new : List Statement, s'.statements = s.statements ++ new ∧
    new.map (fun t => (t.query.text, lex t.query.text)) = read.map fun r => (r.1, some r.2)

namespace Session

variable {s s' s'' : Session δ}

theorem Sends.nothing (s : Session δ) : s.Sends s [] :=
  ⟨[], by simp, rfl⟩

theorem Sends.trans {read read' : List (String × List Token)} (h : s.Sends s' read) (h' : s'.Sends s'' read') :
    s.Sends s'' (read ++ read') := by
  obtain ⟨new, statements, texts⟩ := h
  obtain ⟨new', statements', texts'⟩ := h'
  refine ⟨new ++ new', ?_, ?_⟩
  · rw [statements', statements, List.append_assoc]
  · rw [List.map_append, List.map_append, texts, texts']

theorem sends_send (server : Server δ) (s : Session δ) {t : Statement} {tokens : List Token}
    (h : lex t.text = some tokens) : s.Sends (s.send server t).2 [(t.text, tokens)] := by
  refine ⟨[t], ?_, ?_⟩
  · simp [send, statements]
  · simp [Statement.query, h]

theorem sends_mergeNode (server : Server δ) (s : Session δ) (row : NodeRow) :
    s.Sends (s.send server (.mergeNode row)).2 [(nodeText row.label, nodeTokens row.label)] := by
  rw [← text_mergeNode]
  exact s.sends_send server (lex_mergeNode row)

theorem sends_mergeEdge (server : Server δ) (s : Session δ) (row : EdgeRow) :
    s.Sends (s.send server (.mergeEdge row)).2
      [(edgeText row.sourceLabel row.targetLabel row.label, edgeTokens row.sourceLabel row.targetLabel row.label)] := by
  rw [← text_mergeEdge]
  exact s.sends_send server (lex_mergeEdge row)

theorem sends_labelIndex (server : Server δ) (s : Session δ) (label : String) :
    s.Sends (s.send server (.labelIndex label)).2 [(indexText label, indexTokens label)] := by
  rw [← text_labelIndex]
  exact s.sends_send server (lex_labelIndex label)

end Session

namespace Client

variable (server : Server δ) (s : Session δ)

theorem sends_upsertNode (row : NodeRow) :
    s.Sends ((store server).upsertNode s row).state
      (if Text.isAllBlank row.label then [] else [(nodeText row.label, nodeTokens row.label)]) := by
  show s.Sends (submit server s (Statement.ofNode row) checkDone).state _
  cases blank : Text.isAllBlank row.label with
  | true =>
    rw [Statement.ofNode, checkLabel_of_blank blank]
    exact .nothing s
  | false =>
    rw [Statement.ofNode, checkLabel_of_not_blank blank]
    exact s.sends_mergeNode server row

theorem sends_upsertEdge (row : EdgeRow) :
    s.Sends ((store server).upsertEdge s row).state
      (if Text.isAllBlank row.sourceLabel || Text.isAllBlank row.targetLabel || Text.isAllBlank row.label then []
       else [(edgeText row.sourceLabel row.targetLabel row.label,
         edgeTokens row.sourceLabel row.targetLabel row.label)]) := by
  show s.Sends (submit server s (Statement.ofEdge row) (checkEnds row)).state _
  cases labelled : (Call.edge row).labelled with
  | true =>
    obtain ⟨source, target, label⟩ := labelled_edge.mp labelled
    rw [ofEdge_of_labelled labelled, source, target, label]
    exact s.sends_mergeEdge server row
  | false =>
    obtain ⟨cause, refused⟩ := ofEdge_of_not_labelled labelled
    have blank : (Text.isAllBlank row.sourceLabel || Text.isAllBlank row.targetLabel || Text.isAllBlank row.label) = true := by
      simpa [Call.labelled, Call.labels, imp_iff_not_or, or_assoc] using labelled
    rw [refused, if_pos blank]
    exact .nothing s

/-- Statements go out for the labels up to the first one that is blank or for which the server fails. -/
theorem sends_ensureIndexes (labels : List String) :
    let answer := (store server).ensureIndexes s labels
    ∃ sent unsent, labels = sent ++ unsent ∧ (∀ label ∈ sent, Text.isAllBlank label = false) ∧
      s.Sends answer.state (sent.map fun label => (indexText label, indexTokens label)) ∧
      (answer.result = .ok () ∧ unsent = [] ∨ answer.result = .error .database ∨
        ∃ label rest, unsent = label :: rest ∧ Text.isAllBlank label = true ∧
          answer.result = .error (.invalidLabel label)) := by
  simp only [store]
  induction labels generalizing s with
  | nil => exact ⟨[], [], rfl, by simp, .nothing s, .inl ⟨rfl, rfl⟩⟩
  | cons label labels ih =>
    rw [makeIndexes]
    cases blank : Text.isAllBlank label with
    | true =>
      rw [Statement.ofIndex, checkLabel_of_blank blank]
      exact ⟨[], label :: labels, rfl, by simp, .nothing s, .inr (.inr ⟨label, labels, rfl, blank, rfl⟩)⟩
    | false =>
      have first := s.sends_labelIndex server label
      rw [ofIndex_of_not_blank blank, submit]
      cases answer : (s.send server (.labelIndex label)).1.succeeded with
      | false =>
        simp only [checkDone, answer]
        exact ⟨[label], labels, rfl, by simpa using blank, first, .inr (.inl rfl)⟩
      | true =>
        simp only [checkDone, answer]
        obtain ⟨sent, unsent, same, named, sends, ended⟩ := ih (s.send server (.labelIndex label)).2
        refine ⟨label :: sent, unsent, by rw [same, List.cons_append], ?_, ?_, ended⟩
        · exact List.forall_mem_cons.mpr ⟨blank, named⟩
        · exact first.trans sends

end Client

/-- **Labels stay inside their quotes.** Quoting fails on blank labels only. What it makes of any other label is read back as
this label and ends with it, unless one more backtick follows. So whatever the labels of a row are, the text for the row is
read as the same words, marks and parameters, with these labels as the identifiers among them; and where a label is blank
nothing is sent. -/
theorem labels_stay_quoted :
    (∀ label : String,
      ((∃ cause, quoteLabel label = .error cause) ↔ ∀ c ∈ label.toList, Text.isBlank c = true) ∧
        ∀ text, quoteLabel label = .ok text → ∀ rest : List Char, rest.head? ≠ some backtick →
          readIdentifier (text.toList ++ rest) = some (label, rest)) ∧
      ∀ (δ : Type) (server : Server δ) (s : Session δ),
        (∀ row : NodeRow, s.Sends ((Client.store server).upsertNode s row).state
          (if Text.isAllBlank row.label then [] else [(nodeText row.label, nodeTokens row.label)])) ∧
        (∀ row : EdgeRow, s.Sends ((Client.store server).upsertEdge s row).state
          (if Text.isAllBlank row.sourceLabel || Text.isAllBlank row.targetLabel || Text.isAllBlank row.label then []
           else [(edgeText row.sourceLabel row.targetLabel row.label,
             edgeTokens row.sourceLabel row.targetLabel row.label)])) ∧
        ∀ labels : List String,
          let answer := (Client.store server).ensureIndexes s labels
          ∃ sent unsent, labels = sent ++ unsent ∧ (∀ label ∈ sent, Text.isAllBlank label = false) ∧
            s.Sends answer.state (sent.map fun label => (indexText label, indexTokens label)) ∧
            (answer.result = .ok () ∧ unsent = [] ∨ answer.result = .error .database ∨
              ∃ label rest, unsent = label :: rest ∧ Text.isAllBlank label = true ∧
                answer.result = .error (.invalidLabel label)) := by
  constructor
  · intro label
    refine ⟨quoteLabel_eq_error_iff, ?_⟩
    intro text quotes rest follows
    rw [eq_quoted_of_quoteLabel quotes]
    exact readIdentifier_quoted label follows
  · intro δ server s
    exact ⟨Client.sends_upsertNode server s, Client.sends_upsertEdge server s, Client.sends_ensureIndexes server s⟩

theorem labels_stay_quoted_ticks :
    quoteLabel "\x60a\x60\x60" = .ok "\x60\x60\x60a\x60\x60\x60\x60\x60" ∧ [')'].head? ≠ some backtick ∧
      readIdentifier ("\x60\x60\x60a\x60\x60\x60\x60\x60".toList ++ [')']) = some ("\x60a\x60\x60", [')']) := by
  have quotes : quoteLabel "\x60a\x60\x60" = .ok "\x60\x60\x60a\x60\x60\x60\x60\x60" := by decide
  exact ⟨quotes, by decide, (labels_stay_quoted.1 _).2 _ quotes _ (by decide)⟩

end ProgramGraph.Cypher
