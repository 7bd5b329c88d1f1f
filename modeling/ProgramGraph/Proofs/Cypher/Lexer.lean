import ProgramGraph.Cypher.Statement

/-!
# ProgramGraph.Proofs.Cypher.Lexer

Texts as a database reads them.

* `readQuoted`, `readIdentifier` — the rule for quoted identifiers: two backticks stand for one, and one that no other one
  follows closes the identifier.
* `cut`         — a text cut at its quoted identifiers.
* `Alternating` — pieces that can be told apart again: `cut_text` reads them back from their text.
* `plainTokens` — the words, parameters and marks between quoted identifiers. There is no rule for comments and for literal
  texts: where one begins, a text cannot be read.
* `lex`         — the tokens of a text, and `nodeTokens`, `edgeTokens`, `indexTokens` those of the statements.
-/

namespace ProgramGraph.Cypher

open Store

/-! ## Quoted identifiers -/

/-- What stands in an identifier whose opening backtick has been read, and the text after it. -/
def readQuoted : List Char → Option (List Char × List Char)
  | [] => none
  | [c] => if c = backtick then some ([], []) else none
  | c :: d :: rest =>
    if c = backtick then
      if d = backtick then (readQuoted rest).map fun p => (backtick :: p.1, p.2)
      else some ([], d :: rest)
    else (readQuoted (d :: rest)).map fun p => (c :: p.1, p.2)

/-- The quoted identifier at the beginning of a text, and the text after it. -/
def readIdentifier : List Char → Option (String × List Char)
  | [] => none
  | c :: rest => if c = backtick then (readQuoted rest).map fun p => (String.ofList p.1, p.2) else none

theorem readQuoted_cons_of_ne {c : Char} (h : c ≠ backtick) (rest : List Char) :
    readQuoted (c :: rest) = (readQuoted rest).map fun p => (c :: p.1, p.2) := by
  cases rest with
  | nil => simp [readQuoted, h]
  | cons d rest => simp [readQuoted, h]

theorem readQuoted_backtick {rest : List Char} (h : rest.head? ≠ some backtick) :
    readQuoted (backtick :: rest) = some ([], rest) := by
  cases rest with
  | nil => simp [readQuoted]
  | cons d rest =>
    have other : d ≠ backtick := by
      rintro rfl
      exact h rfl
    simp [readQuoted, other]

theorem length_of_readQuoted {text name rest : List Char} (h : readQuoted text = some (name, rest)) :
    rest.length < text.length := by
  induction text using readQuoted.induct generalizing name with
  | case1 => cases h
  | case2 =>
    simp [readQuoted] at h
    simp [h.2]
  | case3 c other => simp [readQuoted, other] at h
  | case4 rest' ih =>
    simp only [readQuoted, if_true, Option.map_eq_some_iff] at h
    obtain ⟨p, hp, same⟩ := h
    cases same
    have shorter := ih hp
    simp only [List.length_cons]
    omega
  | case5 d rest' other =>
    simp [readQuoted, other] at h
    simp [← h.2]
  | case6 c d rest' other ih =>
    rw [readQuoted_cons_of_ne other, Option.map_eq_some_iff] at h
    obtain ⟨p, hp, same⟩ := h
    cases same
    have shorter := ih hp
    simp only [List.length_cons] at shorter ⊢
    omega

/-- By induction on the label: a backtick in it is written twice, so the first one that stands alone is the closing one. -/
theorem readQuoted_flatMap_escapeTick (label : List Char) {rest : List Char} (h : rest.head? ≠ some backtick) :
    readQuoted (label.flatMap escapeTick ++ backtick :: rest) = some (label, rest) := by
  induction label with
  | nil => exact readQuoted_backtick h
  | cons c label ih =>
    rw [List.flatMap_cons, List.append_assoc]
    by_cases tick : c = backtick
    · subst tick
      rw [escapeTick, if_pos rfl]
      simp [readQuoted, ih]
    · rw [escapeTick, if_neg tick, List.singleton_append, readQuoted_cons_of_ne tick, ih, Option.map_some]

theorem readIdentifier_quoted (label : String) {rest : List Char} (h : rest.head? ≠ some backtick) :
    readIdentifier ((quoted label).toList ++ rest) = some (label, rest) := by
  have text : (quoted label).toList ++ rest = backtick :: (label.toList.flatMap escapeTick ++ backtick :: rest) := by
    simp [quoted, quotedChars]
  rw [text, readIdentifier, if_pos rfl, readQuoted_flatMap_escapeTick _ h, Option.map_some, String.ofList_toList]

/-! ## Whole texts -/

/-- A text cut at its quoted identifiers; `none` when the last one is not closed. -/
def cut (text : List Char) : Option (List Piece) :=
  match text with
  | [] => some []
  | c :: rest =>
    if c = backtick then
      match _h : readQuoted rest with
      | none => none
      | some (name, after) => (cut after).map (.label (String.ofList name) :: ·)
    else
      (cut (rest.dropWhile (· ≠ backtick))).map (.fixed (String.ofList (c :: rest.takeWhile (· ≠ backtick))) :: ·)
termination_by text.length
decreasing_by
  · have shorter := length_of_readQuoted _h
    simp only [List.length_cons]
    omega
  · have shorter := (List.dropWhile_sublist (· ≠ backtick) (l := rest)).length_le
    simp only [List.length_cons]
    omega

namespace Piece

def isLabel : Piece → Bool
  | .fixed _ => false
  | .label _ => true

/-- A fixed piece holds something, and no backtick. -/
def isPlain : Piece → Bool
  | .fixed s => s ≠ "" && backtick ∉ s.toList
  | .label _ => true

end Piece

/-- Fixed texts and labels in turn. -/
def Alternating : List Piece → Prop
  | [] => True
  | p :: rest => p.isPlain = true ∧ (∀ q ∈ rest.head?, q.isLabel = !p.isLabel) ∧ Alternating rest

/-- The characters of some pieces one after the other. -/
def charsOf (pieces : List Piece) : List Char :=
  pieces.flatMap fun p => p.text.toList

theorem cut_quoted (label : String) {rest : List Char} (h : rest.head? ≠ some backtick) :
    cut ((quoted label).toList ++ rest) = (cut rest).map (.label label :: ·) := by
  have text : (quoted label).toList ++ rest = backtick :: (label.toList.flatMap escapeTick ++ backtick :: rest) := by
    simp [quoted, quotedChars]
  rw [text, cut, if_pos rfl]
  split
  · next unread => simp [readQuoted_flatMap_escapeTick _ h] at unread
  · next name after read =>
    rw [readQuoted_flatMap_escapeTick _ h] at read
    cases read
    rw [String.ofList_toList]

/-- A fixed piece ends where the text ends or a label begins. -/
theorem cut_fixed {s : String} (plain : (Piece.fixed s).isPlain = true) {rest : List Char}
    (h : rest = [] ∨ rest.head? = some backtick) : cut (s.toList ++ rest) = (cut rest).map (.fixed s :: ·) := by
  have stops : rest.takeWhile (· ≠ backtick) = [] ∧ rest.dropWhile (· ≠ backtick) = rest := by
    rcases h with rfl | h
    · exact ⟨rfl, rfl⟩
    · cases rest with
      | nil => exact ⟨rfl, rfl⟩
      | cons c rest =>
        cases h
        exact ⟨by simp, by simp⟩
  cases hs : s.toList with
  | nil => simp [Piece.isPlain, String.toList_eq_nil_iff.mp hs] at plain
  | cons c cs =>
    have other : c ≠ backtick ∧ ∀ d ∈ cs, (decide (d ≠ backtick)) = true := by
      simp only [Piece.isPlain, hs, Bool.and_eq_true, decide_eq_true_iff, List.mem_cons, not_or] at plain
      refine ⟨Ne.symm plain.2.1, fun d hd => decide_eq_true ?_⟩
      rintro rfl
      exact plain.2.2 hd
    rw [List.cons_append, cut, if_neg other.1, List.takeWhile_append_of_pos other.2, List.dropWhile_append_of_pos other.2,
      stops.1, stops.2, List.append_nil, ← hs, String.ofList_toList]

theorem head?_charsOf_label (name : String) (pieces : List Piece) :
    (charsOf (.label name :: pieces)).head? = some backtick := by
  simp [charsOf, Piece.text, quoted, quotedChars]

theorem head?_charsOf_fixed {s : String} (plain : (Piece.fixed s).isPlain = true) (pieces : List Piece) :
    (charsOf (.fixed s :: pieces)).head? ≠ some backtick := by
  rw [charsOf, List.flatMap_cons, Piece.text]
  cases hs : s.toList with
  | nil => simp [Piece.isPlain, String.toList_eq_nil_iff.mp hs] at plain
  | cons c cs =>
    simp only [Piece.isPlain, hs, Bool.and_eq_true, decide_eq_true_iff, List.mem_cons, not_or] at plain
    simpa using Ne.symm plain.2.1

/-- Pieces are read back from their text. -/
theorem cut_charsOf {pieces : List Piece} (h : Alternating pieces) : cut (charsOf pieces) = some pieces := by
  induction pieces with
  | nil => simp [charsOf, cut]
  | cons p pieces ih =>
    obtain ⟨plain, next, later⟩ := h
    rw [charsOf, List.flatMap_cons, ← charsOf]
    cases p with
    | fixed s =>
      have stops : charsOf pieces = [] ∨ (charsOf pieces).head? = some backtick := by
        cases pieces with
        | nil => exact .inl rfl
        | cons q pieces =>
          cases q with
          | fixed s' => cases next _ rfl
          | label name => exact .inr (head?_charsOf_label name pieces)
      rw [Piece.text, cut_fixed plain stops, ih later, Option.map_some]
    | label name =>
      have closes : (charsOf pieces).head? ≠ some backtick := by
        cases pieces with
        | nil => simp [charsOf]
        | cons q pieces =>
          cases q with
          | fixed s => exact head?_charsOf_fixed later.1 pieces
          | label name' => cases next _ rfl
      rw [Piece.text, cut_quoted name closes, ih later, Option.map_some]

theorem toList_text (s : Statement) : s.text.toList = charsOf s.template := by
  have append : ∀ (pieces : List Piece) (sofar : String),
      (pieces.foldl (fun sofar piece => sofar ++ piece.text) sofar).toList = sofar.toList ++ charsOf pieces := by
    intro pieces
    induction pieces with
    | nil => simp [charsOf]
    | cons p pieces ih =>
      intro sofar
      rw [List.foldl_cons, ih, String.toList_append, List.append_assoc]
      rfl
  exact append s.template ""

theorem isPlain_fixed_ofList {cs : List Char} (h : cs ≠ [] ∧ backtick ∉ cs) :
    (Piece.fixed (String.ofList cs)).isPlain = true := by
  simp [Piece.isPlain, String.toList_ofList, h.2, ← String.toList_eq_nil_iff, h.1]

set_option maxRecDepth 2000 in
theorem alternating_template (s : Statement) : Alternating s.template := by
  cases s with
  | runIndex => exact ⟨isPlain_fixed_ofList (by decide), by simp, trivial⟩
  | mergeNode row =>
    refine ⟨isPlain_fixed_ofList (by decide), ?_, rfl, ?_, isPlain_fixed_ofList (by decide), ?_, trivial⟩
    all_goals simp [Piece.isLabel]
  | mergeEdge row =>
    refine ⟨isPlain_fixed_ofList (by decide), ?_, rfl, ?_, isPlain_fixed_ofList (by decide), ?_, rfl, ?_,
      isPlain_fixed_ofList (by decide), ?_, rfl, ?_, isPlain_fixed_ofList (by decide), ?_, trivial⟩
    all_goals simp [Piece.isLabel]
  | labelIndex label =>
    refine ⟨isPlain_fixed_ofList (by decide), ?_, rfl, ?_, isPlain_fixed_ofList (by decide), ?_, trivial⟩
    all_goals simp [Piece.isLabel]

/-- A statement is read as its template. -/
theorem cut_text (s : Statement) : cut s.text.toList = some s.template := by
  rw [toList_text, cut_charsOf (alternating_template s)]

/-! ## Tokens -/

inductive Token where
  /-- A word or a mark. -/
  | plain (text : String)
  /-- An identifier between backticks. -/
  | quoted (name : String)
  | parameter (name : String)
  deriving DecidableEq, Repr

def isWordPart (c : Char) : Bool :=
  c.isAlphanum || c = '_'

def marks : List String :=
  ["(", ")", "[", "]", "\x7b", "\x7d", ":", ".", ",", "|", "-", "->", "+="]

/-- Whether a character goes on with the token of the character before it. -/
def joined (before c : Char) : Bool :=
  (isWordPart before || before = '$') && isWordPart c || String.ofList [before, c] ∈ marks

namespace Token

/-- The token of some joined characters, if they make one; blank characters make none and are left out. -/
def ofGroup : List Char → Option (List Token)
  | ['$'] => none
  | '$' :: name => some [.parameter (String.ofList name)]
  | group =>
    if group.all Char.isWhitespace then some []
    else if group.all isWordPart || String.ofList group ∈ marks then some [.plain (String.ofList group)]
    else none

end Token

/-- The tokens of a text without quoted identifiers. -/
def plainTokens (text : String) : Option (List Token) :=
  ((text.toList.splitBy joined).mapM Token.ofGroup).map List.flatten

def Piece.tokens : Piece → Option (List Token)
  | .fixed text => plainTokens text
  | .label name => some [.quoted name]

/-- The tokens of a text. -/
def lex (text : String) : Option (List Token) :=
  ((cut text.toList).bind fun pieces => pieces.mapM Piece.tokens).map List.flatten

/-- There is no reading on after the beginning of a comment. -/
example : plainTokens "// MERGE (n:" = none := by decide +kernel

/-! ## The tokens of the statements -/

/-- Words and marks. -/
def plain (texts : List String) : List Token :=
  texts.map .plain

/-- A node that has a label and an id. -/
def patternTokens (name label parameter : String) : List Token :=
  plain ["(", name, ":"] ++ [.quoted label] ++ plain ["\x7b", "id", ":"] ++ [.parameter parameter] ++ plain ["\x7d", ")"]

def nodeTokens (label : String) : List Token :=
  plain ["MERGE"] ++ patternTokens "n" label "id" ++ plain ["SET", "n", "+="] ++ [.parameter "props"]

def matchTokens (name label parameter : String) : List Token :=
  plain ["OPTIONAL", "MATCH"] ++ patternTokens name label parameter

/-- The loop that is run once if both ends were found, and not at all otherwise. -/
def loopTokens (label : String) : List Token :=
  plain ["FOREACH", "(", "_", "IN"] ++
    plain ["CASE", "WHEN", "a", "IS", "NOT", "NULL", "AND", "b", "IS", "NOT", "NULL"] ++
    plain ["THEN", "[", "1", "]", "ELSE", "[", "]", "END", "|"] ++
    plain ["MERGE", "(", "a", ")", "-", "[", "r", ":"] ++ [.quoted label] ++ plain ["]", "->", "(", "b", ")"] ++
    plain ["SET", "r", "+="] ++ [.parameter "props"] ++
  plain [")"]

def returnTokens : List Token :=
  plain ["RETURN", "a", "IS", "NOT", "NULL", "AS", "source_found", ","] ++
    plain ["b", "IS", "NOT", "NULL", "AS", "target_found"]

def edgeTokens (source target label : String) : List Token :=
  matchTokens "a" source "source_id" ++ (matchTokens "b" target "target_id" ++ (loopTokens label ++ returnTokens))

def indexTokens (label : String) : List Token :=
  plain ["CREATE", "INDEX", "IF", "NOT", "EXISTS", "FOR", "(", "n", ":"] ++ [.quoted label] ++
  plain [")", "ON", "(", "n", ".", "id", ")"]

/-- A statement is read piece by piece. -/
theorem lex_text (s : Statement) : lex s.text = (s.template.mapM Piece.tokens).map List.flatten := by
  rw [lex, cut_text, Option.bind_some]

theorem lex_mergeNode (row : NodeRow) : lex (Statement.mergeNode row).text = some (nodeTokens row.label) := by
  have before : plainTokens "\n            MERGE (n:" = some (plain ["MERGE", "(", "n", ":"]) := by
    decide +kernel
  have after : plainTokens " \x7bid: $id\x7d)\n            SET n += $props\n            " =
      some (plain ["\x7b", "id", ":"] ++ [.parameter "id"] ++ plain ["\x7d", ")", "SET", "n", "+="] ++ [.parameter "props"]) := by
    decide +kernel
  rw [lex_text, Statement.template]
  simp [Piece.tokens, before, after, nodeTokens, patternTokens, plain]

theorem lex_labelIndex (label : String) : lex (Statement.labelIndex label).text = some (indexTokens label) := by
  have before : plainTokens "CREATE INDEX IF NOT EXISTS FOR (n:" =
      some (plain ["CREATE", "INDEX", "IF", "NOT", "EXISTS", "FOR", "(", "n", ":"]) := by
    decide +kernel
  have after : plainTokens ") ON (n.id)" = some (plain [")", "ON", "(", "n", ".", "id", ")"]) := by
    decide +kernel
  rw [lex_text, Statement.template]
  simp [Piece.tokens, before, after, indexTokens]

theorem lex_mergeEdge (row : EdgeRow) :
    lex (Statement.mergeEdge row).text = some (edgeTokens row.sourceLabel row.targetLabel row.label) := by
  have before : plainTokens "\n            OPTIONAL MATCH (a:" = some (plain ["OPTIONAL", "MATCH", "(", "a", ":"]) := by
    decide +kernel
  have between : plainTokens " \x7bid: $source_id\x7d)\n            OPTIONAL MATCH (b:" =
      some (plain ["\x7b", "id", ":"] ++ [.parameter "source_id"] ++
        plain ["\x7d", ")", "OPTIONAL", "MATCH", "(", "b", ":"]) := by
    decide +kernel
  have between' : plainTokens " \x7bid: $target_id\x7d)\n            FOREACH (_ IN CASE WHEN a IS NOT NULL AND b IS NOT NULL THEN [1] ELSE [] END |\n                MERGE (a)-[r:" =
      some (plain ["\x7b", "id", ":"] ++ [.parameter "target_id"] ++ plain ["\x7d", ")", "FOREACH", "(", "_", "IN"] ++
        plain ["CASE", "WHEN", "a", "IS", "NOT", "NULL", "AND", "b", "IS", "NOT", "NULL"] ++
        plain ["THEN", "[", "1", "]", "ELSE", "[", "]", "END", "|"] ++
        plain ["MERGE", "(", "a", ")", "-", "[", "r", ":"]) := by
    decide +kernel
  have after : plainTokens "]->(b)\n                SET r += $props\n            )\n            RETURN a IS NOT NULL AS source_found, b IS NOT NULL AS target_found\n            " =
      some (plain ["]", "->", "(", "b", ")", "SET", "r", "+="] ++ [.parameter "props"] ++ plain [")"] ++
        plain ["RETURN", "a", "IS", "NOT", "NULL", "AS", "source_found", ","] ++
        plain ["b", "IS", "NOT", "NULL", "AS", "target_found"]) := by
    decide +kernel
  rw [lex_text, Statement.template]
  simp [Piece.tokens, before, between, between', after, edgeTokens, matchTokens, patternTokens, loopTokens, returnTokens, plain]

end ProgramGraph.Cypher
