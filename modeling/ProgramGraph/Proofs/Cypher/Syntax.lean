import ProgramGraph.Proofs.Cypher.Lexer

/-!
# ProgramGraph.Proofs.Cypher.Syntax

What tokens say, in as much of the language as finds and makes nodes and edges.

* `Update`, `Clause`, `Directive` — changes, clauses that are run in turn, and whole texts.
* `Reader`, `many` — reading from the front of some tokens, once or as often as possible.
* `parse`          — what some tokens say; nothing may be left over.
* `parse_nodeTokens`, `parse_edgeTokens`, `parse_indexTokens` — what the statements say.
-/

namespace ProgramGraph.Cypher

/-- `(name:label {property: $parameter})`. -/
structure NodePattern where
  name : String
  label : String
  property : String
  parameter : String

inductive Update where
  /-- `MERGE` of a node. -/
  | mergeNode (pattern : NodePattern)
  /-- `MERGE (source)-[name:label]->(target)`. -/
  | mergeEdge (source name label target : String)
  /-- `SET name += $parameter`. -/
  | add (name parameter : String)

inductive Clause where
  | update (change : Update)
  | optionalMatch (pattern : NodePattern)
  /-- `FOREACH (name IN CASE WHEN .. THEN items ELSE others END | updates)`, where the condition is that some variables are
  not null. -/
  | forEach (name : String) (present items others : List String) (updates : List Update)

inductive Directive where
  /-- Make an index on a property under a label, if there is none. -/
  | index (label property : String)
  /-- Run clauses in turn. Each column of the answer tells whether a variable is not null, and has a name. -/
  | sequence (clauses : List Clause) (columns : List (String × String))

/-- Something read from the front of some tokens. -/
abbrev Reader := StateT (List Token) Option

namespace Reader

/-- Words and marks that have to be there. -/
def expect (texts : List String) : Reader Unit := fun tokens =>
  if (plain texts).isPrefixOf tokens then some ((), tokens.drop texts.length) else none

def word : Reader String
  | .plain text :: rest => if text ∈ marks then none else some (text, rest)
  | _ => none

def identifier : Reader String
  | .quoted name :: rest => some (name, rest)
  | tokens => word tokens

def parameter : Reader String
  | .parameter name :: rest => some (name, rest)
  | _ => none

/-- Something as often as it is there, up to a bound. -/
def upTo {α : Type} (one : Reader α) : Nat → Reader (List α)
  | 0 => pure []
  | bound + 1 =>
    (do
      let first ← one
      let others ← upTo one bound
      return first :: others) <|> pure []

/-- Something as often as it is there. It takes a token or more each time, so the tokens that are there are bound enough. -/
def many {α : Type} (one : Reader α) : Reader (List α) := do
  upTo one (← get).length

/-! ## Clauses -/

def nodePattern : Reader NodePattern := do
  expect ["("]
  let name ← word
  expect [":"]
  let label ← identifier
  expect ["\x7b"]
  let property ← word
  expect [":"]
  let parameter ← parameter
  expect ["\x7d", ")"]
  return { name, label, property, parameter }

def mergeNode : Reader Update := do
  expect ["MERGE"]
  return .mergeNode (← nodePattern)

def mergeEdge : Reader Update := do
  expect ["MERGE", "("]
  let source ← word
  expect [")", "-", "["]
  let name ← word
  expect [":"]
  let label ← identifier
  expect ["]", "->", "("]
  let target ← word
  expect [")"]
  return .mergeEdge source name label target

def add : Reader Update := do
  expect ["SET"]
  let name ← word
  expect ["+="]
  return .add name (← parameter)

def update : Reader Update :=
  mergeNode <|> mergeEdge <|> add

def optionalMatch : Reader Clause := do
  expect ["OPTIONAL", "MATCH"]
  return .optionalMatch (← nodePattern)

/-- A variable that is not null. -/
def present : Reader String := do
  let name ← word
  expect ["IS", "NOT", "NULL"]
  return name

def items : Reader (List String) := do
  expect ["["]
  let items ← many word
  expect ["]"]
  return items

def forEach : Reader Clause := do
  expect ["FOREACH", "("]
  let name ← word
  expect ["IN", "CASE", "WHEN"]
  let first ← present
  let others ← many (expect ["AND"] *> present)
  expect ["THEN"]
  let items ← items
  expect ["ELSE"]
  let otherItems ← Reader.items
  expect ["END", "|"]
  let updates ← many update
  expect [")"]
  return .forEach name (first :: others) items otherItems updates

def clause : Reader Clause :=
  optionalMatch <|> forEach <|> (.update <$> update)

/-! ## Whole texts -/

def column : Reader (String × String) := do
  let name ← present
  expect ["AS"]
  return (name, ← word)

def columns : Reader (List (String × String)) := do
  expect ["RETURN"]
  let first ← column
  let others ← many (expect [","] *> column)
  return first :: others

def clauses : Reader Directive := do
  let clauses ← many clause
  let columns ← columns <|> pure []
  return .sequence clauses columns

def index : Reader Directive := do
  expect ["CREATE", "INDEX", "IF", "NOT", "EXISTS", "FOR", "("]
  let name ← word
  expect [":"]
  let label ← identifier
  expect [")", "ON", "(", name, "."]
  let property ← word
  expect [")"]
  return .index label property

end Reader

/-- What some tokens say. -/
def parse (tokens : List Token) : Option Directive :=
  match (Reader.index <|> Reader.clauses) tokens with
  | some (directive, []) => some directive
  | _ => none

/-! ## What the statements say -/

/-- What comes after something that was done goes on from the state that it left. -/
theorem bind_eq {σ α β : Type} {x : StateT σ Option α} {s s' : σ} {a : α} (h : x s = some (a, s'))
    (f : α → StateT σ Option β) : (x >>= f) s = f a s' :=
  congrArg (Option.bind · fun (p : α × σ) => f p.1 p.2) h

namespace Reader

variable {α : Type} {one other : Reader α} {tokens rest last : List Token} {a : α} {as : List α} {bound : Nat}

theorem orElse_of_none (h : one tokens = none) : (one <|> other) tokens = other tokens :=
  congrArg (Option.orElse · fun _ => other tokens) h

theorem upTo_of_none (h : one tokens = none) : upTo one bound tokens = some ([], tokens) := by
  cases bound with
  | zero => rfl
  | succ bound => exact orElse_of_none (congrArg (Option.bind · _) h)

theorem upTo_of_some (h : one tokens = some (a, rest)) (later : upTo one bound rest = some (as, last)) :
    upTo one (bound + 1) tokens = some (a :: as, last) := by
  have read : (do
      let first ← one
      let others ← upTo one bound
      return first :: others) tokens = some (a :: as, last) := by
    rw [bind_eq h, bind_eq later]
    rfl
  exact congrArg (Option.orElse · _) read

end Reader

theorem parse_indexTokens (label : String) : parse (indexTokens label) = some (.index label "id") := by
  rfl

theorem parse_nodeTokens (label : String) :
    parse (nodeTokens label) =
      some (.sequence [.update (.mergeNode ⟨"n", label, "id", "id"⟩), .update (.add "n" "props")] []) := by
  rfl

theorem parse_edgeTokens (source target label : String) :
    parse (edgeTokens source target label) =
      some (.sequence
        [.optionalMatch ⟨"a", source, "id", "source_id"⟩,
         .optionalMatch ⟨"b", target, "id", "target_id"⟩,
         .forEach "_" ["a", "b"] ["1"] [] [.mergeEdge "a" "r" label "b", .add "r" "props"]]
        [("a", "source_found"), ("b", "target_found")]) := by
  -- each clause is read as it stands, and after the last one there is none
  have clauses : Reader.many Reader.clause (edgeTokens source target label) =
      some ([.optionalMatch ⟨"a", source, "id", "source_id"⟩, .optionalMatch ⟨"b", target, "id", "target_id"⟩,
        .forEach "_" ["a", "b"] ["1"] [] [.mergeEdge "a" "r" label "b", .add "r" "props"]], returnTokens) :=
    Reader.upTo_of_some rfl (Reader.upTo_of_some rfl (Reader.upTo_of_some rfl (Reader.upTo_of_none rfl)))
  have columns : (Reader.columns <|> pure []) returnTokens = some ([("a", "source_found"), ("b", "target_found")], []) := rfl
  have unindexed : Reader.index (edgeTokens source target label) = none := rfl
  rw [parse, Reader.orElse_of_none unindexed, Reader.clauses, bind_eq clauses, bind_eq columns]
  rfl

end ProgramGraph.Cypher
