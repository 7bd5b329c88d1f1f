import Mathlib.Data.List.Nodup
import ProgramGraph.Proofs.Cypher.Meaning

/-!
# ProgramGraph.Proofs.Cypher.Execution

What the statements do in a graph database.

* `mergeSet` — the clauses `MERGE` and `SET` together, on the nodes as on the edges: `foldl_modify_matchOrMake`.
* `inTurn_merge` — the same as work on a database.
* `Database.answer_mergeNode`, `answer_mergeEdge`, `answer_labelIndex` — the answer to each statement, and the database after
  it.
-/

namespace ProgramGraph.Cypher

open ProgramGraph.Graph Store

/-! ## Merging by places -/

section

variable {α : Type} {test : α → Bool} {fresh : α} {change : α → α} {l : List α}

/-- `MERGE` with `SET`: change whatever passes a test, and make something fresh to change if nothing does. -/
def mergeSet (test : α → Bool) (fresh : α) (change : α → α) (l : List α) : List α :=
  (if l.any test then l else l ++ [fresh]).map fun a => if test a then change a else a

theorem mem_placesOf {i : Nat} : i ∈ placesOf test l ↔ l[i]?.any test = true := by
  rw [placesOf, List.mem_filter, List.mem_range, and_iff_right_iff_imp]
  intro passed
  obtain ⟨a, found, _⟩ := (Option.any_eq_true test l[i]?).mp passed
  exact (List.getElem?_eq_some_iff.mp found).1

/-- Places that are different from each other are each changed once. -/
theorem getElem?_foldl_modify {places : List Nat} (different : places.Nodup) (l : List α) (i : Nat) :
    (places.foldl (fun l place => l.modify place change) l)[i]? = if i ∈ places then l[i]?.map change else l[i]? := by
  induction places generalizing l with
  | nil => simp
  | cons place places ih =>
    obtain ⟨unlisted, different⟩ := List.nodup_cons.mp different
    rw [List.foldl_cons, ih different, List.getElem?_modify]
    by_cases same : place = i
    · subst same
      simp [unlisted]
    · simp [same, Ne.symm same]

theorem foldl_modify_placesOf (test : α → Bool) (change : α → α) (l : List α) :
    (placesOf test l).foldl (fun l place => l.modify place change) l = l.map fun a => if test a then change a else a := by
  apply List.ext_getElem?
  intro i
  have different : (placesOf test l).Nodup := List.nodup_range.filter _
  rw [getElem?_foldl_modify different, List.getElem?_map, if_congr mem_placesOf rfl rfl]
  cases l[i]? with
  | none => rfl
  | some a =>
    rw [Option.any_some, Option.map_some, Option.map_some, apply_ite some]

/-- Setting what `MERGE` found or made. -/
theorem foldl_modify_matchOrMake (test_fresh : test fresh = true) (change : α → α) (l : List α) :
    (matchOrMake test fresh l).1.foldl (fun l place => l.modify place change) (matchOrMake test fresh l).2 =
      mergeSet test fresh change l := by
  rw [matchOrMake, mergeSet]
  split
  · exact foldl_modify_placesOf test change l
  · next none_passes =>
    have unchanged : (l.map fun a => if test a then change a else a) = l := by
      rw [Bool.not_eq_true, List.any_eq_false] at none_passes
      rw [List.map_congr_left fun a ha => if_neg (none_passes a ha), List.map_id']
    rw [List.map_append, unchanged, List.map_singleton, if_pos test_fresh]
    simp [List.modify_eq_set_getElem?]

end

/-! ## Work -/

theorem lift_eq {α : Type} {x : Option α} {a : α} (h : x = some a) (db : Database) :
    (liftM x : Work α) db = some (a, db) := by
  rw [h]
  rfl

section

variable {work : Row → Work (List Row)} {later : List (Row → Work (List Row))} {rows next : List Row} {db db' : Database}

theorem onRows_singleton (work : Row → Work (List Row)) (row : Row) (db : Database) :
    onRows work [row] db = work row db := by
  simp [onRows]

theorem inTurn_cons (h : onRows work rows db = some (next, db')) :
    inTurn (work :: later) rows db = inTurn later next db' :=
  bind_eq h _

theorem inTurn_cons_singleton {row : Row} (h : work row db = some (next, db')) :
    inTurn (work :: later) [row] db = inTurn later next db' :=
  inTurn_cons ((onRows_singleton work row db).trans h)

/-- Work on rows for some places that changes what is in each place. -/
theorem onRows_map {rowOf : Nat → Row} {change : Database → Nat → Database}
    (h : ∀ place db, work (rowOf place) db = some ([rowOf place], change db place)) (places : List Nat) (db : Database) :
    onRows work (places.map rowOf) db = some (places.map rowOf, places.foldl change db) := by
  induction places generalizing db with
  | nil => rfl
  | cons place places ih =>
    rw [List.map_cons, onRows, bind_eq (h place db), bind_eq (ih (change db place))]
    rfl

/-- `MERGE` for one row, and `SET` on all that it gives. -/
theorem inTurn_merge {merge add : Row → Work (List Row)} {row : Row} {places : List Nat} {rowOf : Nat → Row}
    {change : Database → Nat → Database} (made : merge row db = some (places.map rowOf, db'))
    (added : ∀ place db, add (rowOf place) db = some ([rowOf place], change db place)) :
    inTurn [merge, add] [row] db = some (places.map rowOf, places.foldl change db') := by
  rw [inTurn_cons_singleton made, inTurn_cons (onRows_map added places db')]
  rfl

end

def Binding.ofPlace : Option Nat → Binding
  | none => .null
  | some place => .node place

theorem optionalRows_toList (row : Row) (name : String) (place : Option Nat) :
    optionalRows row name place.toList = [(name, .ofPlace place) :: row] := by
  cases place with
  | none => rfl
  | some place => rfl

/-! ## What the clauses do -/

namespace Database

def mergeNode (db : Database) (label property value : String) (entries : List (String × Value)) : Database :=
  { db with
    nodes := mergeSet (StoredNode.fits label property value) (.make label property value)
      (fun n => { n with values := n.values.add entries }) db.nodes }

def mergeEdge (db : Database) (source target : Nat) (label : String) (entries : List (String × Value)) : Database :=
  { db with
    edges := mergeSet (StoredEdge.fits source target label) ⟨source, target, label, ∅⟩
      (fun e => { e with values := e.values.add entries }) db.edges }

/-- Merge an edge between two ends, if both are there. -/
def mergeBetween (db : Database) (source target : Option Nat) (label : String) (entries : List (String × Value)) : Database :=
  match source, target with
  | some i, some j => db.mergeEdge i j label entries
  | _, _ => db

theorem foldl_addToNode (entries : List (String × Value)) (places : List Nat) (nodes : List StoredNode)
    (edges : List StoredEdge) :
    places.foldl (addToNode entries) ⟨nodes, edges⟩ =
      ⟨places.foldl (fun l place => l.modify place fun n => { n with values := n.values.add entries }) nodes, edges⟩ :=
  List.foldl_hom (Database.mk · edges) fun _ _ => rfl

theorem foldl_addToEdge (entries : List (String × Value)) (places : List Nat) (nodes : List StoredNode)
    (edges : List StoredEdge) :
    places.foldl (addToEdge entries) ⟨nodes, edges⟩ =
      ⟨nodes, places.foldl (fun l place => l.modify place fun e => { e with values := e.values.add entries }) edges⟩ :=
  List.foldl_hom (Database.mk nodes) fun _ _ => rfl

theorem run_mergeNode {q : Query} {pattern : NodePattern} {value parameter : String} {entries : List (String × Value)}
    (db : Database) {row : Row} (new : row.checkNew pattern.name = some ())
    (given : q.textOf pattern.parameter = some value) (set : q.valuesOf parameter = some entries) :
    ∃ rows, inTurn ([.mergeNode pattern, .add pattern.name parameter].map fun change r => Update.run q r change) [row] db =
      some (rows, db.mergeNode pattern.label pattern.property value entries) := by
  let made := matchOrMake (StoredNode.fits pattern.label pattern.property value)
    (.make pattern.label pattern.property value) db.nodes
  refine ⟨made.1.map fun place => (pattern.name, .node place) :: row, ?_⟩
  have changed : made.1.foldl (addToNode entries) ⟨made.2, db.edges⟩ =
      db.mergeNode pattern.label pattern.property value entries := by
    rw [foldl_addToNode, mergeNode, foldl_modify_matchOrMake]
    simp [StoredNode.fits, StoredNode.make]
  rw [← changed]
  refine inTurn_merge ?_ ?_
  · show Update.run q row (.mergeNode pattern) db = _
    rw [Update.run, bind_eq (lift_eq new db), bind_eq (lift_eq given db)]
    rfl
  · intro place db
    show Update.run q ((pattern.name, .node place) :: row) (.add pattern.name parameter) db = _
    rw [Update.run, bind_eq (lift_eq set db), List.lookup_cons_self]
    rfl

theorem run_mergeEdge {q : Query} {source name label target parameter : String} {entries : List (String × Value)} {i j : Nat}
    (db : Database) {row : Row} (new : row.checkNew name = some ()) (start : row.node source = some i)
    (stop : row.node target = some j) (set : q.valuesOf parameter = some entries) :
    ∃ rows, inTurn ([.mergeEdge source name label target, .add name parameter].map fun change r => Update.run q r change)
        [row] db = some (rows, db.mergeEdge i j label entries) := by
  let made := matchOrMake (StoredEdge.fits i j label) ⟨i, j, label, ∅⟩ db.edges
  refine ⟨made.1.map fun place => (name, .edge place) :: row, ?_⟩
  have changed : made.1.foldl (addToEdge entries) ⟨db.nodes, made.2⟩ = db.mergeEdge i j label entries := by
    rw [foldl_addToEdge, mergeEdge, foldl_modify_matchOrMake]
    simp [StoredEdge.fits]
  rw [← changed]
  refine inTurn_merge ?_ ?_
  · show Update.run q row (.mergeEdge source name label target) db = _
    rw [Update.run, bind_eq (lift_eq new db), bind_eq (lift_eq start db), bind_eq (lift_eq stop db)]
    rfl
  · intro place db
    show Update.run q ((name, .edge place) :: row) (.add name parameter) db = _
    rw [Update.run, bind_eq (lift_eq set db), List.lookup_cons_self]
    rfl

/-- An optional pattern that is matched once at most. -/
theorem run_optionalMatch {q : Query} {row : Row} {pattern : NodePattern} {value : String} {place : Option Nat} {db : Database}
    (new : row.checkNew pattern.name = some ()) (given : q.textOf pattern.parameter = some value)
    (found : db.places pattern.label pattern.property value = place.toList) :
    Clause.run q row (.optionalMatch pattern) db = some ([(pattern.name, .ofPlace place) :: row], db) := by
  rw [Clause.run, bind_eq (lift_eq new db), bind_eq (lift_eq given db), ← optionalRows_toList, ← found]
  rfl

/-- The body of a loop over one item is run once. -/
theorem run_forEach_singleton {q : Query} {row : Row} {name item : String} {present others : List String}
    {updates : List Update} {db db' : Database} (new : row.checkNew name = some ())
    (there : row.allPresent present = some true)
    (ran : ∃ rows, inTurn (updates.map fun change row => change.run q row) [(name, .item item) :: row] db =
      some (rows, db')) :
    Clause.run q row (.forEach name present [item] others updates) db = some ([row], db') := by
  obtain ⟨rows, ran⟩ := ran
  rw [Clause.run, bind_eq (lift_eq new db), bind_eq (lift_eq there db), if_pos rfl]
  exact bind_eq (bind_eq ran _) _

/-! ## What the statements do -/

theorem answer_of_run {q : Query} {tokens : List Token} {directive : Directive} {reply : Reply} {db db' : Database}
    (lexed : lex q.text = some tokens) (parsed : parse tokens = some directive)
    (run : directive.run q db = some (reply, db')) : db.answer q = (reply, db') := by
  rw [answer, lexed, Option.bind_some, parsed]
  simp only [run, Option.getD_some]

theorem run_sequence {q : Query} {clauses : List Clause} {columns : List (String × String)} {rows : List Row}
    {reply : Reply} {db db' : Database}
    (ran : inTurn (clauses.map fun clause row => clause.run q row) [[]] db = some (rows, db'))
    (read : firstRow columns rows = some reply) :
    (Directive.sequence clauses columns).run q db = some (reply, db') := by
  rw [Directive.run, bind_eq ran, lift_eq read]

theorem answer_labelIndex (db : Database) (label : String) :
    db.answer (Statement.labelIndex label).query = (.noRow, db) :=
  answer_of_run (lex_labelIndex label) (parse_indexTokens label) rfl

theorem answer_mergeNode (db : Database) (row : NodeRow) :
    db.answer (Statement.mergeNode row).query =
      (.noRow, db.mergeNode row.label "id" row.id (bagValues row.properties)) := by
  let pattern : NodePattern := ⟨"n", row.label, "id", "id"⟩
  obtain ⟨rows, ran⟩ : ∃ rows, inTurn ([.mergeNode pattern, .add "n" "props"].map fun change r =>
      Update.run (Statement.mergeNode row).query r change) [[]] db = some (rows, _) :=
    run_mergeNode db rfl rfl rfl
  exact answer_of_run (lex_mergeNode row) (parse_nodeTokens row.label) (run_sequence ran rfl)

/-- A relationship between ends that are matched once at most. -/
theorem answer_mergeEdge {db : Database} {row : EdgeRow} {source target : Option Nat}
    (sources : db.places row.sourceLabel "id" row.sourceId = source.toList)
    (targets : db.places row.targetLabel "id" row.targetId = target.toList) :
    db.answer (Statement.mergeEdge row).query =
      (.row [("source_found", some source.isSome), ("target_found", some target.isSome)],
        db.mergeBetween source target row.label (bagValues row.properties)) := by
  let q := (Statement.mergeEdge row).query
  let before : Row := [("a", .ofPlace source)]
  let after : Row := ("b", .ofPlace target) :: before
  have findSource : Clause.run q [] (.optionalMatch ⟨"a", row.sourceLabel, "id", "source_id"⟩) db = some ([before], db) :=
    run_optionalMatch rfl rfl sources
  have findTarget : Clause.run q before (.optionalMatch ⟨"b", row.targetLabel, "id", "target_id"⟩) db = some ([after], db) :=
    run_optionalMatch rfl rfl targets
  have write : Clause.run q after
      (.forEach "_" ["a", "b"] ["1"] [] [.mergeEdge "a" "r" row.label "b", .add "r" "props"]) db =
      some ([after], db.mergeBetween source target row.label (bagValues row.properties)) := by
    cases source with
    | none => rfl
    | some i =>
      cases target with
      | none => rfl
      | some j =>
        exact run_forEach_singleton rfl rfl (run_mergeEdge db rfl rfl rfl rfl)
  have ran : inTurn [fun r => Clause.run q r (.optionalMatch ⟨"a", row.sourceLabel, "id", "source_id"⟩),
      fun r => Clause.run q r (.optionalMatch ⟨"b", row.targetLabel, "id", "target_id"⟩),
      fun r => Clause.run q r
        (.forEach "_" ["a", "b"] ["1"] [] [.mergeEdge "a" "r" row.label "b", .add "r" "props"])] [[]] db =
      some ([after], db.mergeBetween source target row.label (bagValues row.properties)) := by
    rw [inTurn_cons_singleton findSource, inTurn_cons_singleton findTarget, inTurn_cons_singleton write]
    rfl
  refine answer_of_run (lex_mergeEdge row) (parse_edgeTokens _ _ _) (run_sequence ran ?_)
  cases source with
  | none => cases target <;> rfl
  | some i => cases target <;> rfl

end Database

end ProgramGraph.Cypher
