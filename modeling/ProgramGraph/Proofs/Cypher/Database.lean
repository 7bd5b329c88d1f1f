import Mathlib.Data.List.Nodup
import ProgramGraph.Proofs.Cypher.Execution
import ProgramGraph.Proofs.Graph.Basic
import ProgramGraph.Store.Memory

/-!
# ProgramGraph.Proofs.Cypher.Database

A graph database beside a store in memory.

* `StoredNode.ofEntry` — an entry of the store as a node, with its id among its values; `add_ofEntry`, `SET` on such a node.
* `Database.Holds`     — a database holds the nodes and edges of a store in memory, each once, and nothing else.
* `enlist`, `mergeSet_map` — `MERGE` and `SET` on a list that is made from keys.
-/

namespace ProgramGraph.Cypher

open ProgramGraph.Graph Store

/-- The values of a bag; a reference to an entity is the id of the entity. -/
def Values.ofBag (b : Bag) : Values :=
  b.map fun _ p => Value.ofProperty p

namespace StoredNode

/-- The identity of a node, if its id is a text. -/
def key? (n : StoredNode) : Option NodeKey :=
  match n.values["id"]? with
  | some (.string id) => some ⟨n.label, id⟩
  | _ => none

/-- A row of a store as a node. -/
def ofEntry (k : NodeKey) (b : Bag) : StoredNode :=
  ⟨k.label, (Values.ofBag b).insert "id" (.string k.id)⟩

end StoredNode

namespace Database

def keyAt? (db : Database) (place : Nat) : Option NodeKey :=
  db.nodes[place]?.bind StoredNode.key?

/-- An edge under the identity that its ends give it. -/
def entry? (db : Database) (e : StoredEdge) : Option (EdgeKey × Values) := do
  let source ← db.keyAt? e.source
  let target ← db.keyAt? e.target
  return (⟨source, target, e.label⟩, e.values)

/-- The nodes and edges of a database are exactly those of a store in memory, each once. -/
structure Holds (db : Database) (m : Memory) : Prop where
  nodes : db.nodes.Perm (m.nodes.toList.map fun e => .ofEntry e.1 e.2)
  edges : (db.edges.map db.entry?).Perm (m.edges.toList.map fun e => some (e.1, Values.ofBag e.2))

end Database

/-! ## Values -/

theorem bagValues_eq (b : Bag) : bagValues b = (Values.ofBag b).toList := by
  rw [Values.ofBag, Std.ExtTreeMap.toList_map, bagValues]

/-- Setting values writes them over what is there. -/
theorem Values.getElem?_add_toList (v t : Values) (name : String) :
    (v.add t.toList)[name]? = t[name]?.or v[name]? :=
  getElem?_insertMany_toList v t name

theorem Values.ofBag_merge (a b : Bag) : ofBag (a.merge b) = (ofBag a).add (bagValues b) := by
  apply Std.ExtTreeMap.ext_getElem?
  intro name
  rw [bagValues_eq, getElem?_add_toList, ofBag, ofBag, ofBag, Std.ExtTreeMap.getElem?_map, Std.ExtTreeMap.getElem?_map,
    Std.ExtTreeMap.getElem?_map, Bag.merge, Std.ExtTreeMap.getElem?_union]
  cases (b[name]? : Option Property) <;> rfl

theorem Values.ofBag_empty : ofBag .empty = ∅ := by
  apply Std.ExtTreeMap.ext_getElem?
  intro name
  rw [ofBag, Std.ExtTreeMap.getElem?_map]
  simp [Bag.empty]

/-! ## Nodes under their ids -/

namespace StoredNode

theorem getElem?_id_ofEntry (k : NodeKey) (b : Bag) : (ofEntry k b).values["id"]? = some (.string k.id) :=
  Std.ExtTreeMap.getElem?_insert_self

theorem fits_ofEntry {k : NodeKey} {b : Bag} {label id : String} :
    (ofEntry k b).fits label "id" id = true ↔ k = ⟨label, id⟩ := by
  rw [fits, getElem?_id_ofEntry, Bool.and_eq_true, decide_eq_true_iff, decide_eq_true_iff, Option.some_inj,
    Value.string.injEq]
  cases k
  rw [NodeKey.mk.injEq]
  rfl

theorem key?_ofEntry (k : NodeKey) (b : Bag) : (ofEntry k b).key? = some k := by
  rw [key?, getElem?_id_ofEntry]
  rfl

theorem make_eq (label id : String) : make label "id" id = ofEntry ⟨label, id⟩ .empty := by
  rw [make, ofEntry, Values.ofBag_empty]

/-- Values that do not touch the id are written into the bag. -/
theorem add_ofEntry {k : NodeKey} {b c : Bag} (noId : "id" ∉ c) :
    { ofEntry k b with values := (ofEntry k b).values.add (bagValues c) } = ofEntry k (b.merge c) := by
  suffices values : Values.add ((Values.ofBag b).insert "id" (.string k.id)) (bagValues c) =
      (Values.ofBag (b.merge c)).insert "id" (.string k.id) from congrArg (StoredNode.mk k.label) values
  rw [Values.ofBag_merge]
  apply Std.ExtTreeMap.ext_getElem?
  intro name
  rw [bagValues_eq, Values.getElem?_add_toList, Std.ExtTreeMap.getElem?_insert, Std.ExtTreeMap.getElem?_insert,
    Values.getElem?_add_toList]
  by_cases same : compare "id" name = .eq
  · have none_there : (Values.ofBag c)[name]? = none := by
      rw [← Std.LawfulEqCmp.eq_of_compare same, Values.ofBag, Std.ExtTreeMap.getElem?_map,
        Std.ExtTreeMap.getElem?_eq_none noId, Option.map_none]
    rw [if_pos same, if_pos same, none_there, Option.none_or]
  · rw [if_neg same, if_neg same]

end StoredNode

/-! ## Merging under keys -/

section

variable {κ α : Type} [DecidableEq κ] {keys : List κ} {key k : κ}

/-- Some keys with one more at the end, unless it is among them. -/
def enlist (keys : List κ) (key : κ) : List κ :=
  if key ∈ keys then keys else keys ++ [key]

theorem mem_enlist : k ∈ enlist keys key ↔ k = key ∨ k ∈ keys := by
  rw [enlist]
  split
  · next known => exact ⟨.inr, Or.rec (· ▸ known) id⟩
  · rw [List.mem_append, List.mem_singleton, or_comm]

theorem nodup_enlist (h : keys.Nodup) (key : κ) : (enlist keys key).Nodup := by
  rw [enlist]
  split
  · exact h
  · next unknown => exact List.concat_eq_append ▸ List.Nodup.concat unknown h

theorem idxOf_enlist (h : k ∈ keys) (key : κ) : (enlist keys key).idxOf k = keys.idxOf k := by
  rw [enlist]
  split
  · rfl
  · exact List.idxOf_append_of_mem h

variable {f f' : κ → α} {test : α → Bool} {fresh : α} {change : α → α}

/-- On a list made from keys, where a test singles out one key: what is there for the key is changed in its place, or
something fresh is changed and added for it. -/
theorem mergeSet_map (test_iff : ∀ k ∈ keys, test (f k) = true ↔ k = key) (test_fresh : test fresh = true)
    (changed : key ∈ keys → change (f key) = f' key) (made : key ∉ keys → change fresh = f' key)
    (kept : ∀ k, k ≠ key → f k = f' k) : mergeSet test fresh change (keys.map f) = (enlist keys key).map f' := by
  have any_iff : (keys.map f).any test = true ↔ key ∈ keys := by
    rw [List.any_map, List.any_eq_true]
    constructor
    · rintro ⟨k, hk, passed⟩
      exact (test_iff k hk).mp passed ▸ hk
    · intro known
      exact ⟨key, known, (test_iff key known).mpr rfl⟩
  have changes : (keys.map f).map (fun a => if test a then change a else a) = keys.map f' := by
    rw [List.map_map]
    apply List.map_congr_left
    intro k hk
    by_cases same : k = key
    · rw [Function.comp, if_pos ((test_iff k hk).mpr same), same, changed (same ▸ hk)]
    · rw [Function.comp, if_neg (mt (test_iff k hk).mp same), kept k same]
  by_cases known : key ∈ keys
  · rw [mergeSet, if_pos (any_iff.mpr known), changes, enlist, if_pos known]
  · rw [mergeSet, if_neg (mt any_iff.mp known), List.map_append, changes, List.map_singleton, if_pos test_fresh,
      made known, enlist, if_neg known, List.map_append, List.map_singleton]

end

end ProgramGraph.Cypher
