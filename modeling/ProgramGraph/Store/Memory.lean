import Std.Data.ExtTreeMap
import Std.Data.ExtTreeSet
import ProgramGraph.Store.Basic

/-!
# ProgramGraph.Store.Memory

A store in memory.

* `Memory`       — what is stored: bags under the identities of rows, and the labels with an index.
* `Memory.store` — the store. Rows without a label are refused, and so is every row that names one of the given ids; a
  relationship needs both its ends.
* `Memory.node?`, `Memory.edge?` — what is stored for an entity, or for a relationship between two ids.
-/

namespace ProgramGraph.Store

open ProgramGraph.Graph

/-- What is stored. -/
structure Memory where
  nodes : Std.ExtTreeMap NodeKey Bag NodeKey.compare := ∅
  edges : Std.ExtTreeMap EdgeKey Bag EdgeKey.compare := ∅
  indexes : Std.ExtTreeSet String compare := ∅

namespace Memory

def node? (m : Memory) (label id : String) : Option Bag :=
  m.nodes[(⟨label, id⟩ : NodeKey)]?

/-- Whether a relationship joins the given ids under the given label. -/
def joins (source label target : String) (k : EdgeKey) : Bool :=
  k.source.id = source && k.target.id = target && k.label = label

/-- The bag of the first relationship, in the order of keys, between two ids. -/
def edge? (m : Memory) (source label target : String) : Option Bag :=
  (m.edges.toList.find? fun e => joins source label target e.1).map Prod.snd

def nodeCount (m : Memory) : Nat :=
  m.nodes.size

def edgeCount (m : Memory) : Nat :=
  m.edges.size

/-- The labels with an index, in their order. -/
def indexedLabels (m : Memory) : List String :=
  m.indexes.toList

/-- A bag after another one was merged into what is stored, if anything is. -/
def mergedBag (stored : Option Bag) (bag : Bag) : Bag :=
  (stored.getD .empty).merge bag

def mergeNode (m : Memory) (r : NodeRow) : Memory :=
  { m with nodes := m.nodes.insert r.key (mergedBag m.nodes[r.key]? r.properties) }

def mergeEdge (m : Memory) (r : EdgeRow) : Memory :=
  { m with edges := m.edges.insert r.key (mergedBag m.edges[r.key]? r.properties) }

/-- An id must not be one of the refused ones. -/
def checkId (refused : List String) (id : String) : Except StoreError Unit :=
  if id ∈ refused then .error (.rejected ("id " ++ id ++ " is rejected")) else .ok ()

def checkLabel (label : String) : Except StoreError Unit :=
  if label = "" then .error (.invalidLabel label) else .ok ()

/-- An end of a relationship must be stored. -/
def checkEnd (m : Memory) (k : NodeKey) : Except StoreError Unit :=
  if k ∈ m.nodes then .ok () else .error (.missingEndpoint k.label k.id)

def checkNode (refused : List String) (r : NodeRow) : Except StoreError Unit := do
  checkLabel r.label
  checkId refused r.id

def checkEdge (refused : List String) (m : Memory) (r : EdgeRow) : Except StoreError Unit := do
  checkLabel r.label
  checkId refused r.sourceId
  checkId refused r.targetId
  m.checkEnd r.source
  m.checkEnd r.target

/-- A checked change: nothing changes when the check fails. -/
def guarded (m : Memory) (check : Except StoreError Unit) (changed : Memory) : Response Memory :=
  match check with
  | .ok () => .taken changed
  | .error cause => .refused m cause

/-- The store in memory that refuses the given ids. -/
def store (refused : List String) : Store Memory where
  upsertNode m r := m.guarded (checkNode refused r) (m.mergeNode r)
  upsertEdge m r := m.guarded (checkEdge refused m r) (m.mergeEdge r)
  ensureIndexes m labels := .taken { m with indexes := m.indexes.insertMany labels }

end Memory
end ProgramGraph.Store
