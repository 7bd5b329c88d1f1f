/-!
# ProgramGraph.Program.Unit

Source units: one parsed source file as an array of syntax nodes with links to their parents.

* `NodeRef`, `Position`, `SourceNode`, `SourceUnit` — the data.
* `SourceUnit.validate` — a unit is sound when it has no parse errors and its nodes form one tree: every parent is in
  the unit, exactly one node has no parent, and every chain of parents ends at that root.
* `Defect` — the first thing wrong with a unit, and its wording.

Whether all chains of parents end is found by a walk that takes every link once: a chain is followed only to the first
node from which it is known to end. Every step of the walk sees one more node, so the walk comes to an end although a
chain may not.
-/

namespace ProgramGraph.Program

/-- A syntax node of a program: its unit and its place in the unit. -/
structure NodeRef where
  unit : UInt32
  node : UInt32
  deriving DecidableEq, Repr, Inhabited

namespace NodeRef

/-- The text `unit:node`. -/
def display (r : NodeRef) : String :=
  s!"{r.unit.toNat}:{r.node.toNat}"

end NodeRef

/-- Where a node begins; lines and columns count from one. -/
structure Position where
  line : UInt32
  column : UInt32
  deriving DecidableEq, Repr, Inhabited

namespace Position

/-- The text `line:column`. -/
def display (p : Position) : String :=
  s!"{p.line.toNat}:{p.column.toNat}"

end Position

/-- One node of a parsed source file. -/
structure SourceNode where
  /-- The concrete syntax category. -/
  kind : String
  begin : Option Position := none
  /-- The source text that the node covers. -/
  text : String := ""
  parent : Option UInt32 := none
  /-- Whether the node can be resolved to a declaration. -/
  resolvable : Bool := false
  deriving DecidableEq, Repr, Inhabited

/-- A parsed source file. -/
structure SourceUnit where
  fileName : Option String := none
  package : Option String := none
  /-- The digest of what the unit was read from. -/
  contentHash : Option String := none
  /-- What the parser complained about. -/
  parseErrors : List String := []
  nodes : Array SourceNode := #[]
  deriving DecidableEq, Repr, Inhabited

/-- The first thing wrong with a unit. -/
inductive Defect where
  | parseErrors (count : Nat) (first : String)
  | noNodes
  | parentOutside (node : Nat) (parent : UInt32)
  /-- The number of nodes without a parent, in 32 bits. -/
  | rootCount (found : Int32)
  | cyclic (node : Nat)
  deriving DecidableEq, Repr

namespace Defect

/-- What is wrong, in words. -/
def reason : Defect → String
  | .parseErrors count first => s!"{count} parse error(s), first: {first}"
  | .noNodes => "no syntax nodes"
  | .parentOutside node parent => s!"node {node} has parent {parent.toNat} outside the unit"
  | .rootCount found => s!"expected one root node, found {found}"
  | .cyclic node => s!"parent chain of node {node} is cyclic"

end Defect

/-- A unit that is not sound: its name and its first defect. -/
structure Malformed where
  unit : String
  defect : Defect
  deriving DecidableEq, Repr

namespace Malformed

/-- The message for a unit that is not sound. -/
def message (m : Malformed) : String :=
  s!"Malformed source {m.unit}: {m.defect.reason}"

end Malformed

/-- What the walk along the parents knows of a node. -/
inductive Mark where
  | unseen
  | onPath
  | arrives
  deriving DecidableEq, Repr

namespace Mark

theorem count_unseen_lt {marks : Array Mark} {i : Nat} (here : marks[i]? = some .unseen) :
    (marks.setIfInBounds i .onPath).count .unseen < marks.count .unseen := by
  obtain ⟨inside, here⟩ := Array.getElem?_eq_some_iff.mp here
  have seen : 0 < marks.count .unseen := Array.count_pos_iff.mpr (Array.mem_of_getElem here)
  rw [Array.setIfInBounds, dif_pos inside, Array.count_set inside, here]
  exact Nat.sub_lt seen Nat.one_pos

end Mark

/-- An access to a place outside an array. -/
structure OutOfBounds where
  place : Nat
  deriving DecidableEq, Repr

namespace SourceUnit

def displayName (u : SourceUnit) : String :=
  u.fileName.getD "<unnamed>"

def node? (u : SourceUnit) (i : UInt32) : Option SourceNode :=
  u.nodes[i.toNat]?

def push (u : SourceUnit) (n : SourceNode) : SourceUnit :=
  { u with nodes := u.nodes.push n }

/-- A unit with `count` more nodes, the first under `parent` and each other one under the one before. -/
def pushChain (u : SourceUnit) (kind text : String) (parent : Option UInt32) : Nat → SourceUnit
  | 0 => u
  | count + 1 =>
    let place := UInt32.ofNat u.nodes.size
    (u.push { kind := kind, text := text, parent := parent }).pushChain kind text (some place) count

/-- Whether the parent of a node, if it has one, lies outside a unit of the given size. -/
def isStray (size : Nat) (n : SourceNode) : Bool :=
  match n.parent with
  | some p => size ≤ p.toNat
  | none => false

/-- The first node whose parent lies outside the unit, with that parent. -/
def strayParent? (u : SourceUnit) : Option (Nat × UInt32) := do
  let i ← u.nodes.findIdx? (isStray u.nodes.size)
  let n ← u.nodes[i]?
  let p ← n.parent
  return (i, p)

def rootCount (u : SourceUnit) : Nat :=
  u.nodes.countP fun n => n.parent.isNone

/-- A chain of parents, followed from a node or from nowhere. Every node that was not seen before is marked and put on the
path, until the chain ends or comes to a node from which it is known to end. A chain that comes back to its own path
never ends, and there is no result. -/
def climb (nodes : Array SourceNode) (marks : Array Mark) (path : List Nat) :
    Option Nat → Except OutOfBounds (Option (Array Mark × List Nat))
  | none => .ok (some (marks, path))
  | some i =>
    match _ : marks[i]? with
    | none => .error ⟨i⟩
    | some .arrives => .ok (some (marks, path))
    | some .onPath => .ok none
    | some .unseen =>
      match nodes[i]? with
      | none => .error ⟨i⟩
      | some n => climb nodes (marks.setIfInBounds i .onPath) (i :: path) (n.parent.map UInt32.toNat)
termination_by marks.count .unseen
decreasing_by exact Mark.count_unseen_lt ‹_›

/-- The nodes of a path are marked as those whose chains end. -/
def settle (marks : Array Mark) : List Nat → Except OutOfBounds (Array Mark)
  | [] => .ok marks
  | i :: path => if i < marks.size then settle (marks.setIfInBounds i .arrives) path else .error ⟨i⟩

/-- The first of some nodes whose chain of parents never ends. -/
def walk (nodes : Array SourceNode) (marks : Array Mark) : List Nat → Except OutOfBounds (Option Nat)
  | [] => .ok none
  | start :: starts => do
    match ← climb nodes marks [] (some start) with
    | none => return some start
    | some (marks, path) => walk nodes (← settle marks path) starts

/-- The first node whose chain of parents never ends. -/
def cyclicNode? (u : SourceUnit) : Except OutOfBounds (Option Nat) :=
  walk u.nodes (Array.replicate u.nodes.size .unseen) (List.range u.nodes.size)

/-- The first thing wrong with a unit. -/
def inspect (u : SourceUnit) : Except OutOfBounds (Option Defect) :=
  match u.parseErrors with
  | first :: _ => .ok (some (.parseErrors u.parseErrors.length first))
  | [] =>
    if u.nodes.isEmpty then .ok (some .noNodes)
    else
      match u.strayParent? with
      | some (i, p) => .ok (some (.parentOutside i p))
      | none =>
        if u.rootCount ≠ 1 then .ok (some (.rootCount (.ofNat u.rootCount)))
        else u.cyclicNode?.map (Option.map .cyclic)

/-- The outcome of the inspection, which stays inside the unit: stray parents are found before a chain is followed. -/
def defect? (u : SourceUnit) : Option Defect :=
  match u.inspect with
  | .ok found => found
  | .error _ => none

/-- A unit is sound, or has a first defect. -/
def validate (u : SourceUnit) : Except Malformed Unit :=
  match u.defect? with
  | some d => .error ⟨u.displayName, d⟩
  | none => .ok ()

end SourceUnit
end ProgramGraph.Program
