import ProgramGraph.Proofs.Discovery.Bags
import ProgramGraph.Proofs.Discovery.Confluence
import ProgramGraph.Proofs.Discovery.Outgoing
import ProgramGraph.Proofs.Program.Tree

/-!
# ProgramGraph.Proofs.Discovery.Trees

The syntax nodes of a discovered graph are the units of its world, each as one tree.

* `Graph.parents`, `Graph.Ascent` — where the links to parents lead from a key, and where a number of them leads.
* `Graph.Tree`     — the nodes of a unit as one tree, whose root alone carries what is known about the file.
* `World.Supports` — what enriching a syntax node looks up is there.
* `discover_trees` — every unit is such a tree, there are no other syntax nodes, and no look-up of a node comes to nothing.
-/

namespace ProgramGraph

open Program ProgramGraph.Graph

namespace Graph

/-- Where the links to parents lead from a key. -/
def parents (g : Graph) (k : EntityKey) : List EntityKey :=
  ((g.withRelation .parentOf).filter fun r => r.source.key = k).map fun r => r.target.key

/-- From one key to another by a number of links to parents. -/
inductive Ascent (g : Graph) : Nat → EntityKey → EntityKey → Prop where
  | here (k : EntityKey) : Ascent g 0 k k
  | up {m : Nat} {k p top : EntityKey} : p ∈ g.parents k → Ascent g m p top → Ascent g (m + 1) k top

/-- Whether a key stands for a node of a unit. -/
def EntityKey.isIn (id : UInt32) : EntityKey → Bool
  | .node ref => ref.unit = id
  | .symbol _ => false
  | .type _ => false

/-- The links to parents that start in a unit. -/
def unitLinks (g : Graph) (id : UInt32) : List Relationship :=
  (g.withRelation .parentOf).filter fun r => r.source.key.isIn id

/-- The nodes of a unit as one tree in a graph. -/
structure Tree (g : Graph) (id : UInt32) (u : SourceUnit) (root : UInt32) : Prop where
  present : ∃ n, u.node? root = some n
  only : ∀ i n, u.node? i = some n → (n.parent = none ↔ i = root)
  /-- One link out of every other node, to its parent, and none out of the root. -/
  parents : ∀ i n, u.node? i = some n → g.parents (.node ⟨id, i⟩) = (n.parent.map fun p => .node ⟨id, p⟩).toList
  links : (g.unitLinks id).length + 1 = u.placeCount
  ascent : ∀ i n, u.node? i = some n → ∃ m < u.placeCount, g.Ascent m (.node ⟨id, i⟩) (.node ⟨id, root⟩)
  file : ∀ i n, u.node? i = some n → ∃ e bag, g.get? (.node ⟨id, i⟩) = some (e, bag) ∧
    ("fileName" ∈ bag ↔ i = root) ∧ ("packageName" ∈ bag ↔ i = root)

end Graph

namespace Discovery

/-! ## Links to parents -/

namespace Settled

variable {w : World} {x : Explorer}

theorem mem_parentLinks (h : Settled w x) {r : Relationship} :
    r ∈ x.graph.withRelation .parentOf ↔ ∃ ref n p, w.units.node? ref = some n ∧ n.parent = some p ∧
      r = w.relationship ⟨.node ref, .node ⟨ref.unit, p⟩, .parentOf⟩ := by
  rw [mem_withRelation]
  constructor
  · rintro ⟨⟨bag, mem⟩, relation⟩
    obtain ⟨related, source, target⟩ := h.mem_relationships_iff.mp mem
    have canonical : r = w.relationship r.key := by
      rw [World.relationship, Relationship.key, ← source, ← target]
    have parent : r.key.relation = .parentOf := relation
    generalize r.key = k at related canonical parent
    cases related with
    | parent hn hp => exact ⟨_, _, _, hn, hp, canonical⟩
    | returned => cases parent
    | valued => cases parent
    | self => cases parent
  · rintro ⟨ref, n, p, hn, hp, rfl⟩
    exact ⟨⟨.empty, h.mem_relationships_of_related (.parent hn hp)⟩, rfl⟩

theorem parents_eq (h : Settled w x) {ref : NodeRef} {n : SourceNode} (hn : w.units.node? ref = some n) :
    x.graph.parents (.node ref) = (n.parent.map fun p => .node ⟨ref.unit, p⟩).toList := by
  show (x.graph.outgoing .parentOf (.node ref)).map (fun r => r.target.key) = _
  cases hp : n.parent with
  | none =>
    have none_out : x.graph.outgoing .parentOf (.node ref) = [] := by
      refine h.outgoing_eq_nil fun k' bag related => ?_
      cases related with
      | parent hn' hp' =>
        cases hn.symm.trans hn'
        cases hp.symm.trans hp'
    rw [none_out]
    rfl
  | some p =>
    have one : x.graph.outgoing .parentOf (.node ref) = [_] := h.outgoing_of_related (.parent hn hp)
    rw [one]
    simp [World.relationship]

theorem mem_parents (h : Settled w x) {ref : NodeRef} {n : SourceNode} (hn : w.units.node? ref = some n)
    {k : EntityKey} : k ∈ x.graph.parents (.node ref) ↔ n.parent.map (fun p => .node ⟨ref.unit, p⟩) = some k := by
  rw [h.parents_eq hn, Option.mem_toList]

section

variable {id root : UInt32} {u : SourceUnit} (hu : w.units.get? id = some u)

include hu

/-- As many links as it takes at most to come to the root, by induction on their number. -/
theorem ascent_le (h : Settled w x) (only : ∀ i n, u.node? i = some n → (n.parent = none ↔ i = root)) {m : Nat}
    {i : UInt32} {n : SourceNode} (hn : u.node? i = some n) (arrives : SourceUnit.IsTop u.nodes (u.up^[m] i.toNat)) :
    ∃ m' ≤ m, x.graph.Ascent m' (.node ⟨id, i⟩) (.node ⟨id, root⟩) := by
  induction m generalizing i n with
  | zero =>
    have here := (only i n hn).mp ((SourceUnit.isTop_iff hn).mp arrives)
    exact ⟨0, Nat.le_refl 0, here ▸ .here _⟩
  | succ m ih =>
    cases hp : n.parent with
    | none => exact ⟨0, Nat.zero_le _, (only i n hn).mp hp ▸ .here _⟩
    | some p =>
      have above : u.up i.toNat = p.toNat := by
        rw [SourceUnit.up_eq hn, hp]
        rfl
      rw [Function.iterate_succ_apply, above] at arrives
      obtain ⟨parent, hparent⟩ := SourceUnit.node?_parent_isSome (Units.validate_of_get? hu) hn hp
      obtain ⟨m', fewer, further⟩ := ih hparent arrives
      have node : w.units.node? ⟨id, i⟩ = some n := Units.node?_eq_some_iff.mpr ⟨u, hu, hn⟩
      exact ⟨m' + 1, by omega, .up ((h.mem_parents node).mpr (by rw [hp]; rfl)) further⟩

theorem ascent (h : Settled w x) (only : ∀ i n, u.node? i = some n → (n.parent = none ↔ i = root)) {i : UInt32}
    {n : SourceNode} (hn : u.node? i = some n) :
    ∃ m < u.placeCount, x.graph.Ascent m (.node ⟨id, i⟩) (.node ⟨id, root⟩) := by
  have inside := SourceUnit.toNat_lt_placeCount hn
  obtain ⟨m, short, arrives⟩ := SourceUnit.exists_isTop_up (Units.validate_of_get? hu) inside
  obtain ⟨m', fewer, ascent⟩ := h.ascent_le hu only hn arrives
  exact ⟨m', by omega, ascent⟩

theorem mem_map_unitLinks (h : Settled w x) {k : EntityKey} :
    k ∈ (x.graph.unitLinks id).map (fun r => r.source.key) ↔
      ∃ i n, u.node? i = some n ∧ n.parent ≠ none ∧ k = .node ⟨id, i⟩ := by
  simp only [unitLinks, List.mem_map, List.mem_filter, h.mem_parentLinks]
  constructor
  · rintro ⟨_, ⟨⟨ref, n, p, hn, hp, rfl⟩, inside⟩, rfl⟩
    rw [World.relationship, World.key_entity, EntityKey.isIn, decide_eq_true_iff] at inside
    subst inside
    obtain ⟨u', hu', hnode⟩ := Units.node?_eq_some_iff.mp hn
    cases hu.symm.trans hu'
    exact ⟨ref.node, n, hnode, by simp [hp], by rw [World.relationship, World.key_entity]⟩
  · rintro ⟨i, n, hnode, parent, rfl⟩
    obtain ⟨p, hp⟩ := Option.ne_none_iff_exists'.mp parent
    refine ⟨_, ⟨⟨⟨id, i⟩, n, p, Units.node?_eq_some_iff.mpr ⟨u, hu, hnode⟩, hp, rfl⟩, ?_⟩, ?_⟩
    · rw [World.relationship, World.key_entity, EntityKey.isIn, decide_eq_true_iff]
    · rw [World.relationship, World.key_entity]

omit hu in
theorem nodup_map_unitLinks (h : Settled w x) : ((x.graph.unitLinks id).map fun r => r.source.key).Nodup := by
  refine List.Nodup.map_on ?_ ((x.graph.nodup_relationships.filter _).filter _)
  intro a ha b hb source
  obtain ⟨ref, n, p, hn, hp, rfl⟩ := h.mem_parentLinks.mp (List.mem_filter.mp ha).1
  obtain ⟨ref', n', p', hn', hp', rfl⟩ := h.mem_parentLinks.mp (List.mem_filter.mp hb).1
  simp only [World.relationship, World.key_entity, EntityKey.node.injEq] at source
  subst source
  cases hn.symm.trans hn'
  cases hp.symm.trans hp'
  rfl

/-- The links to parents inside a unit start at every node but the root, and once at each. -/
theorem length_unitLinks (h : Settled w x) (present : ∃ n, u.node? root = some n)
    (only : ∀ i n, u.node? i = some n → (n.parent = none ↔ i = root)) :
    (x.graph.unitLinks id).length + 1 = u.placeCount := by
  have keys := Explorer.nodup_keys_unitEntities id u
  have others : ((x.graph.unitLinks id).map fun r => r.source.key).Perm
      (((Explorer.unitEntities id u).map Entity.key).erase (.node ⟨id, root⟩)) := by
    rw [List.perm_ext_iff_of_nodup h.nodup_map_unitLinks (keys.erase _)]
    intro k
    rw [h.mem_map_unitLinks hu, keys.mem_erase_iff, Explorer.mem_keys_unitEntities]
    constructor
    · rintro ⟨i, n, hn, parent, rfl⟩
      refine ⟨fun same => parent ((only i n hn).mpr ?_), i, n, hn, rfl⟩
      cases same
      rfl
    · rintro ⟨other, i, n, hn, rfl⟩
      refine ⟨i, n, hn, fun parent => other ?_, rfl⟩
      rw [(only i n hn).mp parent]
  obtain ⟨n, hn⟩ := present
  have known : .node ⟨id, root⟩ ∈ (Explorer.unitEntities id u).map Entity.key :=
    Explorer.mem_keys_unitEntities.mpr ⟨root, n, hn, rfl⟩
  have length := others.length_eq
  rw [List.length_map, List.length_erase_of_mem known, List.length_map, Explorer.length_unitEntities] at length
  have inside := SourceUnit.toNat_lt_placeCount hn
  omega

end

end Settled

/-! ## What a root carries -/

/-- The names under which a root, and no other node, carries what is known about the file. -/
def fileNames : List String :=
  ["fileName", "packageName"]

theorem mem_fileNames {name : String} : name ∈ fileNames ↔ name = "fileName" ∨ name = "packageName" := by
  simp [fileNames]

section

variable {w : World} {ref : NodeRef} {n : SourceNode} {name : String}

theorem mem_bag_describeNode_iff (hn : w.units.node? ref = some n) (file : name ∈ fileNames) :
    name ∈ (describeNode w ref).bag ↔ n.parent = none := by
  obtain ⟨u, hu, hnode⟩ := Units.node?_eq_some_iff.mp hn
  rw [mem_bag_describeNode hu hnode]
  obtain rfl | rfl := mem_fileNames.mp file <;> simp

end

/-! ## What is looked up is there -/

/-- What enriching a syntax node looks up is there: its unit, the node, and the parent that the node names. -/
def World.Supports (w : World) (ref : NodeRef) : Prop :=
  ∃ u n, w.units.get? ref.unit = some u ∧ u.node? ref.node = some n ∧ ∀ p, n.parent = some p → ∃ m, u.node? p = some m

theorem Account.supports {w : World} {p : Point} (h : Account w p) {ref : NodeRef} {label : String} {rest : List Entity}
    (next : p.rest = ⟨.node ref, label⟩ :: rest) : w.Supports ref := by
  have known : ⟨.node ref, label⟩ ∈ p.explorer.graph.entities := by
    rw [h.entities, Point.pending, next]
    simp
  obtain ⟨n, hn⟩ := (h.genuine _ known).reachable.node?_isSome rfl
  obtain ⟨u, hu, hnode⟩ := Units.node?_eq_some_iff.mp hn
  exact ⟨u, n, hu, hnode, fun p hp => SourceUnit.node?_parent_isSome (Units.validate_of_get? hu) hnode hp⟩

/-- Whether an event tells that the unit or the place of a syntax node is missing. -/
def tellsMissing : Event → Bool
  | .unitMissing _ => true
  | .nodeMissing _ => true
  | _ => false

/-- No event so far tells of something missing. -/
def Silent (events : List Event) : Prop :=
  ∀ event ∈ events, tellsMissing event = false

theorem Silent.append {before after : List Event} (h : Silent before) (h' : Silent after) : Silent (before ++ after) := by
  intro event he
  exact (List.mem_append.mp he).elim (h event) (h' event)

theorem silent_singleton {event : Event} (h : tellsMissing event = false) : Silent [event] := by
  intro event' he
  rw [List.mem_singleton.mp he, h]

theorem silent_eventsOf {e : Entity} {c : Enrichment} (present : c.missing = none) : Silent (Explorer.eventsOf e c) := by
  rw [Explorer.eventsOf, present]
  cases c.failure with
  | none => intro event he; cases he
  | some failure => exact silent_singleton rfl

theorem Move.silent {w : World} {p q : Point} (account : Account w p) (m : Move w p q) (h : Silent p.explorer.events) :
    Silent q.explorer.events := by
  cases m with
  | seedUnit x done id =>
    dsimp only [Explorer.seedUnit]
    split
    · exact h.append (silent_singleton rfl)
    · exact h.append (silent_singleton rfl)
  | drain x done some_left => exact h.append (silent_singleton rfl)
  | enrich x e rest done =>
    have known : e ∈ x.graph.entities := by
      rw [account.entities]
      simp [Point.pending]
    exact h.append (silent_eventsOf (missing_of_reachable (account.genuine e known).reachable))
  | conclude x done none_left => exact h.append (silent_singleton rfl)

theorem Reaches.silent {w : World} {p : Point} (h : Reaches w {} p) : Silent p.explorer.events := by
  induction h with
  | refl => intro event he; cases he
  | tail path m ih => exact m.silent (account_of_reaches path) ih

/-! ## Units as trees -/

theorem Settled.tree {w : World} {x : Explorer} (h : Settled w x) {id : UInt32} {u : SourceUnit}
    (hu : w.units.get? id = some u) : ∃ root, x.graph.Tree id u root := by
  obtain ⟨root, present, only⟩ := SourceUnit.exists_root (Units.validate_of_get? hu)
  have node : ∀ {i n}, u.node? i = some n → w.units.node? ⟨id, i⟩ = some n :=
    fun hn => Units.node?_eq_some_iff.mpr ⟨u, hu, hn⟩
  refine ⟨root, present, only, ?_, h.length_unitLinks hu present only, ?_, ?_⟩
  · intro i n hn
    exact h.parents_eq (node hn)
  · intro i n hn
    exact h.ascent hu only hn
  · intro i n hn
    refine ⟨_, _, h.get?_of_reachable (.node (node hn)), ?_, ?_⟩
    · rw [← only i n hn]
      exact mem_bag_describeNode_iff (node hn) (mem_fileNames.mpr (.inl rfl))
    · rw [← only i n hn]
      exact mem_bag_describeNode_iff (node hn) (mem_fileNames.mpr (.inr rfl))

/-- **Every unit is one tree.** The syntax nodes of a discovered graph are the nodes of the units, and links to parents stay
inside a unit. There they form one tree: one link out of every node but the root, to its parent, and a way up to the root
in fewer links than there are places; what is known about the file is carried by the root alone. At every point of a
discovery the unit of a syntax node, the node and its parent are found. -/
theorem discover_trees (w : World) :
    let x := discover w
    (∀ e, e ∈ x.graph.entities ∧ e.key.kind = .node ↔ ∃ ref n, w.units.node? ref = some n ∧ e = .ofNode ref n.kind) ∧
      (∀ r ∈ x.graph.withRelation .parentOf, r.source ∈ x.graph.entities ∧ r.target ∈ x.graph.entities ∧
        ∃ id i p, r.source.key = .node ⟨id, i⟩ ∧ r.target.key = .node ⟨id, p⟩) ∧
      (∀ id u, w.units.get? id = some u → ∃ root, x.graph.Tree id u root) ∧
      (∀ p ref label rest, Reaches w {} p → p.rest = ⟨.node ref, label⟩ :: rest → w.Supports ref) ∧
      Silent x.events := by
  intro x
  have settled : Settled w x := settled_discover w
  refine ⟨?_, ?_, fun id u hu => settled.tree hu, ?_, ?_⟩
  · intro e
    rw [settled.mem_entities_iff]
    constructor
    · rintro ⟨genuine, kind⟩
      cases hk : e.key with
      | node ref =>
        obtain ⟨n, hn⟩ := genuine.reachable.node?_isSome hk
        exact ⟨ref, n, hn, by rw [genuine.canonical, hk, World.entity_node hn]⟩
      | symbol d => rw [hk] at kind; cases kind
      | type t => rw [hk] at kind; cases kind
    · rintro ⟨ref, n, hn, rfl⟩
      exact ⟨World.entity_node hn ▸ .of_key (.node hn), rfl⟩
  · intro r hr
    obtain ⟨ref, n, p, hn, hp, rfl⟩ := settled.mem_parentLinks.mp hr
    obtain ⟨m, hm⟩ := Units.node?_parent hn hp
    exact ⟨settled.mem_entities_iff.mpr (.of_key (.node hn)), settled.mem_entities_iff.mpr (.of_key (.node hm)),
      ref.unit, ref.node, p, World.key_entity w _, World.key_entity w _⟩
  · intro p ref label rest path next
    exact (account_of_reaches path).supports next
  · obtain ⟨done, path⟩ := reaches_performAll w [.seed, .run] {} []
    exact path.silent

/-- A unit whose root stands between the other nodes. -/
def bentUnit : SourceUnit :=
  { nodes := #[{ kind := "NameExpr", parent := some 1, resolvable := true }, { kind := "CompilationUnit" },
      { kind := "SimpleName", parent := some 0 }] }

def bent : World :=
  { knot with units := Units.empty.insert 5 bentUnit (by decide +kernel) }

theorem discover_trees_bent :
    bent.units.get? 5 = some bentUnit ∧ bentUnit.placeCount = 3 ∧
      ∃ root, (discover bent).graph.Tree 5 bentUnit root := by
  have unit : bent.units.get? 5 = some bentUnit := by simp [bent, Units.get?_insert]
  obtain ⟨_, _, trees, _⟩ := discover_trees bent
  exact ⟨unit, by decide, trees 5 bentUnit unit⟩

end Discovery
end ProgramGraph
