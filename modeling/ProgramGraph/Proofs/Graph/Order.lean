import ProgramGraph.Proofs.Graph.Arena

/-!
# ProgramGraph.Proofs.Graph.Order

A graph in memory is two maps that remember in which order their keys came, and a queue of entities.

* `Arena.Remembers`  — what an arena shows, through every way of reading it, after a history of what was named and written.
* `Arena.Keeps`      — no entry and no name in a bag is ever lost.
* `Answered`         — registering, connecting and relating say whether a key comes for the first time.
* `arenas_ordered`   — whatever the operations, no place is asked for that an array does not have, and both arenas remember.
* `drains_partition` — whatever the operations, what was drained and what is waiting are all entities, in order, each once.
-/

namespace ProgramGraph.Graph

/-! ## What an arena shows -/

namespace Arena

variable {κ ι : Type} [DecidableEq κ] [Hashable κ] {key : ι → κ} {a a' : Arena κ ι} {held touches : List (ι × Bag)} {k : κ}

/-- An arena shows what was named and written. -/
structure Remembers (key : ι → κ) (a : Arena κ ι) (touches : List (ι × Bag)) : Prop where
  /-- Items stand in the order in which their keys came. -/
  items : a.entries.toList.map Prod.fst = firsts key (touches.map Prod.fst)
  /-- Each key stands there once. -/
  nodup : (a.entries.toList.map fun e => key e.1).Nodup
  /-- The item is the first one that was named with its key. -/
  first : ∀ e ∈ a.entries.toList, ∃ before after,
    touches.map Prod.fst = before ++ e.1 :: after ∧ key e.1 ∉ before.map key
  /-- A bag is what was written for the key, one bag merged over the other. -/
  bags : ∀ e ∈ a.entries.toList, e.2 = written key touches (key e.1)
  /-- For each name it has the last value that was written. -/
  last : ∀ e ∈ a.entries.toList, ∀ name : String, e.2[name]? = (values key touches (key e.1) name).getLast?
  /-- A look-up stays inside the array; it finds an entry if and only if its key was named. -/
  found : ∀ k, ∃ answer, a.get? k = .ok answer ∧ (answer.isSome ↔ k ∈ touches.map fun t => key t.1) ∧
    ∀ e, answer = some e ↔ e ∈ a.entries.toList ∧ key e.1 = k
  known : ∀ k, a.contains k = decide (k ∈ touches.map fun t => key t.1)

theorem Holds.remembers (h : a.Holds key (gather key touches)) : a.Remembers key touches where
  items := by rw [h.entries, map_fst_gather]
  nodup := by
    rw [h.entries, keys_gather]
    exact nodup_keys_firsts _
  first e mem := by
    rw [h.entries] at mem
    have listed := List.mem_map_of_mem (f := Prod.fst) mem
    rw [map_fst_gather] at listed
    exact mem_firsts_iff.mp listed
  bags e mem := by
    rw [h.entries] at mem
    obtain ⟨item, -, rfl⟩ := List.mem_map.mp mem
    rfl
  last e mem name := by
    rw [h.entries] at mem
    obtain ⟨item, -, rfl⟩ := List.mem_map.mp mem
    exact getElem?_written touches _ name
  found k := by
    obtain ⟨answer, got, answers⟩ := h.exists_get? k
    refine ⟨answer, got, ?_, fun e => h.entries ▸ answers e⟩
    rw [← mem_keys_gather, Option.isSome_iff_exists, List.mem_map]
    exact exists_congr answers
  known k := by
    rw [h.contains_eq]
    exact decide_eq_decide.mpr mem_keys_gather

/-- Every entry stays what it is, and every name in its bag stays. -/
def Keeps (a a' : Arena κ ι) : Prop :=
  ∀ k item bag, a.get? k = .ok (some (item, bag)) →
    ∃ bag', a'.get? k = .ok (some (item, bag')) ∧ ∀ name ∈ bag, name ∈ bag'

theorem Remembers.keeps {more : List (ι × Bag)} (h : a.Remembers key touches) (h' : a'.Remembers key (touches ++ more)) :
    a.Keeps a' := by
  intro k item bag got
  obtain ⟨answer, here, -, answers⟩ := h.found k
  obtain ⟨mem, same⟩ := (answers (item, bag)).mp (Except.ok.inj (here.symm.trans got))
  have listed : item ∈ a'.entries.toList.map Prod.fst := by
    rw [h'.items, List.map_append]
    refine (firsts_prefix_append _ _).subset ?_
    rw [← h.items]
    exact List.mem_map_of_mem mem
  obtain ⟨⟨item', bag'⟩, mem', hitem⟩ := List.mem_map.mp listed
  obtain rfl : item' = item := hitem
  obtain ⟨answer', there, -, answers'⟩ := h'.found k
  refine ⟨bag', by rw [there, (answers' _).mpr ⟨mem', same⟩], ?_⟩
  have hbag : bag = _ := h.bags _ mem
  have hbag' : bag' = _ := h'.bags _ mem'
  rw [hbag, hbag']
  exact fun name there => mem_written_append there more

/-- Two arenas cannot be told apart by reading them. -/
structure Same (a a' : Arena κ ι) : Prop where
  entries : a.entries = a'.entries
  get? : ∀ k, a.get? k = a'.get? k
  contains : ∀ k, a.contains k = a'.contains k

theorem Holds.same (h : a.Holds key held) (h' : a'.Holds key held) : a.Same a' where
  entries := Array.toList_inj.mp (h.entries.trans h'.entries.symm)
  get? k := by
    obtain ⟨answer, got, answers⟩ := h.exists_get? k
    rw [got, h'.get?_eq answers]
  contains k := by rw [h.contains_eq, h'.contains_eq]

end Arena

/-! ## Answers -/

/-- An operation that makes something known says whether its key comes for the first time. -/
structure Answered (ops : List Operation) (replies : List Reply) : Prop where
  register : ∀ before e after, ops = before ++ .register e :: after →
    replies[before.length]? = some (.new (e.key ∉ (before.flatMap Operation.entities).map fun t => t.1.key))
  connect : ∀ before r bag after, ops = before ++ .connect r bag :: after →
    replies[before.length]? = some (.new (r.key ∉ (before.flatMap Operation.links).map fun t => t.1.key))
  relate : ∀ before r bag after, ops = before ++ .relate r bag :: after →
    replies[before.length]? = some (.new (r.key ∉ (before.flatMap Operation.links).map fun t => t.1.key))

theorem answered (ops : List Operation) : Answered ops (empty.performAll ops).1 where
  register before e after split := by rw [split, getElem?_replies, perform, not_contains_run]
  connect before r bag after split := by rw [split, getElem?_replies, perform, not_isRelated_run]
  relate before r bag after split := by rw [split, getElem?_replies, perform, not_isRelated_run]

/-! ## Whatever the operations -/

/-- New arenas hold what is gathered from the operations, and answer as the graph does. -/
theorem exists_run (ops : List Operation) :
    ∃ s, GraphArena.empty.performAll ops = .ok ((empty.performAll ops).1, s) ∧ s.Represents (empty.performAll ops).2 ∧
      s.nodes.arena.Holds Entity.key (gather Entity.key (ops.flatMap Operation.entities)) ∧
      s.links.Holds Relationship.key (gather Relationship.key (ops.flatMap Operation.links)) := by
  obtain ⟨s, run, represents⟩ := GraphArena.performAll_represents GraphArena.represents_empty ops
  exact ⟨s, run, represents, nodes_run ops ▸ represents.nodes.arena, relationships_run ops ▸ represents.links⟩

/-- **Both arenas remember.** Whatever is registered, written, drained, connected and related, no access leaves an array.
Either arena lists each key once, in order of first occurrence and with the item that named it first. A look-up finds the
keys that were named and no others, with everything that was written for them. Registering and connecting answer whether a
key comes for the first time. Entries stay, and so do the names in their bags. Drains change none of this. Where every edge
was connected, the ends of all edges are known. A graph answers the same and has the same nodes and relationships. -/
theorem arenas_ordered (ops : List Operation) :
    ∃ replies s, GraphArena.empty.performAll ops = .ok (replies, s) ∧
      s.nodes.arena.Remembers Entity.key (ops.flatMap Operation.entities) ∧
      s.links.Remembers Relationship.key (ops.flatMap Operation.links) ∧
      Answered ops replies ∧
      (∀ before after, ops = before ++ after → ∃ earlier s', GraphArena.empty.performAll before = .ok (earlier, s') ∧
        s'.nodes.arena.Keeps s.nodes.arena ∧ s'.links.Keeps s.links) ∧
      (∃ s', GraphArena.empty.performAll (ops.filter fun op => !op.isDrain) =
          .ok (replies.filter fun reply => !reply.isDrained, s') ∧
        s'.nodes.arena.Same s.nodes.arena ∧ s'.links.Same s.links) ∧
      ((∀ op ∈ ops, ∀ r bag, op ≠ .relate r bag) → ∀ r ∈ s.links.entries.toList.map Prod.fst,
        s.nodes.arena.contains r.source.key ∧ s.nodes.arena.contains r.target.key) ∧
      replies = (empty.performAll ops).1 ∧
      s.nodes.arena.entries.toList = (empty.performAll ops).2.nodes ∧
      s.links.entries.toList = (empty.performAll ops).2.relationships ∧
      (∀ k, s.nodes.arena.get? k = .ok ((empty.performAll ops).2.get? k)) ∧
      ∀ k, s.links.get? k = .ok ((empty.performAll ops).2.getRelationship? k) := by
  obtain ⟨s, run, represents, nodes, links⟩ := exists_run ops
  refine ⟨_, s, run, nodes.remembers, links.remembers, answered ops, ?keeps, ?drains, ?ends, rfl,
    represents.nodes.arena.entries, represents.links.entries, represents.get?, represents.getRelationship?⟩
  case keeps =>
    rintro before after rfl
    obtain ⟨s', run', -, nodes', links'⟩ := exists_run before
    rw [List.flatMap_append] at nodes links
    exact ⟨_, s', run', nodes'.remembers.keeps nodes.remembers, links'.remembers.keeps links.remembers⟩
  case drains =>
    have same : empty.performAll (ops.filter fun op => !op.isDrain) =
        ((empty.performAll ops).1.filter fun reply => !reply.isDrained, { (empty.performAll ops).2 with drained := 0 }) :=
      performAll_without_drains empty 0 ops
    obtain ⟨s', run', represents', -, -⟩ := exists_run (ops.filter fun op => !op.isDrain)
    rw [same] at run' represents'
    exact ⟨s', run', represents'.nodes.arena.same represents.nodes.arena, represents'.links.same represents.links⟩
  case ends =>
    intro connected r mem
    rw [links.remembers.items] at mem
    rw [nodes.remembers.known, nodes.remembers.known, decide_eq_true_iff, decide_eq_true_iff]
    exact ends_named connected (mem_of_mem_firsts mem)

/-- A type as the example of an entity. -/
def stringType : Entity :=
  ⟨.type ⟨0⟩, "String"⟩

/-- The entity is connected with itself, drained, and registered again under another label. -/
def renamed : List Operation :=
  [.connect ⟨stringType, stringType, .typeOf⟩ .empty, .drain, .register ⟨stringType.key, "Text"⟩]

theorem arenas_ordered_renamed :
    ∃ s, GraphArena.empty.performAll renamed = .ok ([.new true, .drained [stringType], .new false], s) ∧
      s.nodes.arena.entries.toList.map Prod.fst = [stringType] ∧ s.nodes.arena.contains stringType.key := by
  obtain ⟨_, s, run, nodes, links, _, _, _, ends, rfl, _⟩ := arenas_ordered renamed
  have connected : ∀ op ∈ renamed, ∀ r bag, op ≠ .relate r bag := by
    simp [renamed]
  have loop : ⟨stringType, stringType, .typeOf⟩ ∈ s.links.entries.toList.map Prod.fst := by
    rw [links.items]
    exact List.mem_singleton_self _
  exact ⟨s, run, nodes.items, (ends connected _ loop).1⟩

/-- **Drains partition the entities.** Whatever is registered, written, connected and drained, what the drains answered and
what is still waiting are all entities, in order of registration, each once. What a drain answers was named before it, and
is neither answered again nor waiting. A graph answers the same and has the same frontier. -/
theorem drains_partition (ops : List Operation) :
    ∃ replies s pending, GraphArena.empty.performAll ops = .ok (replies, s) ∧
      s.nodes.drain = .ok (pending, { s.nodes with frontier := [] }) ∧
      replies.flatMap Reply.entities ++ pending = s.nodes.arena.entries.toList.map Prod.fst ∧
      replies.flatMap Reply.entities ++ pending = firsts Entity.key ((ops.flatMap Operation.entities).map Prod.fst) ∧
      ((replies.flatMap Reply.entities ++ pending).map Entity.key).Nodup ∧
      (∀ before after, ops = before ++ .drain :: after → ∃ es, replies[before.length]? = some (.drained es) ∧
        (∀ e ∈ es, e ∈ (before.flatMap Operation.entities).map Prod.fst) ∧
        ∀ e ∈ es, e.key ∉ ((replies.drop (before.length + 1)).flatMap Reply.entities ++ pending).map Entity.key) ∧
      replies = (empty.performAll ops).1 ∧ pending = (empty.performAll ops).2.frontier := by
  obtain ⟨s, run, represents, -, -⟩ := exists_run ops
  obtain ⟨drained, -⟩ := represents.nodes.drain
  have pending : ((empty.performAll ops).2.nodes.map Prod.fst).drop (empty.performAll ops).2.drained =
      (empty.performAll ops).2.frontier := (frontier_eq _).symm
  have all := drained_append_frontier ops
  have nodup := nodup_keys (empty.performAll ops).2
  rw [← map_key_entities, ← all] at nodup
  rw [pending] at drained
  refine ⟨_, s, _, run, drained, ?entities, ?firsts, nodup, ?drains, rfl, rfl⟩
  case entities => rw [all, represents.nodes.arena.entries, entities]
  case firsts => rw [all, entities, nodes_run, map_fst_gather]
  case drains =>
    intro before after split
    have here : (empty.performAll ops).1[before.length]? = some (.drained (empty.performAll before).2.frontier) := by
      rw [split]
      exact getElem?_replies _ _ _ _
    refine ⟨_, here, ?_, fun e mem => not_mem_later nodup here mem⟩
    intro e mem
    have known : e ∈ (empty.performAll before).2.entities := by
      rw [← drained_append_frontier]
      exact List.mem_append_right _ mem
    rw [entities, nodes_run, map_fst_gather] at known
    exact mem_of_mem_firsts known

end ProgramGraph.Graph
