import ProgramGraph.Proofs.Graph.Gathering

/-!
# ProgramGraph.Proofs.Graph.History

What a graph holds after any sequence of operations, told by the operations alone.

* `Operation`, `Reply` — the operations on a graph and what they answer; `perform` and `performAll`.
* `nodes_performAll`, `relationships_performAll` — a graph holds what its operations gather.
* `getElem?_replies`   — what an operation answers depends on the operations before it.
* `gone`               — the entities that have been drained. `gone_performAll`: it is what the drains answered, in this order.
* `performAll_without_drains` — without its drains a run answers the same and holds the same.
-/

namespace ProgramGraph.Graph

/-- An operation on a graph. -/
inductive Operation where
  | register (e : Entity)
  | set (e : Entity) (name : String) (value : Property)
  | merge (e : Entity) (bag : Bag)
  | drain
  | connect (r : Relationship) (bag : Bag)
  | relate (r : Relationship) (bag : Bag)

/-- What an operation answers. -/
inductive Reply where
  | new (isNew : Bool)
  | done
  | drained (es : List Entity)

namespace Operation

/-- The entities that an operation names, each with what is written into its bag. -/
def entities : Operation → List (Entity × Bag)
  | .register e => [(e, .empty)]
  | .set e name value => [(e, .ofList [(name, value)])]
  | .merge e bag => [(e, bag)]
  | .connect r _ => [(r.source, .empty), (r.target, .empty)]
  | .drain | .relate _ _ => []

/-- The relationships that an operation names, each with what is written into its bag. -/
def links : Operation → List (Relationship × Bag)
  | .connect r bag | .relate r bag => [(r, bag)]
  | _ => []

def isDrain : Operation → Bool
  | .drain => true
  | _ => false

end Operation

namespace Reply

def entities : Reply → List Entity
  | .drained es => es
  | _ => []

def isDrained : Reply → Bool
  | .drained _ => true
  | _ => false

end Reply

def perform (g : Graph) : Operation → Reply × Graph
  | .register e => (.new !g.contains e.key, g.register e)
  | .set e name value => (.done, g.set e name value)
  | .merge e bag => (.done, g.merge e bag)
  | .drain => (.drained g.drain.1, g.drain.2)
  | .connect r bag => (.new !g.isRelated r.key, g.connect r bag)
  | .relate r bag => (.new !g.isRelated r.key, g.relate r bag)

/-- Some operations, one after the other, with what each answers. -/
def performAll (g : Graph) : List Operation → List Reply × Graph
  | [] => ([], g)
  | op :: ops =>
    let (reply, next) := g.perform op
    let (replies, last) := next.performAll ops
    (reply :: replies, last)

/-! ## Graphs -/

theorem keys_nodes (g : Graph) : (g.nodes.map fun n => n.1.key) = g.keys := by
  rw [← map_key_entities, entities, List.map_map]
  rfl

theorem not_contains (g : Graph) (k : EntityKey) : (!g.contains k) = decide (k ∉ g.nodes.map fun n => n.1.key) := by
  rw [keys_nodes, decide_not]
  rfl

theorem not_isRelated (g : Graph) (k : RelationKey) :
    (!g.isRelated k) = decide (k ∉ g.relationships.map fun r => r.1.key) := by
  rw [map_key_relationships, decide_not]
  rfl

/-- A change of a value in its place, seen through the items and bags of a registry. -/
theorem map_entries_modify {κ ι α : Type} [DecidableEq κ] {key : ι → κ} {view : κ × α → ι × Bag} {change : α → α}
    {bag : Bag} (r : Registry κ α) (k : κ) (keyed : ∀ e, key (view e).1 = e.1)
    (merged : ∀ e, view (e.1, change e.2) = ((view e).1, (view e).2.merge bag)) :
    (r.modify k change).entries.map view =
      (r.entries.map view).map fun h => if key h.1 = k then (h.1, h.2.merge bag) else h := by
  rw [Registry.entries_modify, List.map_map, List.map_map]
  apply List.map_congr_left
  intro e _
  rw [Function.comp, Function.comp, keyed]
  split
  · exact merged e
  · rfl

theorem nodes_merge (g : Graph) (e : Entity) (bag : Bag) :
    (g.merge e bag).nodes = touch Entity.key g.nodes (e, bag) := by
  by_cases known : e.key ∈ g.keys
  · rw [touch_of_mem (keys_nodes g ▸ known), merge, Registry.register_of_mem known]
    exact map_entries_modify g.vertices e.key (fun _ => rfl) fun _ => rfl
  · have split : (g.register e).nodes = g.nodes ++ (e, .empty) :: [] := nodes_register_of_not_mem known
    rw [touch_of_not_mem (keys_nodes g ▸ known), ← merge_register, nodes_merge_of_split split, Bag.empty_merge]

theorem nodes_register (g : Graph) (e : Entity) : (g.register e).nodes = touch Entity.key g.nodes (e, .empty) := by
  by_cases known : e.key ∈ g.keys
  · rw [register_of_mem known, touch_empty_of_mem (keys_nodes g ▸ known)]
  · rw [nodes_register_of_not_mem known, touch_of_not_mem (keys_nodes g ▸ known)]

theorem relationships_relate (g : Graph) (r : Relationship) (bag : Bag) :
    (g.relate r bag).relationships = touch Relationship.key g.relationships (r, bag) := by
  by_cases known : r.key ∈ g.relationKeys
  · rw [touch_of_mem (map_key_relationships g ▸ known), relate, if_pos (isRelated_iff.mpr known)]
    exact map_entries_modify g.links r.key (fun _ => rfl) fun _ => rfl
  · rw [relationships_relate_of_not_mem known, touch_of_not_mem (map_key_relationships g ▸ known)]

theorem nodes_perform (g : Graph) (op : Operation) :
    (g.perform op).2.nodes = op.entities.foldl (touch Entity.key) g.nodes := by
  cases op with
  | register e => exact nodes_register g e
  | set e name value => exact nodes_merge g e _
  | merge e bag => exact nodes_merge g e bag
  | drain => rfl
  | connect r bag => simp [perform, connect, Operation.entities, nodes_register]
  | relate r bag => exact nodes_relate g r bag

theorem relationships_perform (g : Graph) (op : Operation) :
    (g.perform op).2.relationships = op.links.foldl (touch Relationship.key) g.relationships := by
  cases op with
  | register | set | merge | drain => rfl
  | connect r bag =>
    simp [perform, connect, Operation.links, relationships_relate]
  | relate r bag => exact relationships_relate g r bag

theorem nodes_performAll (g : Graph) (ops : List Operation) :
    (g.performAll ops).2.nodes = (ops.flatMap Operation.entities).foldl (touch Entity.key) g.nodes := by
  induction ops generalizing g with
  | nil => rfl
  | cons op ops ih =>
    rw [List.flatMap_cons, List.foldl_append, ← nodes_perform]
    exact ih _

theorem relationships_performAll (g : Graph) (ops : List Operation) :
    (g.performAll ops).2.relationships = (ops.flatMap Operation.links).foldl (touch Relationship.key) g.relationships := by
  induction ops generalizing g with
  | nil => rfl
  | cons op ops ih =>
    rw [List.flatMap_cons, List.foldl_append, ← relationships_perform]
    exact ih _

/-- A new graph holds what was gathered for its keys. -/
theorem nodes_run (ops : List Operation) :
    (empty.performAll ops).2.nodes = gather Entity.key (ops.flatMap Operation.entities) := by
  rw [nodes_performAll]
  exact foldl_touch [] _

theorem relationships_run (ops : List Operation) :
    (empty.performAll ops).2.relationships = gather Relationship.key (ops.flatMap Operation.links) := by
  rw [relationships_performAll]
  exact foldl_touch [] _

/-- An entity is new if and only if its key was not named. -/
theorem not_contains_run (ops : List Operation) (k : EntityKey) :
    (!(empty.performAll ops).2.contains k) = decide (k ∉ (ops.flatMap Operation.entities).map fun t => t.1.key) := by
  rw [not_contains, nodes_run]
  exact decide_eq_decide.mpr (not_congr mem_keys_gather)

/-- An edge is new if and only if its key was not named. -/
theorem not_isRelated_run (ops : List Operation) (k : RelationKey) :
    (!(empty.performAll ops).2.isRelated k) = decide (k ∉ (ops.flatMap Operation.links).map fun t => t.1.key) := by
  rw [not_isRelated, relationships_run]
  exact decide_eq_decide.mpr (not_congr mem_keys_gather)

/-- Where every edge was connected, its ends were named. -/
theorem ends_named {ops : List Operation} (connected : ∀ op ∈ ops, ∀ r bag, op ≠ .relate r bag) {r : Relationship}
    (h : r ∈ (ops.flatMap Operation.links).map Prod.fst) :
    (r.source.key ∈ (ops.flatMap Operation.entities).map fun t => t.1.key) ∧
      r.target.key ∈ (ops.flatMap Operation.entities).map fun t => t.1.key := by
  obtain ⟨⟨r', bag⟩, mem, hr⟩ := List.mem_map.mp h
  obtain rfl : r' = r := hr
  obtain ⟨op, hop, link⟩ := List.mem_flatMap.mp mem
  have named : ∀ t ∈ op.entities, t.1.key ∈ (ops.flatMap Operation.entities).map fun t => t.1.key := fun t ht =>
    List.mem_map.mpr ⟨t, List.mem_flatMap.mpr ⟨op, hop, ht⟩, rfl⟩
  cases op with
  | connect r' bag' =>
    obtain ⟨rfl, rfl⟩ := Prod.mk.inj (List.mem_singleton.mp link)
    exact ⟨named (r'.source, .empty) (by simp [Operation.entities]), named (r'.target, .empty) (by simp [Operation.entities])⟩
  | relate r' bag' => exact absurd rfl (connected _ hop r' bag')
  | register | set | merge | drain => cases link

/-! ## Answers -/

theorem performAll_cons (g : Graph) (op : Operation) (ops : List Operation) :
    g.performAll (op :: ops) =
      ((g.perform op).1 :: ((g.perform op).2.performAll ops).1, ((g.perform op).2.performAll ops).2) :=
  rfl

theorem performAll_append (g : Graph) (before after : List Operation) :
    g.performAll (before ++ after) =
      ((g.performAll before).1 ++ ((g.performAll before).2.performAll after).1,
        ((g.performAll before).2.performAll after).2) := by
  induction before generalizing g with
  | nil => rfl
  | cons op before ih => rw [List.cons_append, performAll_cons, performAll_cons, ih, List.cons_append]

@[simp] theorem length_replies (g : Graph) (ops : List Operation) : (g.performAll ops).1.length = ops.length := by
  induction ops generalizing g with
  | nil => rfl
  | cons op ops ih => rw [performAll_cons, List.length_cons, ih, List.length_cons]

/-- What an operation answers depends on the operations before it. -/
theorem getElem?_replies (g : Graph) (before : List Operation) (op : Operation) (after : List Operation) :
    (g.performAll (before ++ op :: after)).1[before.length]? = some ((g.performAll before).2.perform op).1 := by
  have count : (g.performAll before).1.length = before.length := length_replies g before
  rw [performAll_append, performAll_cons, List.getElem?_append_right (Nat.le_of_eq count), count, Nat.sub_self]
  rfl

/-! ## Drains -/

theorem entities_prefix_perform (g : Graph) (op : Operation) : g.entities <+: (g.perform op).2.entities := by
  rw [entities, entities, nodes_perform]
  exact prefix_foldl_touch _ _

/-- The entities that have been drained. -/
def gone (g : Graph) : List Entity :=
  g.entities.take g.drained

theorem gone_append_frontier (g : Graph) : g.gone ++ g.frontier = g.entities := by
  rw [gone, frontier_eq, List.take_append_drop]

theorem isDrained_perform (g : Graph) (op : Operation) : (g.perform op).1.isDrained = op.isDrain := by
  cases op <;> rfl

/-- Only a drain takes anything. -/
theorem perform_of_not_drain (g : Graph) {op : Operation} (other : op.isDrain = false) :
    (g.perform op).2.drained = g.drained ∧ (g.perform op).1.entities = [] := by
  cases op with
  | drain => cases other
  | register | set | merge | connect | relate => simp [perform, set, Reply.entities]

/-- What an operation takes from the frontier is gone, and nothing else is. -/
theorem gone_perform (g : Graph) (h : g.drained ≤ g.nodeCount) (op : Operation) :
    (g.perform op).2.gone = g.gone ++ (g.perform op).1.entities ∧
      (g.perform op).2.drained ≤ (g.perform op).2.nodeCount := by
  rcases Bool.eq_false_or_eq_true op.isDrain with drains | other
  · cases op with
    | drain =>
      have all : g.vertices.size = g.entities.length := (length_entities g).symm
      refine ⟨?_, Nat.le_refl _⟩
      show g.entities.take g.vertices.size = g.gone ++ g.frontier
      rw [gone_append_frontier, all, List.take_length]
    | register | set | merge | connect | relate => cases drains
  · obtain ⟨same, none⟩ := perform_of_not_drain g other
    obtain ⟨new, grown⟩ := entities_prefix_perform g op
    rw [← length_entities] at h
    rw [gone, same, ← length_entities, ← grown, none, List.append_nil, List.take_append_of_le_length h,
      List.length_append]
    exact ⟨rfl, Nat.le_add_right_of_le h⟩

/-- What all the drains of a run took is gone, in this order. -/
theorem gone_performAll (g : Graph) (h : g.drained ≤ g.nodeCount) (ops : List Operation) :
    (g.performAll ops).2.gone = g.gone ++ (g.performAll ops).1.flatMap Reply.entities := by
  induction ops generalizing g with
  | nil => exact (List.append_nil _).symm
  | cons op ops ih =>
    obtain ⟨here, le⟩ := gone_perform g h op
    rw [performAll_cons, ih _ le, here, List.flatMap_cons, List.append_assoc]

theorem relate_with_drained (g : Graph) (n : Nat) (r : Relationship) (bag : Bag) :
    ({ g with drained := n } : Graph).relate r bag = { g.relate r bag with drained := n } := by
  have same : ({ g with drained := n } : Graph).isRelated r.key = g.isRelated r.key := rfl
  rw [relate, relate, same]
  split <;> rfl

/-- What the drains answered and what is waiting are all entities of a new graph. -/
theorem drained_append_frontier (ops : List Operation) :
    (empty.performAll ops).1.flatMap Reply.entities ++ (empty.performAll ops).2.frontier =
      (empty.performAll ops).2.entities := by
  have none : empty.gone = [] := rfl
  rw [← gone_append_frontier, gone_performAll empty (Nat.le_refl 0), none, List.nil_append]

/-- Where nothing comes twice, what a drain answered is neither drained later nor waiting. -/
theorem not_mem_later {replies : List Reply} {pending : List Entity}
    (nodup : ((replies.flatMap Reply.entities ++ pending).map Entity.key).Nodup) {place : Nat} {es : List Entity}
    (here : replies[place]? = some (.drained es)) {e : Entity} (mem : e ∈ es) :
    e.key ∉ ((replies.drop (place + 1)).flatMap Reply.entities ++ pending).map Entity.key := by
  obtain ⟨inside, reply⟩ := List.getElem?_eq_some_iff.mp here
  have split : replies = replies.take place ++ .drained es :: replies.drop (place + 1) := by
    rw [← reply, ← List.drop_eq_getElem_cons inside, List.take_append_drop]
  rw [split, List.flatMap_append, List.flatMap_cons, List.append_assoc, List.append_assoc, List.map_append] at nodup
  have fromHere := (List.nodup_append.mp nodup).2.1
  rw [List.map_append] at fromHere
  exact fun later => (List.nodup_append.mp fromHere).2.2 _ (List.mem_map_of_mem mem) _ later rfl

/-- A graph of which something else has been drained answers the same. -/
theorem perform_with_drained (g : Graph) (n : Nat) {op : Operation} (other : op.isDrain = false) :
    ({ g with drained := n } : Graph).perform op = ((g.perform op).1, { (g.perform op).2 with drained := n }) := by
  cases op with
  | drain => cases other
  | register | set | merge => rfl
  | connect r bag => exact congrArg (Prod.mk _) (relate_with_drained ((g.register r.source).register r.target) n r bag)
  | relate r bag => exact congrArg (Prod.mk _) (relate_with_drained g n r bag)

/-- Without its drains a run answers the same, and leads to the same but for what has been drained. -/
theorem performAll_without_drains (g : Graph) (n : Nat) (ops : List Operation) :
    ({ g with drained := n } : Graph).performAll (ops.filter fun op => !op.isDrain) =
      ((g.performAll ops).1.filter fun reply => !reply.isDrained, { (g.performAll ops).2 with drained := n }) := by
  induction ops generalizing g with
  | nil => rfl
  | cons op ops ih =>
    rw [performAll_cons, List.filter_cons, List.filter_cons, isDrained_perform]
    rcases Bool.eq_false_or_eq_true op.isDrain with drains | other
    · simp only [drains, Bool.not_true, Bool.false_eq_true, ↓reduceIte]
      cases op with
      | drain => exact ih { g with drained := g.vertices.size }
      | register | set | merge | connect | relate => cases drains
    · simp only [other, Bool.not_false, ↓reduceIte]
      rw [performAll_cons, perform_with_drained g n other, ih]

end ProgramGraph.Graph
