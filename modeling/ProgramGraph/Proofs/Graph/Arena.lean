import ProgramGraph.Graph.Arena
import ProgramGraph.Proofs.Graph.History

/-!
# ProgramGraph.Proofs.Graph.Arena

Arenas hold what a graph holds.

* `Arena.Holds`          — the entries of an arena are a given list, and the index is its inverse: it has for a key the one
  place where an entry with this key stands. Every place that the index gives is therefore inside the array.
* `NodeArena.Holds`      — the frontier is the places behind those that have been drained.
* `GraphArena.Represents` — the arenas hold the nodes and relationships of a graph. `performAll_represents`: they do so after
  any operations, with the same replies, and never ask for a place that is not there.
-/

namespace ProgramGraph.Graph

open Program

/-! ## One arena -/

namespace Arena

variable {κ ι : Type} [DecidableEq κ] [Hashable κ] {key : ι → κ} {a : Arena κ ι} {held : List (ι × Bag)} {k : κ}

/-- The entries of an arena, with an index that is their inverse. -/
structure Holds (key : ι → κ) (a : Arena κ ι) (held : List (ι × Bag)) : Prop where
  entries : a.entries.toList = held
  index : ∀ k place, a.index[k]? = some place ↔ ∃ h, held[place]? = some h ∧ key h.1 = k

theorem holds_empty : (empty : Arena κ ι).Holds key [] where
  entries := rfl
  index k place := by simp [empty]

namespace Holds

theorem size_eq (h : a.Holds key held) : a.size = held.length := by
  rw [size, ← h.entries, Array.length_toList]

theorem mem_of_index (h : a.Holds key held) {place : Nat} (found : a.index[k]? = some place) :
    k ∈ held.map fun e => key e.1 := by
  obtain ⟨e, here, same⟩ := (h.index k place).mp found
  exact List.mem_map.mpr ⟨e, List.mem_of_getElem? here, same⟩

theorem index_eq_none_iff (h : a.Holds key held) : a.index[k]? = none ↔ k ∉ held.map fun e => key e.1 := by
  rw [Option.eq_none_iff_forall_ne_some, List.mem_map]
  constructor
  · rintro none ⟨e, mem, same⟩
    obtain ⟨place, found⟩ := List.mem_iff_getElem?.mp mem
    exact none place ((h.index k place).mpr ⟨e, found, same⟩)
  · intro unknown place found
    exact unknown (List.mem_map.mp (h.mem_of_index found))

theorem contains_eq (h : a.Holds key held) (k : κ) : a.contains k = decide (k ∈ held.map fun e => key e.1) := by
  rw [contains, Std.HashMap.contains_eq_isSome_getElem?, Bool.eq_iff_iff, decide_eq_true_iff, Option.isSome_iff_ne_none,
    ne_eq, h.index_eq_none_iff, not_not]

theorem read (h : a.Holds key held) {place : Nat} {e : ι × Bag} (here : held[place]? = some e) :
    a.read place = .ok e := by
  rw [← h.entries, Array.getElem?_toList] at here
  obtain ⟨inside, rfl⟩ := Array.getElem?_eq_some_iff.mp here
  exact dif_pos inside

/-- No other place has an entry with the key. -/
theorem place_unique (h : a.Holds key held) {place other : Nat} {e : ι × Bag} (found : a.index[k]? = some place)
    (there : held[other]? = some e) (same : key e.1 = k) : other = place := by
  have := (h.index k other).mpr ⟨e, there, same⟩
  exact Option.some.inj (this.symm.trans found)

/-- A look-up stays inside the array, and finds the one entry with the key. -/
theorem exists_get? (h : a.Holds key held) (k : κ) :
    ∃ answer, a.get? k = .ok answer ∧ ∀ e, answer = some e ↔ e ∈ held ∧ key e.1 = k := by
  rw [Arena.get?]
  cases found : a.index[k]? with
  | none =>
    refine ⟨none, rfl, fun e => ⟨nofun, ?_⟩⟩
    rintro ⟨mem, same⟩
    exact absurd (List.mem_map.mpr ⟨e, mem, same⟩) (h.index_eq_none_iff.mp found)
  | some place =>
    obtain ⟨e, here, same⟩ := (h.index k place).mp found
    refine ⟨some e, ?_, fun d => ⟨?_, ?_⟩⟩
    · show (a.read place).map some = _
      rw [h.read here]
      rfl
    · rintro ⟨⟩
      exact ⟨List.mem_of_getElem? here, same⟩
    · rintro ⟨mem, hk⟩
      obtain ⟨other, there⟩ := List.mem_iff_getElem?.mp mem
      obtain rfl := h.place_unique found there hk
      exact here.symm.trans there

/-- A look-up in an arena finds what any other look-up in the same entries finds. -/
theorem get?_eq (h : a.Holds key held) {find : Option (ι × Bag)} (finds : ∀ e, find = some e ↔ e ∈ held ∧ key e.1 = k) :
    a.get? k = .ok find := by
  obtain ⟨answer, got, answers⟩ := h.exists_get? k
  have same : answer = find := Option.ext fun e => (answers e).trans (finds e).symm
  rw [got, same]

theorem push (h : a.Holds key held) {item : ι} (new : key item ∉ held.map fun e => key e.1) (bag : Bag) :
    (a.push (key item) item bag).Holds key (held ++ [(item, bag)]) where
  entries := by rw [Arena.push, Array.toList_push, h.entries]
  index k place := by
    rw [Arena.push, Std.HashMap.getElem?_insert, h.size_eq]
    by_cases same : key item = k
    · -- the key is new, so its only place is the last one
      subst same
      rw [beq_self_eq_true, if_pos rfl, Option.some_inj]
      constructor
      · rintro rfl
        exact ⟨_, List.getElem?_concat_length, rfl⟩
      · rintro ⟨e, here, same⟩
        rw [List.getElem?_append] at here
        split at here
        · exact absurd (List.mem_map.mpr ⟨e, List.mem_of_getElem? here, same⟩) new
        · have := (List.getElem?_eq_some_iff.mp here).1
          simp only [List.length_singleton] at this
          omega
    · rw [if_neg (by simpa using same), h.index]
      constructor
      · rintro ⟨e, here, hk⟩
        exact ⟨e, by rw [List.getElem?_append_left (List.getElem?_eq_some_iff.mp here).1, here], hk⟩
      · rintro ⟨e, here, hk⟩
        rw [List.getElem?_append] at here
        split at here
        · exact ⟨e, here, hk⟩
        · rw [List.mem_singleton.mp (List.mem_of_getElem? here)] at hk
          exact absurd hk same

/-- A place from the index is inside the array, and no other entry has its key. -/
theorem write (h : a.Holds key held) {place : Nat} (found : a.index[k]? = some place) (change : Bag → Bag) :
    ∃ a', a.write place change = .ok a' ∧
      a'.Holds key (held.map fun e => if key e.1 = k then (e.1, change e.2) else e) := by
  obtain ⟨e, here, same⟩ := (h.index k place).mp found
  have inside : place < a.entries.size := by
    rw [← Array.length_toList, h.entries]
    exact (List.getElem?_eq_some_iff.mp here).1
  have entry : a.entries[place] = e := by
    have := h.read here
    rw [Arena.read, dif_pos inside] at this
    exact Except.ok.inj this
  refine ⟨_, dif_pos inside, ?entries, ?index⟩
  case entries =>
    rw [Array.toList_set, h.entries, entry]
    apply List.ext_getElem?
    intro other
    rw [List.getElem?_set, List.getElem?_map]
    by_cases this : place = other
    · subst this
      rw [if_pos rfl, if_pos (List.getElem?_eq_some_iff.mp here).1, here, Option.map_some, if_pos same]
    · rw [if_neg this]
      cases there : held[other]? with
      | none => rfl
      | some d => rw [Option.map_some, if_neg fun hk => this (h.place_unique found there hk).symm]
  case index =>
    -- keys are as before, place by place
    intro k' other
    rw [h.index, List.getElem?_map]
    cases there : held[other]? with
    | none => simp
    | some d =>
      rw [Option.map_some]
      split <;> simp

/-- Relating does to the list what it does to an ordered map. -/
theorem relate {a : Arena RelationKey Relationship} {held : List (Relationship × Bag)} (h : a.Holds Relationship.key held)
    (r : Relationship) (bag : Bag) :
    ∃ a', a.relate r bag = .ok (decide (r.key ∉ held.map fun e => e.1.key), a') ∧
      a'.Holds Relationship.key (touch Relationship.key held (r, bag)) := by
  rw [Arena.relate]
  cases found : a.index[r.key]? with
  | none =>
    have new := h.index_eq_none_iff.mp found
    rw [touch_of_not_mem new, decide_eq_true new]
    exact ⟨_, rfl, h.push new bag⟩
  | some place =>
    have known := h.mem_of_index found
    obtain ⟨a', written, holds⟩ := h.write found fun old => old.merge bag
    rw [touch_of_mem known, decide_eq_false (not_not_intro known)]
    refine ⟨a', ?_, holds⟩
    simp only [written]
    rfl

end Holds
end Arena

/-! ## Entities and the frontier -/

namespace NodeArena

/-- An arena with entities of which some have been drained; the frontier has the places of the others. -/
structure Holds (n : NodeArena) (held : List (Entity × Bag)) (drained : Nat) : Prop where
  arena : n.arena.Holds Entity.key held
  frontier : n.frontier = List.range' drained (held.length - drained)
  drained_le : drained ≤ held.length

theorem holds_empty : empty.Holds [] 0 where
  arena := Arena.holds_empty
  frontier := rfl
  drained_le := Nat.le_refl 0

namespace Holds

variable {n : NodeArena} {held : List (Entity × Bag)} {drained : Nat}

theorem register (h : n.Holds held drained) (e : Entity) :
    (n.register e).1 = decide (e.key ∉ held.map fun d => d.1.key) ∧
      (n.register e).2.Holds (touch Entity.key held (e, .empty)) drained := by
  rw [NodeArena.register, h.arena.contains_eq]
  by_cases known : e.key ∈ held.map fun d => d.1.key
  · rw [touch_empty_of_mem known]
    simpa [known] using h
  · rw [touch_of_not_mem known, if_neg (by simpa using known)]
    refine ⟨by simpa using known, h.arena.push known .empty, ?frontier, ?drained⟩
    case frontier =>
      have : (held ++ [(e, Bag.empty)]).length - drained = held.length - drained + 1 := by
        have := h.drained_le
        rw [List.length_append, List.length_singleton]
        omega
      rw [this, List.range'_concat, ← h.frontier, h.arena.size_eq, Nat.one_mul, Nat.add_sub_of_le h.drained_le]
    case drained => exact Nat.le_trans h.drained_le (by simp)

/-- The place of an entity is known to the index; if the entity was new, it is the last one. -/
theorem placeFor (h : n.Holds held drained) (e : Entity) :
    (n.placeFor e).2.Holds (touch Entity.key held (e, .empty)) drained ∧
      (n.placeFor e).2.arena.index[e.key]? = some (n.placeFor e).1 := by
  rw [NodeArena.placeFor]
  cases found : n.arena.index[e.key]? with
  | some place =>
    rw [touch_empty_of_mem (h.arena.mem_of_index found)]
    exact ⟨h, found⟩
  | none =>
    have new := h.arena.index_eq_none_iff.mp found
    have registered := (h.register e).2
    refine ⟨registered, (registered.arena.index _ _).mpr ⟨(e, .empty), ?_, rfl⟩⟩
    show (touch Entity.key held (e, .empty))[(n.register e).2.arena.size - 1]? = _
    rw [registered.arena.size_eq, touch_of_not_mem new, List.length_append, List.length_singleton, Nat.add_sub_cancel]
    exact List.getElem?_concat_length

theorem alter (h : n.Holds held drained) (e : Entity) (change : Bag → Bag) :
    ∃ n', n.alter e change = .ok n' ∧
      n'.Holds ((touch Entity.key held (e, .empty)).map fun d => if d.1.key = e.key then (d.1, change d.2) else d)
        drained := by
  obtain ⟨known, found⟩ := h.placeFor e
  obtain ⟨written, done, holds⟩ := known.arena.write found change
  refine ⟨{ (n.placeFor e).2 with arena := written }, ?_, holds, ?frontier, ?drained⟩
  · rw [NodeArena.alter]
    simp only [done]
    rfl
  case frontier => rw [known.frontier, List.length_map]
  case drained =>
    rw [List.length_map]
    exact known.drained_le

theorem merge (h : n.Holds held drained) (e : Entity) (bag : Bag) :
    ∃ n', n.merge e bag = .ok n' ∧ n'.Holds (touch Entity.key held (e, bag)) drained := by
  rw [← map_touch_empty]
  exact h.alter e _

theorem set (h : n.Holds held drained) (e : Entity) (name : String) (value : Property) :
    ∃ n', n.set e name value = .ok n' ∧ n'.Holds (touch Entity.key held (e, .ofList [(name, value)])) drained := by
  -- a value is a bag with nothing else
  have same : n.set e name value = n.merge e (.ofList [(name, value)]) := by
    rw [NodeArena.set, NodeArena.merge]
    congr 1
    funext bag
    exact Bag.insert_eq_merge bag name value
  rw [same]
  exact h.merge e _

end Holds

theorem read_range' {a : Arena EntityKey Entity} {held : List (Entity × Bag)} (h : a.Holds Entity.key held) :
    ∀ {start count : Nat}, start + count ≤ held.length →
      ((List.range' start count).mapM fun place => (a.read place).map Prod.fst) =
        .ok (((held.drop start).take count).map Prod.fst)
  | start, 0, _ => by
    rw [List.take_zero]
    rfl
  | start, count + 1, le => by
    have inside : start < held.length := by omega
    have here : held[start]? = some held[start] := List.getElem?_eq_getElem inside
    rw [List.range'_succ, List.mapM_cons, h.read here, read_range' h (by omega), List.drop_eq_getElem_cons inside]
    rfl

/-- What is drained is what was not drained before. -/
theorem Holds.drain {n : NodeArena} {held : List (Entity × Bag)} {drained : Nat} (h : n.Holds held drained) :
    n.drain = .ok ((held.map Prod.fst).drop drained, { n with frontier := [] }) ∧
      ({ n with frontier := [] } : NodeArena).Holds held held.length := by
  refine ⟨?answer, h.arena, ?frontier, Nat.le_refl _⟩
  case answer =>
    have le : drained + (held.length - drained) ≤ held.length := by
      have := h.drained_le
      omega
    rw [NodeArena.drain, h.frontier, read_range' h.arena le, ← List.length_drop, List.take_length, List.map_drop]
    rfl
  case frontier => rw [Nat.sub_self, List.range'_zero]

end NodeArena

/-! ## Graphs -/

namespace GraphArena

def perform (s : GraphArena) : Operation → Except OutOfBounds (Reply × GraphArena)
  | .register e =>
    let (new, nodes) := s.nodes.register e
    .ok (.new new, { s with nodes })
  | .set e name value => (s.nodes.set e name value).map fun nodes => (.done, { s with nodes })
  | .merge e bag => (s.nodes.merge e bag).map fun nodes => (.done, { s with nodes })
  | .drain => s.nodes.drain.map fun (pending, nodes) => (.drained pending, { s with nodes })
  | .connect r bag => (s.connect r bag).map fun (new, next) => (.new new, next)
  | .relate r bag => (s.links.relate r bag).map fun (new, links) => (.new new, { s with links })

/-- Some operations, one after the other, with what each answers. -/
def performAll (s : GraphArena) : List Operation → Except OutOfBounds (List Reply × GraphArena)
  | [] => .ok ([], s)
  | op :: ops => do
    let (reply, next) ← s.perform op
    let (replies, last) ← next.performAll ops
    return (reply :: replies, last)

/-- The arenas hold the nodes and the relationships of a graph, and the same entities are waiting. -/
structure Represents (s : GraphArena) (g : Graph) : Prop where
  nodes : s.nodes.Holds g.nodes g.drained
  links : s.links.Holds Relationship.key g.relationships

theorem represents_empty : empty.Represents .empty where
  nodes := NodeArena.holds_empty
  links := Arena.holds_empty

variable {s : GraphArena} {g : Graph}

theorem Represents.get? (h : s.Represents g) (k : EntityKey) : s.nodes.arena.get? k = .ok (g.get? k) :=
  h.nodes.arena.get?_eq fun _ => get?_eq_some_iff

theorem Represents.getRelationship? (h : s.Represents g) (k : RelationKey) :
    s.links.get? k = .ok (g.getRelationship? k) :=
  h.links.get?_eq fun _ => getRelationship?_eq_some_iff

/-- One operation does to the arenas what it does to the graph. -/
theorem perform_represents (h : s.Represents g) (op : Operation) :
    ∃ s', s.perform op = .ok ((g.perform op).1, s') ∧ s'.Represents (g.perform op).2 := by
  cases op with
  | register e =>
    obtain ⟨new, nodes⟩ := h.nodes.register e
    refine ⟨{ s with nodes := (s.nodes.register e).2 }, ?reply, nodes_register g e ▸ nodes, h.links⟩
    case reply =>
      show Except.ok (Reply.new (s.nodes.register e).1, _) = _
      rw [new, ← not_contains]
      rfl
  | set e name value =>
    obtain ⟨written, done, nodes⟩ := h.nodes.set e name value
    refine ⟨{ s with nodes := written }, ?reply, nodes_merge g e _ ▸ nodes, h.links⟩
    case reply =>
      rw [perform, done]
      rfl
  | merge e bag =>
    obtain ⟨written, done, nodes⟩ := h.nodes.merge e bag
    refine ⟨{ s with nodes := written }, ?reply, nodes_merge g e _ ▸ nodes, h.links⟩
    case reply =>
      rw [perform, done]
      rfl
  | drain =>
    obtain ⟨done, nodes⟩ := h.nodes.drain
    have all : g.nodes.length = (g.perform .drain).2.drained := List.length_map _
    refine ⟨{ s with nodes := { s.nodes with frontier := [] } }, ?reply, all ▸ nodes, h.links⟩
    case reply =>
      have pending : (g.nodes.map Prod.fst).drop g.drained = g.frontier := (frontier_eq g).symm
      rw [perform, done, pending]
      rfl
  | connect r bag =>
    obtain ⟨written, done, links⟩ := h.links.relate r bag
    have ends := ((h.nodes.register r.source).2.register r.target).2
    refine ⟨⟨((s.nodes.register r.source).2.register r.target).2, written⟩, ?reply, ?nodes, ?links⟩
    case reply =>
      show ((s.links.relate r bag).map fun _ => _).map (fun _ => _) = _
      rw [done, ← not_isRelated]
      rfl
    case nodes => simpa [Graph.perform, Graph.connect, nodes_register] using ends
    case links => exact relationships_perform g (.connect r bag) ▸ links
  | relate r bag =>
    obtain ⟨written, done, links⟩ := h.links.relate r bag
    refine ⟨{ s with links := written }, ?reply, ?nodes, relationships_relate g r bag ▸ links⟩
    case reply =>
      rw [perform, done, ← not_isRelated]
      rfl
    case nodes => simpa [Graph.perform] using h.nodes

/-- The arenas answer as the graph does, whatever the operations. -/
theorem performAll_represents (h : s.Represents g) (ops : List Operation) :
    ∃ s', s.performAll ops = .ok ((g.performAll ops).1, s') ∧ s'.Represents (g.performAll ops).2 := by
  induction ops generalizing s g with
  | nil => exact ⟨s, rfl, h⟩
  | cons op ops ih =>
    obtain ⟨next, performed, represents⟩ := perform_represents h op
    obtain ⟨last, rest, final⟩ := ih represents
    refine ⟨last, ?_, final⟩
    rw [performAll, performed]
    show (next.performAll ops >>= _) = _
    rw [rest]
    rfl

end GraphArena
end ProgramGraph.Graph
