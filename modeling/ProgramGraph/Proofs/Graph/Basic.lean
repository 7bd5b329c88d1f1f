import Mathlib.Data.List.Induction
import Mathlib.Data.List.Nodup
import ProgramGraph.Graph.Basic
import ProgramGraph.Proofs.Graph.Registry

/-!
# ProgramGraph.Proofs.Graph.Basic

What the operations of a graph do to its views, the entities and the relationships in order of registration.

* `Graph.entities`, `Graph.keys`, `Graph.relationKeys` — the entities and the keys in order of registration; keys differ.
* `Graph.registerAll` — make a list of entities known, one after the other: the unknown ones come to stand at the end,
  with empty bags.
* `Graph.nodes_merge_of_split`, `Graph.relationships_relate_of_not_mem` — writing a bag changes one node in its place, and
  a new edge is appended.
-/

namespace ProgramGraph.Graph

/-- Inserting all entries of a map writes them over what is there. -/
theorem getElem?_insertMany_toList {α : Type} (v t : Std.ExtTreeMap String α compare) (name : String) :
    (v.insertMany t.toList)[name]? = t[name]?.or v[name]? := by
  cases found : t[name]? with
  | some value =>
    exact Std.ExtTreeMap.getElem?_insertMany_list_of_mem (Std.ReflCmp.compare_self) Std.ExtTreeMap.distinct_keys_toList
      (Std.ExtTreeMap.mem_toList_iff_getElem?_eq_some.mpr found)
  | none =>
    have absent : name ∉ t := by
      rw [Std.ExtTreeMap.mem_iff_isSome_getElem?, found]
      exact Bool.false_ne_true
    refine Std.ExtTreeMap.getElem?_insertMany_list_of_contains_eq_false ?_
    rw [Std.ExtTreeMap.map_fst_toList_eq_keys, Bool.eq_false_iff, ne_eq, List.contains_iff_mem, Std.ExtTreeMap.mem_keys]
    exact absent

namespace Bag

/-- Merging over nothing gives what is merged. -/
@[simp] theorem empty_merge (b : Bag) : Bag.empty.merge b = b := by
  apply Std.ExtTreeMap.ext_getElem?
  intro name
  rw [merge, Std.ExtTreeMap.getElem?_union]
  simp [empty]

/-- Merging nothing changes nothing. -/
@[simp] theorem merge_empty (b : Bag) : b.merge Bag.empty = b := by
  apply Std.ExtTreeMap.ext_getElem?
  intro name
  rw [merge, Std.ExtTreeMap.getElem?_union]
  simp [empty]

/-- Writing one value is merging a bag with nothing else. -/
theorem insert_eq_merge (b : Bag) (name : String) (value : Property) :
    b.insert name value = b.merge (ofList [(name, value)]) := by
  apply Std.ExtTreeMap.ext_getElem?
  intro other
  rw [merge, Std.ExtTreeMap.getElem?_union, ofList, List.foldl_cons, List.foldl_nil, Std.ExtTreeMap.getElem?_insert,
    Std.ExtTreeMap.getElem?_insert]
  split <;> simp [empty]

/-- Merging the same bag once more changes nothing. -/
@[simp] theorem merge_merge_self (a b : Bag) : (a.merge b).merge b = a.merge b := by
  apply Std.ExtTreeMap.ext_getElem?
  intro name
  simp only [merge, Std.ExtTreeMap.getElem?_union]
  cases (b[name]? : Option Property) <;> rfl

theorem mem_foldl_insert {entries : List (String × Property)} {b : Bag} {name : String} :
    name ∈ entries.foldl (fun b e => b.insert e.1 e.2) b ↔ name ∈ b ∨ name ∈ entries.map Prod.fst := by
  induction entries generalizing b with
  | nil => simp
  | cons e entries ih =>
    rw [List.foldl_cons, ih, Std.ExtTreeMap.mem_insert, Std.LawfulEqOrd.compare_eq_iff_eq, List.map_cons, List.mem_cons,
      or_assoc, or_left_comm, @eq_comm _ name]

@[simp] theorem mem_ofList {entries : List (String × Property)} {name : String} :
    name ∈ ofList entries ↔ name ∈ entries.map Prod.fst := by
  rw [ofList, mem_foldl_insert]
  simp [empty]

theorem ofList_concat (entries : List (String × Property)) (e : String × Property) :
    ofList (entries ++ [e]) = (ofList entries).insert e.1 e.2 := by
  simp [ofList]

/-- What a bag holds was put into it. -/
theorem mem_of_getElem?_ofList {entries : List (String × Property)} {name : String} {value : Property}
    (h : (ofList entries)[name]? = some value) : (name, value) ∈ entries := by
  induction entries using List.reverseRecOn with
  | nil => simp [ofList, empty] at h
  | append_singleton entries e ih =>
    rw [ofList_concat, Std.ExtTreeMap.getElem?_insert] at h
    rw [List.mem_append, List.mem_singleton]
    split at h
    · rename_i same
      rw [Std.LawfulEqOrd.compare_eq_iff_eq] at same
      cases h
      exact .inr (by rw [← same])
    · exact .inl (ih h)

theorem getElem?_ofList_of_mem {entries : List (String × Property)} {name : String} {value : Property}
    (different : (entries.map Prod.fst).Nodup) (mem : (name, value) ∈ entries) :
    (ofList entries)[name]? = some value := by
  have known : name ∈ ofList entries := mem_ofList.mpr (List.mem_map_of_mem mem)
  rw [Std.ExtTreeMap.mem_iff_isSome_getElem?, Option.isSome_iff_exists] at known
  obtain ⟨value', held⟩ := known
  have same := List.inj_on_of_nodup_map different (mem_of_getElem?_ofList held) mem rfl
  cases same
  exact held

end Bag

/-- The entities in order of registration. -/
def entities (g : Graph) : List Entity :=
  g.nodes.map Prod.fst

/-- The keys of the entities in order of registration. -/
def keys (g : Graph) : List EntityKey :=
  g.vertices.keys

/-- The keys of the relationships in order of registration. -/
def relationKeys (g : Graph) : List RelationKey :=
  g.links.keys

@[simp] theorem nodes_empty : empty.nodes = [] := rfl

theorem entities_eq (g : Graph) : g.entities = g.vertices.entries.map entityOf := by
  simp [entities, nodes]

theorem map_key_entities (g : Graph) : g.entities.map Entity.key = g.keys := by
  simp [entities_eq, keys, Registry.keys, entityOf]

theorem map_key_relationships (g : Graph) : (g.relationships.map fun r => r.1.key) = g.relationKeys := by
  simp [relationships, relationKeys, Registry.keys, relationshipOf, Relationship.key]

theorem nodup_keys (g : Graph) : g.keys.Nodup :=
  g.vertices.nodup

theorem nodup_relationKeys (g : Graph) : g.relationKeys.Nodup :=
  g.links.nodup

theorem nodup_relationships (g : Graph) : (g.relationships.map Prod.fst).Nodup := by
  have keys : ((g.relationships.map Prod.fst).map Relationship.key).Nodup := by
    rw [List.map_map]
    exact map_key_relationships g ▸ g.nodup_relationKeys
  exact keys.of_map

theorem mem_withRelation {g : Graph} {relation : Relation} {r : Relationship} :
    r ∈ g.withRelation relation ↔ (∃ bag, (r, bag) ∈ g.relationships) ∧ r.relation = relation := by
  simp [withRelation]

theorem mem_keys_of_mem_entities {g : Graph} {e : Entity} (h : e ∈ g.entities) : e.key ∈ g.keys := by
  rw [← map_key_entities]
  exact List.mem_map_of_mem h

theorem nodup_entities (g : Graph) : g.entities.Nodup := by
  have keys := g.nodup_keys
  rw [← map_key_entities] at keys
  exact keys.of_map

@[simp] theorem contains_iff {g : Graph} {k : EntityKey} : g.contains k = true ↔ k ∈ g.keys := by
  simp [contains, keys]

@[simp] theorem isRelated_iff {g : Graph} {k : RelationKey} : g.isRelated k = true ↔ k ∈ g.relationKeys := by
  simp [isRelated, relationKeys]

@[simp] theorem length_entities (g : Graph) : g.entities.length = g.nodeCount := by
  simp [entities_eq, nodeCount, Registry.size]

theorem frontier_eq (g : Graph) : g.frontier = g.entities.drop g.drained := by
  rw [frontier, entities_eq, List.map_drop]

theorem get?_eq_some_iff {g : Graph} {k : EntityKey} {n : Entity × Bag} :
    g.get? k = some n ↔ n ∈ g.nodes ∧ n.1.key = k := by
  rw [get?, Option.map_eq_some_iff, nodes, List.mem_map]
  constructor
  · rintro ⟨v, hv, rfl⟩
    exact ⟨⟨(k, v), Registry.get?_eq_some_iff.mp hv, rfl⟩, rfl⟩
  · rintro ⟨⟨⟨k', v⟩, mem, rfl⟩, rfl⟩
    exact ⟨v, Registry.get?_eq_some_iff.mpr mem, rfl⟩

theorem getRelationship?_eq_some_iff {g : Graph} {k : RelationKey} {r : Relationship × Bag} :
    g.getRelationship? k = some r ↔ r ∈ g.relationships ∧ r.1.key = k := by
  rw [getRelationship?, Option.map_eq_some_iff, relationships, List.mem_map]
  constructor
  · rintro ⟨l, hl, rfl⟩
    exact ⟨⟨(k, l), Registry.get?_eq_some_iff.mp hl, rfl⟩, rfl⟩
  · rintro ⟨⟨⟨k', l⟩, mem, rfl⟩, rfl⟩
    exact ⟨l, Registry.get?_eq_some_iff.mpr mem, rfl⟩

theorem relationship_eq_of_key_eq {g : Graph} {a b : Relationship × Bag} (ha : a ∈ g.relationships)
    (hb : b ∈ g.relationships) (same : a.1.key = b.1.key) : a = b := by
  have found := getRelationship?_eq_some_iff.mpr ⟨ha, same⟩
  rw [getRelationship?_eq_some_iff.mpr ⟨hb, rfl⟩] at found
  exact (Option.some.inj found).symm

/-! ## Registering -/

theorem register_of_mem {g : Graph} {e : Entity} (h : e.key ∈ g.keys) : g.register e = g := by
  rw [register, Registry.register_of_mem h]

theorem nodes_register_of_not_mem {g : Graph} {e : Entity} (h : e.key ∉ g.keys) :
    (g.register e).nodes = g.nodes ++ [(e, .empty)] := by
  rw [nodes, register, Registry.entries_register_of_not_mem h, List.map_append]
  rfl

theorem nodeCount_register (g : Graph) (e : Entity) :
    (g.register e).nodeCount = if e.key ∈ g.keys then g.nodeCount else g.nodeCount + 1 := by
  split
  · rw [register_of_mem ‹_›]
  · rw [← length_entities, ← length_entities, entities, nodes_register_of_not_mem ‹_›]
    simp [entities]

@[simp] theorem relationships_register (g : Graph) (e : Entity) :
    (g.register e).relationships = g.relationships := rfl

theorem mem_keys_register {g : Graph} {e : Entity} {k : EntityKey} :
    k ∈ (g.register e).keys ↔ k ∈ g.keys ∨ k = e.key :=
  Registry.mem_keys_register

/-- Make a list of entities known, one after the other. -/
def registerAll (g : Graph) (es : List Entity) : Graph :=
  es.foldl register g

@[simp] theorem registerAll_nil (g : Graph) : g.registerAll [] = g := rfl

@[simp] theorem registerAll_cons (g : Graph) (e : Entity) (es : List Entity) :
    g.registerAll (e :: es) = (g.register e).registerAll es := rfl

theorem registerAll_append (g : Graph) (es es' : List Entity) :
    g.registerAll (es ++ es') = (g.registerAll es).registerAll es' :=
  List.foldl_append

@[simp] theorem relationships_registerAll (g : Graph) (es : List Entity) :
    (g.registerAll es).relationships = g.relationships := by
  induction es generalizing g with
  | nil => rfl
  | cons e es ih => rw [registerAll_cons, ih, relationships_register]

@[simp] theorem drained_registerAll (g : Graph) (es : List Entity) : (g.registerAll es).drained = g.drained := by
  induction es generalizing g with
  | nil => rfl
  | cons e es ih => rw [registerAll_cons, ih, drained_register]

theorem mem_keys_registerAll {g : Graph} {es : List Entity} {k : EntityKey} :
    k ∈ (g.registerAll es).keys ↔ k ∈ g.keys ∨ k ∈ es.map Entity.key := by
  induction es generalizing g with
  | nil => simp
  | cons e es ih => rw [registerAll_cons, ih, mem_keys_register, List.map_cons, List.mem_cons, or_assoc]

theorem registerAll_of_subset {g : Graph} {es : List Entity} (h : ∀ e ∈ es, e.key ∈ g.keys) :
    g.registerAll es = g := by
  induction es with
  | nil => rfl
  | cons e es ih =>
    rw [registerAll_cons, register_of_mem (h e List.mem_cons_self)]
    exact ih fun e' he' => h e' (List.mem_cons_of_mem _ he')

/-- Making entities known appends the new ones, with empty bags, and leaves the rest alone. -/
theorem nodes_registerAll (g : Graph) (es : List Entity) :
    ∃ fresh : List Entity, (g.registerAll es).nodes = g.nodes ++ fresh.map (fun e => (e, .empty)) ∧
      ∀ e ∈ fresh, e ∈ es ∧ e.key ∉ g.keys := by
  induction es generalizing g with
  | nil => exact ⟨[], by simp, by simp⟩
  | cons e es ih =>
    obtain ⟨fresh, nodes, new⟩ := ih (g.register e)
    rw [registerAll_cons, nodes]
    by_cases h : e.key ∈ g.keys
    · refine ⟨fresh, by rw [register_of_mem h], fun e' he' => ?_⟩
      rw [register_of_mem h] at new
      exact ⟨List.mem_cons_of_mem _ (new e' he').1, (new e' he').2⟩
    · refine ⟨e :: fresh, by rw [nodes_register_of_not_mem h, List.append_assoc]; rfl, fun e' he' => ?_⟩
      rcases List.mem_cons.mp he' with rfl | he'
      · exact ⟨List.mem_cons_self, h⟩
      · have ⟨mem, unknown⟩ := new e' he'
        exact ⟨List.mem_cons_of_mem _ mem, fun known => unknown (mem_keys_register.mpr (.inl known))⟩

/-! ## Writing into a bag -/

@[simp] theorem relationships_merge (g : Graph) (e : Entity) (bag : Bag) :
    (g.merge e bag).relationships = g.relationships := rfl

theorem mem_keys_merge {g : Graph} {e : Entity} {bag : Bag} {k : EntityKey} :
    k ∈ (g.merge e bag).keys ↔ k ∈ g.keys ∨ k = e.key := by
  rw [keys, merge, Registry.keys_modify]
  exact Registry.mem_keys_register

theorem merge_register (g : Graph) (e : Entity) (bag : Bag) : (g.register e).merge e bag = g.merge e bag := by
  have known : e.key ∈ (g.vertices.register e.key ⟨e.label, .empty⟩).keys := Registry.mem_keys_register.mpr (.inr rfl)
  simp only [merge, register, Registry.register_of_mem known]

/-- Writing into the bag of a known entity changes this one node in its place. -/
theorem nodes_merge_of_split {g : Graph} {e : Entity} {old bag : Bag} {before after : List (Entity × Bag)}
    (h : g.nodes = before ++ (e, old) :: after) :
    (g.merge e bag).nodes = before ++ (e, old.merge bag) :: after := by
  obtain ⟨first, last, split, rfl, hlast⟩ := List.map_eq_append_iff.mp h
  obtain ⟨⟨k, v⟩, rest, rfl, hentry, rfl⟩ := List.map_eq_cons_iff.mp hlast
  simp only [entityOf, Prod.mk.injEq] at hentry
  obtain ⟨rfl, rfl⟩ := hentry
  have known : k ∈ g.vertices.keys := by
    rw [Registry.keys, split]
    simp
  rw [nodes, merge, Registry.register_of_mem known, Registry.entries_modify_of_split split]
  simp [entityOf]

/-! ## Relating -/

@[simp] theorem nodes_relate (g : Graph) (r : Relationship) (bag : Bag) : (g.relate r bag).nodes = g.nodes := by
  rw [relate]
  split <;> rfl

theorem relationships_relate_of_not_mem {g : Graph} {r : Relationship} {bag : Bag} (h : r.key ∉ g.relationKeys) :
    (g.relate r bag).relationships = g.relationships ++ [(r, bag)] := by
  rw [relate, if_neg (by simpa using h), relationships, Registry.entries_register_of_not_mem h, List.map_append]
  rfl

theorem register_relate (g : Graph) (e : Entity) (r : Relationship) (bag : Bag) :
    (g.relate r bag).register e = (g.register e).relate r bag := by
  have same : (g.register e).isRelated r.key = g.isRelated r.key := rfl
  rw [relate, relate, same]
  split <;> rfl

theorem registerAll_relate (g : Graph) (es : List Entity) (r : Relationship) (bag : Bag) :
    (g.relate r bag).registerAll es = (g.registerAll es).relate r bag := by
  induction es generalizing g with
  | nil => rfl
  | cons e es ih => rw [registerAll_cons, register_relate, ih, registerAll_cons]

/-- Add a list of edges, one after the other. -/
def relateAll (g : Graph) (rs : List (Relationship × Bag)) : Graph :=
  rs.foldl (fun g r => g.relate r.1 r.2) g

@[simp] theorem relateAll_nil (g : Graph) : g.relateAll [] = g := rfl

@[simp] theorem relateAll_cons (g : Graph) (r : Relationship × Bag) (rs : List (Relationship × Bag)) :
    g.relateAll (r :: rs) = (g.relate r.1 r.2).relateAll rs := rfl

@[simp] theorem nodes_relateAll (g : Graph) (rs : List (Relationship × Bag)) :
    (g.relateAll rs).nodes = g.nodes := by
  induction rs generalizing g with
  | nil => rfl
  | cons r rs ih => rw [relateAll_cons, ih, nodes_relate]

/-- Edges with different keys that are all unknown are appended with their bags. -/
theorem relationships_relateAll {g : Graph} {rs : List (Relationship × Bag)}
    (different : (rs.map fun r => r.1.key).Nodup) (new : ∀ r ∈ rs, r.1.key ∉ g.relationKeys) :
    (g.relateAll rs).relationships = g.relationships ++ rs := by
  induction rs generalizing g with
  | nil => simp
  | cons r rs ih =>
    rw [List.map_cons, List.nodup_cons] at different
    have here : (g.relate r.1 r.2).relationships = g.relationships ++ [r] :=
      relationships_relate_of_not_mem (new r List.mem_cons_self)
    rw [relateAll_cons, ih different.2, here, List.append_assoc]
    · rfl
    · intro r' hr' known
      rw [← map_key_relationships, here, List.map_append, List.mem_append] at known
      rcases known with known | known
      · exact new r' (List.mem_cons_of_mem _ hr') (by rwa [← map_key_relationships])
      · rw [List.map_singleton, List.mem_singleton] at known
        exact different.1 (known ▸ List.mem_map_of_mem hr')

end ProgramGraph.Graph
