import ProgramGraph.Graph.Registry

/-!
# ProgramGraph.Proofs.Graph.Registry

A registry as a map that remembers its order:

* registering a known key changes nothing, registering a new one appends its entry;
* modifying a value keeps every key in its place;
* `get?_eq_some_iff` — looking a key up finds exactly its entry, since keys differ.
-/

namespace ProgramGraph.Graph.Registry

variable {κ α : Type} [DecidableEq κ] {r : Registry κ α} {k k' : κ} {a : α}

@[simp] theorem contains_iff : r.contains k = true ↔ k ∈ r.keys := by
  simp [contains]

/-! ## Registering -/

theorem register_of_mem (h : k ∈ r.keys) : r.register k a = r := by
  rw [register, dif_pos h]

theorem entries_register_of_not_mem (h : k ∉ r.keys) :
    (r.register k a).entries = r.entries ++ [(k, a)] := by
  rw [register, dif_neg h]

theorem keys_register_of_not_mem (h : k ∉ r.keys) : (r.register k a).keys = r.keys ++ [k] := by
  rw [keys, entries_register_of_not_mem h, List.map_append]
  rfl

theorem mem_keys_register : k' ∈ (r.register k a).keys ↔ k' ∈ r.keys ∨ k' = k := by
  by_cases h : k ∈ r.keys
  · rw [register_of_mem h]
    exact ⟨.inl, fun hk => hk.elim id fun e => e ▸ h⟩
  · rw [keys_register_of_not_mem h, List.mem_append, List.mem_singleton]

/-! ## Modifying -/

@[simp] theorem keys_modify (r : Registry κ α) (k : κ) (f : α → α) : (r.modify k f).keys = r.keys := by
  rw [keys, modify, List.map_map]
  apply List.map_congr_left
  intro e _
  rw [Function.comp]
  split <;> rfl

theorem entries_modify (r : Registry κ α) (k : κ) (f : α → α) :
    (r.modify k f).entries = r.entries.map fun e => if e.1 = k then (e.1, f e.2) else e := rfl

theorem map_modify_of_not_mem {f : α → α} {entries : List (κ × α)} (h : k ∉ entries.map Prod.fst) :
    (entries.map fun e => if e.1 = k then (e.1, f e.2) else e) = entries := by
  conv => rhs; rw [← List.map_id entries]
  apply List.map_congr_left
  intro e he
  refine if_neg fun same => h ?_
  rw [← same]
  exact List.mem_map_of_mem he

/-- The entry of a key is changed in its place, and no other entry is. -/
theorem entries_modify_of_split {f : α → α} {before after : List (κ × α)}
    (h : r.entries = before ++ (k, a) :: after) :
    (r.modify k f).entries = before ++ (k, f a) :: after := by
  have nodup := r.nodup
  rw [h, List.map_append, List.map_cons, List.nodup_append, List.nodup_cons] at nodup
  obtain ⟨_, ⟨notAfter, _⟩, disjoint⟩ := nodup
  have notBefore : k ∉ before.map Prod.fst := fun mem => disjoint k mem k List.mem_cons_self rfl
  rw [entries_modify, h, List.map_append, List.map_cons, map_modify_of_not_mem notBefore,
    map_modify_of_not_mem notAfter, if_pos rfl]

/-! ## Looking up -/

theorem get?_eq_some_iff : r.get? k = some a ↔ (k, a) ∈ r.entries := by
  rw [get?, List.lookup_eq_some_iff]
  constructor
  · rintro ⟨before, after, h, _⟩
    rw [h]
    exact List.mem_append_right _ List.mem_cons_self
  · intro h
    obtain ⟨before, after, split⟩ := List.append_of_mem h
    refine ⟨before, after, split, ?_⟩
    have nodup := r.nodup
    rw [split, List.map_append, List.map_cons, List.nodup_append] at nodup
    intro e he
    have := nodup.2.2 e.1 (List.mem_map_of_mem he) k List.mem_cons_self
    exact bne_iff_ne.mpr (Ne.symm this)

end ProgramGraph.Graph.Registry
