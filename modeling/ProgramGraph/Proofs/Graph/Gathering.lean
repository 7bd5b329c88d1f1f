import Mathlib.Data.List.Induction
import ProgramGraph.Proofs.Graph.Basic

/-!
# ProgramGraph.Proofs.Graph.Gathering

Items that are named one after the other, each with a bag that is written for its key.

* `firsts`  — the items in order of the first occurrence of their keys. `mem_firsts_iff`: what stands there is the first item
  with its key.
* `written` — the bags that were written for a key, one merged over the other. `getElem?_written`: for each name it has the
  last value.
* `gather`  — the first item of every key with everything that was written for the key.
* `touch`   — one more item at the end of a history. `gather_concat`: that is what it does to what is gathered.
-/

namespace ProgramGraph.Graph

variable {κ ι : Type} [DecidableEq κ] (key : ι → κ)

/-- The items of a list in order of the first occurrence of their keys. -/
def firsts (items : List ι) : List ι :=
  items.eraseDupsBy fun a b => key a = key b

/-- Everything that was written for a key, later values over earlier ones. -/
def written (touches : List (ι × Bag)) (k : κ) : Bag :=
  (touches.filter fun t => key t.1 = k).foldl (fun bag t => bag.merge t.2) .empty

/-- The values that were written for a key under a name. -/
def values (touches : List (ι × Bag)) (k : κ) (name : String) : List Property :=
  touches.filterMap fun t => if key t.1 = k then t.2[name]? else none

/-- The first item of every key, with everything that was written for the key. -/
def gather (touches : List (ι × Bag)) : List (ι × Bag) :=
  (firsts key (touches.map Prod.fst)).map fun item => (item, written key touches (key item))

/-- One more item: a new one stands at the end, for a known one its bag is merged. -/
def touch (held : List (ι × Bag)) (t : ι × Bag) : List (ι × Bag) :=
  if key t.1 ∈ held.map fun h => key h.1 then
    held.map fun h => if key h.1 = key t.1 then (h.1, h.2.merge t.2) else h
  else held ++ [t]

variable {key}

@[simp] theorem firsts_nil : firsts key [] = [] := rfl

theorem firsts_cons (a : ι) (items : List ι) :
    firsts key (a :: items) = a :: firsts key (items.filter fun b => key b ≠ key a) := by
  rw [firsts, List.eraseDupsBy_cons, firsts]
  simp

theorem firsts_concat (items : List ι) (b : ι) :
    firsts key (items ++ [b]) = if key b ∈ items.map key then firsts key items else firsts key items ++ [b] := by
  match items with
  | [] => simp [firsts_cons]
  | a :: items =>
    rw [List.cons_append, firsts_cons, firsts_cons, List.filter_append]
    by_cases same : key b = key a
    · simp [same]
    · have kept : [b].filter (fun c => key c ≠ key a) = [b] := by simp [same]
      have known : key b ∈ (items.filter fun c => key c ≠ key a).map key ↔ key b ∈ (a :: items).map key := by
        simp only [List.mem_map, List.mem_filter, List.mem_cons, decide_eq_true_eq]
        constructor
        · rintro ⟨c, ⟨mem, _⟩, hc⟩
          exact ⟨c, .inr mem, hc⟩
        · rintro ⟨c, rfl | mem, hc⟩
          · exact absurd hc.symm same
          · exact ⟨c, ⟨mem, hc ▸ same⟩, hc⟩
      rw [kept, firsts_concat (items.filter fun c => key c ≠ key a) b]
      simp only [known]
      split <;> rfl
termination_by items.length
decreasing_by exact Nat.lt_succ_of_le (List.length_filter_le _ items)

theorem mem_keys_firsts {items : List ι} {k : κ} : k ∈ (firsts key items).map key ↔ k ∈ items.map key := by
  induction items using List.reverseRecOn with
  | nil => rfl
  | append_singleton items b ih =>
    rw [firsts_concat, List.map_append, List.mem_append, ← ih, List.map_singleton, List.mem_singleton]
    split
    · rename_i known
      exact ⟨.inl, fun h => h.elim id fun same => ih.mpr (same ▸ known)⟩
    · rw [List.map_append, List.mem_append, List.map_singleton, List.mem_singleton]

theorem nodup_keys_firsts (items : List ι) : ((firsts key items).map key).Nodup := by
  induction items using List.reverseRecOn with
  | nil => exact List.nodup_nil
  | append_singleton items b ih =>
    rw [firsts_concat]
    split
    · exact ih
    · rename_i unknown
      rw [← mem_keys_firsts] at unknown
      rw [List.map_append, List.map_singleton, ← List.concat_eq_append]
      exact ih.concat unknown

/-- What stands in the list is the first item with its key. -/
theorem mem_firsts_iff {items : List ι} {a : ι} :
    a ∈ firsts key items ↔ ∃ before after, items = before ++ a :: after ∧ key a ∉ before.map key := by
  induction items using List.reverseRecOn with
  | nil => simp
  | append_singleton items b ih =>
    rw [firsts_concat]
    constructor
    · intro mem
      have : a ∈ firsts key items ∨ (key b ∉ items.map key ∧ a = b) := by
        split at mem
        · exact .inl mem
        · exact (List.mem_append.mp mem).imp_right fun last => ⟨‹_›, List.mem_singleton.mp last⟩
      rcases this with mem | ⟨new, rfl⟩
      · obtain ⟨before, after, rfl, new⟩ := ih.mp mem
        exact ⟨before, after ++ [b], by simp, new⟩
      · exact ⟨items, [], rfl, new⟩
    · rintro ⟨before, after, split, new⟩
      rcases List.eq_nil_or_concat after with rfl | ⟨after, c, rfl⟩
      · -- the last item is the one
        obtain ⟨rfl, last⟩ := List.append_inj' split rfl
        obtain rfl := List.singleton_inj.mp last
        rw [if_neg new]
        exact List.mem_concat_self
      · rw [List.concat_eq_append, ← List.cons_append, ← List.append_assoc] at split
        obtain ⟨rfl, -⟩ := List.append_inj' split rfl
        have mem := ih.mpr ⟨before, after, rfl, new⟩
        split_ifs
        · exact mem
        · exact List.mem_append_left _ mem

theorem mem_of_mem_firsts {items : List ι} {a : ι} (h : a ∈ firsts key items) : a ∈ items := by
  obtain ⟨before, after, rfl, -⟩ := mem_firsts_iff.mp h
  simp

theorem firsts_prefix_append (items more : List ι) : firsts key items <+: firsts key (items ++ more) := by
  induction more using List.reverseRecOn with
  | nil => simp
  | append_singleton more b ih =>
    rw [← List.append_assoc, firsts_concat]
    split
    · exact ih
    · exact ih.trans (List.prefix_append _ _)

theorem written_concat (touches : List (ι × Bag)) (t : ι × Bag) (k : κ) :
    written key (touches ++ [t]) k =
      if key t.1 = k then (written key touches k).merge t.2 else written key touches k := by
  by_cases same : key t.1 = k <;> simp [written, List.filter_append, List.foldl_append, same]

theorem written_of_not_mem {touches : List (ι × Bag)} {k : κ} (h : k ∉ touches.map fun t => key t.1) :
    written key touches k = .empty := by
  have none : touches.filter (fun t => key t.1 = k) = [] := by
    rw [List.filter_eq_nil_iff]
    intro t ht
    simpa using fun same => h (List.mem_map.mpr ⟨t, ht, same⟩)
  rw [written, none]
  rfl

/-- The last value that was written is the one that is there. -/
theorem getElem?_written (touches : List (ι × Bag)) (k : κ) (name : String) :
    (written key touches k)[name]? = (values key touches k name).getLast? := by
  induction touches using List.reverseRecOn with
  | nil => simp [written, values, Bag.empty]
  | append_singleton touches t ih =>
    rw [written_concat, values, List.filterMap_append, ← values]
    by_cases same : key t.1 = k
    · rw [if_pos same, Bag.merge, Std.ExtTreeMap.getElem?_union, ih]
      cases value : t.2[name]? <;> simp [same, value]
    · simp [same, ih]

/-- A name that was written stays. -/
theorem mem_written_append {touches : List (ι × Bag)} {k : κ} {name : String} (h : name ∈ written key touches k)
    (more : List (ι × Bag)) : name ∈ written key (touches ++ more) k := by
  rw [Std.ExtTreeMap.mem_iff_isSome_getElem?, getElem?_written, List.getLast?_isSome, ne_eq] at h ⊢
  rw [values, List.filterMap_append, List.append_eq_nil_iff]
  exact fun none => h none.1

theorem map_fst_gather (touches : List (ι × Bag)) :
    (gather key touches).map Prod.fst = firsts key (touches.map Prod.fst) := by
  rw [gather, List.map_map]
  exact List.map_id _

theorem keys_gather (touches : List (ι × Bag)) :
    ((gather key touches).map fun h => key h.1) = (firsts key (touches.map Prod.fst)).map key := by
  rw [← map_fst_gather, List.map_map]
  rfl

/-- What is gathered has the keys of the history. -/
theorem mem_keys_gather {touches : List (ι × Bag)} {k : κ} :
    (k ∈ (gather key touches).map fun h => key h.1) ↔ k ∈ touches.map fun t => key t.1 := by
  rw [keys_gather, mem_keys_firsts, List.map_map]
  rfl

theorem touch_of_mem {held : List (ι × Bag)} {t : ι × Bag} (h : key t.1 ∈ held.map fun h => key h.1) :
    touch key held t = held.map fun h => if key h.1 = key t.1 then (h.1, h.2.merge t.2) else h :=
  if_pos h

theorem touch_of_not_mem {held : List (ι × Bag)} {t : ι × Bag} (h : key t.1 ∉ held.map fun h => key h.1) :
    touch key held t = held ++ [t] :=
  if_neg h

/-- Nothing more for a known item changes nothing. -/
theorem touch_empty_of_mem {held : List (ι × Bag)} {item : ι} (h : key item ∈ held.map fun h => key h.1) :
    touch key held (item, .empty) = held := by
  rw [touch_of_mem h]
  simp

/-- An item comes first, and what is written for it afterwards. -/
theorem map_touch_empty (held : List (ι × Bag)) (item : ι) (bag : Bag) :
    (touch key held (item, .empty)).map (fun h => if key h.1 = key item then (h.1, h.2.merge bag) else h) =
      touch key held (item, bag) := by
  by_cases known : key item ∈ held.map fun h => key h.1
  · rw [touch_empty_of_mem known, touch_of_mem known]
  · have others : held.map (fun h => if key h.1 = key item then (h.1, h.2.merge bag) else h) = held := by
      refine (List.map_congr_left fun h mem => if_neg fun same => known ?_).trans (List.map_id _)
      exact List.mem_map.mpr ⟨h, mem, same⟩
    rw [touch_of_not_mem known, touch_of_not_mem known, List.map_append, others]
    simp

/-- One more item does to what is gathered what it does to an ordered map. -/
theorem gather_concat (touches : List (ι × Bag)) (t : ι × Bag) :
    gather key (touches ++ [t]) = touch key (gather key touches) t := by
  have items : (touches.map fun t => key t.1) = (touches.map Prod.fst).map key := by
    rw [List.map_map]
    rfl
  rw [gather, List.map_append, List.map_singleton, firsts_concat, ← items]
  by_cases known : key t.1 ∈ touches.map fun t => key t.1
  · rw [if_pos known, touch_of_mem (mem_keys_gather.mpr known), gather, List.map_map]
    apply List.map_congr_left
    intro item _
    by_cases same : key t.1 = key item <;> simp [written_concat, same, eq_comm]
  · rw [if_neg known, touch_of_not_mem (mt mem_keys_gather.mp known), gather, List.map_append, List.map_singleton,
      written_concat, if_pos rfl, written_of_not_mem known, Bag.empty_merge]
    congr 1
    apply List.map_congr_left
    intro item mem
    rw [written_concat, if_neg]
    intro same
    rw [items, ← mem_keys_firsts, same] at known
    exact known (List.mem_map_of_mem mem)

theorem foldl_touch (touches more : List (ι × Bag)) :
    more.foldl (touch key) (gather key touches) = gather key (touches ++ more) := by
  induction more generalizing touches with
  | nil => rw [List.append_nil, List.foldl_nil]
  | cons t more ih => rw [List.foldl_cons, ← gather_concat, ih, List.append_assoc, List.singleton_append]

/-- A known item keeps its place. -/
theorem prefix_touch (held : List (ι × Bag)) (t : ι × Bag) :
    held.map Prod.fst <+: (touch key held t).map Prod.fst := by
  by_cases known : key t.1 ∈ held.map fun h => key h.1
  · have same : (touch key held t).map Prod.fst = held.map Prod.fst := by
      rw [touch_of_mem known, List.map_map]
      apply List.map_congr_left
      intro h _
      rw [Function.comp]
      split <;> rfl
    simp [same]
  · rw [touch_of_not_mem known, List.map_append]
    exact List.prefix_append _ _

theorem prefix_foldl_touch (touches held : List (ι × Bag)) :
    held.map Prod.fst <+: (touches.foldl (touch key) held).map Prod.fst := by
  induction touches generalizing held with
  | nil => exact List.prefix_rfl
  | cons t touches ih => exact (prefix_touch held t).trans (ih _)

end ProgramGraph.Graph
