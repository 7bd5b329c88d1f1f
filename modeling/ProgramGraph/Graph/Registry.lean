/-!
# ProgramGraph.Graph.Registry

Maps that remember the order in which their keys came.

* `Registry`          — entries with different keys, in order of registration; that the keys differ is part of the type.
* `Registry.register` — add an entry at the end, unless its key is there already.
* `Registry.modify`   — change the value of a key in its place.
* `length_le_of_nodup` — a list of different numbers below a bound is no longer than the bound, so a registry has no more
  entries than there are keys.
-/

namespace ProgramGraph.Graph

/-- Entries with different keys, in order of registration. -/
structure Registry (κ α : Type) where
  entries : List (κ × α)
  nodup : (entries.map Prod.fst).Nodup

namespace Registry

variable {κ α : Type}

def empty : Registry κ α where
  entries := []
  nodup := by simp

def keys (r : Registry κ α) : List κ :=
  r.entries.map Prod.fst

def size (r : Registry κ α) : Nat :=
  r.entries.length

variable [DecidableEq κ]

def get? (r : Registry κ α) (k : κ) : Option α :=
  r.entries.lookup k

def contains (r : Registry κ α) (k : κ) : Bool :=
  k ∈ r.keys

/-- Add an entry at the end; an entry with a known key changes nothing. -/
def register (r : Registry κ α) (k : κ) (a : α) : Registry κ α :=
  if h : k ∈ r.keys then r
  else
    { entries := r.entries ++ [(k, a)]
      nodup := by
        rw [List.map_append, List.nodup_append]
        refine ⟨r.nodup, by simp, ?_⟩
        intro x hx y hy
        simp only [List.map_cons, List.map_nil, List.mem_singleton] at hy
        subst hy
        intro e
        subst e
        exact h hx }

/-- Change the value of a key in its place. -/
def modify (r : Registry κ α) (k : κ) (f : α → α) : Registry κ α where
  entries := r.entries.map fun e => if e.1 = k then (e.1, f e.2) else e
  nodup := by
    have same : (r.entries.map fun e => if e.1 = k then (e.1, f e.2) else e).map Prod.fst =
        r.entries.map Prod.fst := by
      rw [List.map_map]
      apply List.map_congr_left
      intro e _
      simp only [Function.comp]
      split <;> rfl
    rw [same]
    exact r.nodup

/-- Changing a value keeps the number of entries. -/
@[simp] theorem size_modify (r : Registry κ α) (k : κ) (f : α → α) : (r.modify k f).size = r.size := by
  simp [size, modify]

end Registry

/-- A list of different numbers below a bound is no longer than the bound. -/
theorem length_le_of_nodup {n : Nat} : ∀ {l : List Nat}, l.Nodup → (∀ x ∈ l, x < n) → l.length ≤ n := by
  induction n with
  | zero =>
    intro l _ bound
    cases l with
    | nil => simp
    | cons x _ => exact absurd (bound x (by simp)) (by omega)
  | succ n ih =>
    intro l nodup bound
    have shorter : (l.erase n).length ≤ n := by
      apply ih (nodup.erase n)
      intro x hx
      have h := (nodup.mem_erase_iff).mp hx
      have := bound x h.2
      have := h.1
      omega
    by_cases h : n ∈ l
    · have := List.length_erase_of_mem h
      omega
    · rw [List.erase_of_not_mem h] at shorter
      omega

end ProgramGraph.Graph
