import Mathlib.Data.Nat.Find
import Mathlib.Order.Bounds.Basic
import ProgramGraph.Proofs.Discovery.Confluence
import ProgramGraph.Proofs.Discovery.Waves
import ProgramGraph.Proofs.Program.Tree

/-!
# ProgramGraph.Proofs.Discovery.Breadth

Waves are layers: an entity is drained in the wave that its shortest chain of resolution steps tells.

* `Chain`, `Depth` — chains of steps from syntax nodes, and the length of the shortest one.
* `Layered`        — what waits before a wave has one depth, and whatever is no deeper is known.
* `Layered.wave`   — a wave goes one layer deeper.
* `stage`, `layered_stage` — where a discovery stands after some waves, and that every stage is a layer.
* `discover_layered` — so waves, depths, kinds and the order of registration go together.
-/

namespace ProgramGraph.Discovery

open Program ProgramGraph.Graph

/-- A chain of a number of steps from a syntax node to a key. -/
inductive Chain (w : World) : Nat → EntityKey → Prop where
  | node {ref : NodeRef} {n : SourceNode} : w.units.node? ref = some n → Chain w 0 (.node ref)
  | step {m : Nat} {k k' : EntityKey} : Chain w m k → Leads w k k' → Chain w (m + 1) k'

/-- The length of the shortest chain to a key. -/
def Depth (w : World) (m : Nat) (k : EntityKey) : Prop :=
  IsLeast {m | Chain w m k} m

variable {w : World} {x : Explorer}

/-! ## Chains -/

theorem Reachable.exists_chain {k : EntityKey} (h : Reachable w k) : ∃ m, Chain w m k := by
  induction h with
  | node hn => exact ⟨0, .node hn⟩
  | step _ leads ih =>
    obtain ⟨m, chain⟩ := ih
    exact ⟨m + 1, chain.step leads⟩

theorem Reachable.exists_depth {k : EntityKey} (h : Reachable w k) : ∃ m, Depth w m k := by
  classical
  have some_chain := h.exists_chain
  exact ⟨Nat.find some_chain, Nat.find_spec some_chain, fun m chain => Nat.find_min' some_chain chain⟩

/-- Steps lead from nodes to symbols and then from symbols to types and back, so the length of a chain tells the kind of
its end. -/
theorem Chain.kind_eq {m : Nat} {k : EntityKey} (h : Chain w m k) :
    k.kind = if m = 0 then .node else if m % 2 = 1 then .symbol else .type := by
  induction h with
  | node => rfl
  | @step m k k' _ leads ih =>
    rw [if_neg (by omega)]
    cases leads with
    | resolved | declared =>
      have even : m % 2 = 0 := by
        by_cases zero : m = 0
        · omega
        · rw [if_neg zero] at ih
          split at ih
          · cases ih
          · omega
      rw [if_pos (by omega)]
      rfl
    | returned | valued =>
      have odd : m % 2 = 1 := by
        by_cases zero : m = 0
        · simp [zero, EntityKey.kind] at ih
        · rw [if_neg zero] at ih
          split at ih
          · assumption
          · cases ih
      rw [if_neg (by omega)]
      rfl

/-! ## What a wave makes known -/

/-- What is known after some entities have been enriched was known before or found by one of them. -/
theorem mem_keys_enrichAll {wave done : List Entity} (h : Account w ⟨x, wave, done⟩) {k : EntityKey}
    (known : k ∈ (wave.foldl (Explorer.enrich w) x).graph.keys) :
    k ∈ x.graph.keys ∨ ∃ e ∈ wave, ∃ e' ∈ (describe w e).found, e'.key = k := by
  induction wave generalizing x done with
  | nil => exact .inl known
  | cons e wave ih =>
    have here : e ∈ x.graph.entities := by
      rw [h.entities]
      simp [Point.pending]
    have present := missing_of_reachable (h.genuine e here).reachable
    rcases ih h.enrich known with before | ⟨e₀, he₀, found⟩
    · rcases (Enrichment.mem_keys_addTo present (mem_keys_of_mem_entities here)).mp before with before | found
      · exact .inl before
      · exact .inr ⟨e, List.mem_cons_self, List.mem_map.mp found⟩
    · exact .inr ⟨e₀, List.mem_cons_of_mem _ he₀, found⟩

theorem mem_keys_wave {done : List Entity} (h : Account w ⟨x, [], done⟩) {k : EntityKey}
    (known : k ∈ (x.wave w).graph.keys) :
    k ∈ x.graph.keys ∨ ∃ e ∈ x.graph.frontier, ∃ e' ∈ (describe w e).found, e'.key = k := by
  rw [Explorer.wave_eq] at known
  exact mem_keys_enrichAll h.drain known

/-- What waits after a wave was not known before it. -/
theorem not_mem_keys_of_mem_frontier_wave {done : List Entity} (h : Account w ⟨x, [], done⟩)
    (h' : Account w ⟨x.wave w, [], done ++ x.graph.frontier⟩) {e : Entity} (waits : e ∈ (x.wave w).graph.frontier) :
    e.key ∉ x.graph.keys := by
  intro known
  have nodup := (x.wave w).graph.nodup_keys
  have before : x.graph.entities = done ++ x.graph.frontier := h.entities
  have after : (x.wave w).graph.entities = x.graph.entities ++ (x.wave w).graph.frontier := by
    rw [before]
    exact h'.entities
  rw [← map_key_entities, after, List.map_append, List.nodup_append, map_key_entities] at nodup
  exact nodup.2.2 _ known _ (List.mem_map_of_mem waits) rfl

/-! ## Layers -/

/-- What waits has one depth, and whatever is no deeper is known. -/
structure Layered (w : World) (m : Nat) (x : Explorer) : Prop where
  frontier : ∀ e ∈ x.graph.frontier, Depth w m e.key
  complete : ∀ m' ≤ m, ∀ k, Chain w m' k → k ∈ x.graph.keys

/-- A wave goes one layer deeper. -/
theorem Layered.wave {m : Nat} {done : List Entity} (h : Layered w m x) (path : Reaches w {} ⟨x, [], done⟩)
    (some_left : x.graph.frontier ≠ []) : Layered w (m + 1) (x.wave w) := by
  have step := reaches_wave w x done some_left
  have before := account_of_reaches path
  have after := account_of_reaches (path.trans step)
  constructor
  · intro e' waits
    have unknown := not_mem_keys_of_mem_frontier_wave before after waits
    have deeper : ∀ m', Chain w m' e'.key → m < m' := by
      intro m' chain
      by_contra short
      exact unknown (h.complete m' (by omega) _ chain)
    have known : e'.key ∈ (x.wave w).graph.keys := by
      refine mem_keys_of_mem_entities ?_
      rw [after.entities]
      exact List.mem_append_right _ waits
    rcases mem_keys_wave before known with old | ⟨e, he, found, hfound, same⟩
    · exact absurd old unknown
    · rw [← same] at deeper unknown ⊢
      rcases cases_of_found hfound with rfl | ⟨k, leads, rfl⟩ | ⟨_, ref, n, _, _, hn, rfl⟩
      · -- an entity that finds itself was known
        have : found ∈ x.graph.entities := by
          rw [before.entities]
          exact List.mem_append_right _ he
        exact absurd (mem_keys_of_mem_entities this) unknown
      · rw [World.key_entity] at deeper ⊢
        exact ⟨Chain.step (h.frontier e he).1 leads, fun m' chain => deeper m' chain⟩
      · rw [World.key_entity] at unknown
        exact absurd (h.complete 0 (Nat.zero_le m) _ (.node hn)) unknown
  · intro m' bound k chain
    cases chain with
    | node hn => exact step.keys_subset (h.complete 0 (Nat.zero_le m) _ (.node hn))
    | step chain leads =>
      -- the key before it in the chain was known, so it has been enriched by now
      have known := h.complete _ (by omega) _ chain
      rw [← map_key_entities, before.entities] at known
      obtain ⟨e, he, rfl⟩ := List.mem_map.mp known
      obtain ⟨e', found, rfl⟩ := found_of_leads leads
      exact after.closed e he e' found

/-! ## Stages -/

theorem mem_keys_seedUnits (ids : List UInt32) {k : EntityKey}
    (known : k ∈ (ids.foldl (fun x id => (x.seedUnit w id).1) x).graph.keys) :
    k ∈ x.graph.keys ∨ Chain w 0 k := by
  induction ids generalizing x with
  | nil => exact .inl known
  | cons id ids ih =>
    rcases ih known with before | chain
    · change k ∈ (x.seedUnit w id).1.graph.keys at before
      cases hu : w.units.get? id with
      | none =>
        rw [Explorer.seedUnit_of_none hu] at before
        exact .inl before
      | some u =>
        rw [Explorer.graph_seedUnit hu, mem_keys_registerAll, Explorer.mem_keys_unitEntities] at before
        rcases before with before | ⟨i, n, hn, rfl⟩
        · exact .inl before
        · exact .inr (.node (Units.node?_eq_some_iff.mpr ⟨u, hu, hn⟩))
    · exact .inr chain

/-- Where a discovery stands after some waves. -/
def stage (w : World) (m : Nat) : Explorer :=
  (Explorer.wave w)^[m] (({} : Explorer).seed w).1

theorem stage_succ (w : World) (m : Nat) : stage w (m + 1) = (stage w m).wave w :=
  Function.iterate_succ_apply' _ _ _

/-- The entities that have been enriched after some waves. -/
def enrichedBefore (w : World) (m : Nat) : List Entity :=
  (List.range m).flatMap fun i => (stage w i).graph.frontier

theorem enrichedBefore_succ (w : World) (m : Nat) :
    enrichedBefore w (m + 1) = enrichedBefore w m ++ (stage w m).graph.frontier := by
  simp [enrichedBefore, List.range_succ]

theorem layered_seed (w : World) : Layered w 0 (stage w 0) := by
  constructor
  · intro e waits
    rw [frontier_eq] at waits
    have known := mem_keys_of_mem_entities (List.mem_of_mem_drop waits)
    rw [stage, Function.iterate_zero, id, Explorer.seed_fst] at known
    rcases mem_keys_seedUnits _ known with before | chain
    · cases before
    · exact ⟨chain, fun m _ => Nat.zero_le m⟩
  · intro m bound k chain
    obtain rfl : m = 0 := by omega
    cases chain with
    | node hn => exact mem_keys_seed hn _

/-- As long as something waits, every stage is a layer. -/
theorem layered_stage {m : Nat} (some_left : ∀ i < m, (stage w i).graph.frontier ≠ []) :
    Reaches w {} ⟨stage w m, [], enrichedBefore w m⟩ ∧ Layered w m (stage w m) := by
  induction m with
  | zero =>
    refine ⟨?_, layered_seed w⟩
    rw [stage, Function.iterate_zero, id, Explorer.seed_fst]
    exact reaches_seedUnits w _ {} []
  | succ m ih =>
    obtain ⟨path, layered⟩ := ih fun i hi => some_left i (by omega)
    have here := some_left m (by omega)
    rw [stage_succ, enrichedBefore_succ]
    exact ⟨path.trans (reaches_wave w _ _ here), layered.wave path here⟩

/-! ## The layers of a discovery -/

/-- A run stops at the first stage at which nothing waits, and it counts the waves until then. -/
theorem frontier_iterate_ne_nil (w : World) (x : Explorer) {i : Nat} (h : x.stats.waves + i < (x.run w).stats.waves) :
    ((Explorer.wave w)^[i] x).graph.frontier ≠ [] := by
  fun_induction Explorer.run w x generalizing i with
  | case1 x none_left => exact absurd h (by simp [Explorer.conclude, Explorer.log])
  | case2 x some_left ih =>
    cases i with
    | zero => exact some_left
    | succ i =>
      rw [Function.iterate_succ_apply]
      refine ih ?_
      rw [waves_wave]
      omega

/-- A discovery is its waves, and something waits before each of them. -/
theorem discover_eq_stage (w : World) :
    discover w = (stage w (discover w).stats.waves).conclude ∧
      (stage w (discover w).stats.waves).graph.frontier = [] ∧
      ∀ i < (discover w).stats.waves, (stage w i).graph.frontier ≠ [] := by
  obtain ⟨n, run, none_left, waves⟩ := run_eq_iterate w (({} : Explorer).seed w).1
  have start := waves_seed w {}
  have count : (discover w).stats.waves = n := by
    show (((({} : Explorer).seed w).1).run w).stats.waves = n
    rw [waves, start]
    exact Nat.zero_add n
  refine ⟨?_, ?_, fun i hi => ?_⟩
  · rw [count]
    exact run
  · rw [count]
    exact none_left
  · refine frontier_iterate_ne_nil w _ ?_
    rw [start]
    exact (Nat.zero_add i).symm ▸ hi

theorem entities_discover (w : World) : (discover w).graph.entities = enrichedBefore w (discover w).stats.waves := by
  obtain ⟨last, none_left, some_left⟩ := discover_eq_stage w
  have all := (account_of_reaches (layered_stage some_left).1).entities
  rw [Point.pending, none_left, List.append_nil, List.append_nil] at all
  exact (congrArg (fun x : Explorer => x.graph.entities) last).trans all

theorem depth_of_mem_stage {i : Nat} (hi : i < (discover w).stats.waves) {e : Entity}
    (waits : e ∈ (stage w i).graph.frontier) : Depth w i e.key := by
  obtain ⟨_, _, some_left⟩ := discover_eq_stage w
  exact (layered_stage fun j hj => some_left j (by omega)).2.frontier e waits

theorem exists_stage_of_mem_entities {e : Entity} (known : e ∈ (discover w).graph.entities) :
    ∃ i < (discover w).stats.waves, e ∈ (stage w i).graph.frontier := by
  rw [entities_discover, enrichedBefore, List.mem_flatMap] at known
  obtain ⟨i, hi, waits⟩ := known
  exact ⟨i, List.mem_range.mp hi, waits⟩

theorem mem_entities_of_mem_stage {i : Nat} (hi : i < (discover w).stats.waves) {e : Entity}
    (waits : e ∈ (stage w i).graph.frontier) : e ∈ (discover w).graph.entities := by
  rw [entities_discover, enrichedBefore, List.mem_flatMap]
  exact ⟨i, List.mem_range.mpr hi, waits⟩

theorem Depth.unique {m m' : Nat} {k : EntityKey} (h : Depth w m k) (h' : Depth w m' k) : m = m' :=
  IsLeast.unique h h'

/-- The entities of a stage are those of its depth. -/
theorem mem_stage_iff {i : Nat} (hi : i < (discover w).stats.waves) {e : Entity} :
    e ∈ (stage w i).graph.frontier ↔ e ∈ (discover w).graph.entities ∧ Depth w i e.key := by
  constructor
  · intro waits
    exact ⟨mem_entities_of_mem_stage hi waits, depth_of_mem_stage hi waits⟩
  · rintro ⟨known, depth⟩
    obtain ⟨j, hj, waits⟩ := exists_stage_of_mem_entities known
    rw [depth.unique (depth_of_mem_stage hj waits)]
    exact waits

/-- The depths that occur are those below the number of waves. -/
theorem exists_depth_iff {m : Nat} :
    (∃ e ∈ (discover w).graph.entities, Depth w m e.key) ↔ m < (discover w).stats.waves := by
  constructor
  · rintro ⟨e, known, depth⟩
    obtain ⟨i, hi, waits⟩ := exists_stage_of_mem_entities known
    rwa [depth.unique (depth_of_mem_stage hi waits)]
  · intro hm
    obtain ⟨_, _, some_left⟩ := discover_eq_stage w
    obtain ⟨e, waits⟩ := List.exists_mem_of_ne_nil _ (some_left m hm)
    exact ⟨e, mem_entities_of_mem_stage hm waits, depth_of_mem_stage hm waits⟩

theorem sorted_entities (w : World) :
    (discover w).graph.entities.Pairwise fun e e' => ∀ m m', Depth w m e.key → Depth w m' e'.key → m ≤ m' := by
  have layer : ∀ i ∈ List.range (discover w).stats.waves, ∀ e ∈ (stage w i).graph.frontier, Depth w i e.key :=
    fun i hi e waits => depth_of_mem_stage (List.mem_range.mp hi) waits
  rw [entities_discover, enrichedBefore, List.pairwise_flatMap]
  constructor
  · intro i hi
    refine List.pairwise_of_forall_mem_list fun e he e' he' m m' depth depth' => ?_
    rw [depth.unique (layer i hi e he), depth'.unique (layer i hi e' he')]
  · refine List.Pairwise.imp_of_mem ?_ List.pairwise_lt_range
    intro i j hi hj before e he e' he' m m' depth depth'
    rw [depth.unique (layer i hi e he), depth'.unique (layer j hj e' he')]
    exact Nat.le_of_lt before

theorem waves_discover_pos {id : UInt32} {u : SourceUnit} (hu : w.units.get? id = some u) :
    0 < (discover w).stats.waves := by
  obtain ⟨root, ⟨n, hn⟩, _⟩ := SourceUnit.exists_root (Units.validate_of_get? hu)
  have node : w.units.node? ⟨id, root⟩ = some n := Units.node?_eq_some_iff.mpr ⟨u, hu, hn⟩
  have known := (settled_discover w).mem_keys_of_reachable (.node node)
  rw [← map_key_entities] at known
  obtain ⟨e, he, _⟩ := List.mem_map.mp known
  obtain ⟨i, hi, _⟩ := exists_stage_of_mem_entities he
  exact Nat.zero_lt_of_lt hi

theorem waves_discover_of_no_units (none : ∀ id, w.units.get? id = none) : (discover w).stats.waves = 0 := by
  by_contra some_wave
  obtain ⟨e, known, depth⟩ := exists_depth_iff.mpr (Nat.pos_of_ne_zero some_wave)
  have chain : Chain w 0 e.key := depth.1
  generalize e.key = k at chain
  cases chain with
  | node hn =>
    obtain ⟨u, hu, _⟩ := Units.node?_eq_some_iff.mp hn
    rw [none] at hu
    cases hu

/-- **Waves are layers.** A discovery is its waves; the wave after `m` others drains the entities of depth `m`. At odd
depths there are symbols, at even ones types, but for the syntax nodes at depth zero. Entities are registered in order of
depth, and there is one more wave than the greatest depth, or none when there are no units. -/
theorem discover_layered (w : World) :
    let x := discover w
    x = (stage w x.stats.waves).conclude ∧
      (∀ m < x.stats.waves, ∀ e, e ∈ (stage w m).graph.drain.1 ↔ e ∈ x.graph.entities ∧ Depth w m e.key) ∧
      (∀ e ∈ x.graph.entities, ∃ m, Depth w m e.key ∧
        e.key.kind = if m = 0 then .node else if m % 2 = 1 then .symbol else .type) ∧
      x.graph.entities.Pairwise (fun e e' => ∀ m m', Depth w m e.key → Depth w m' e'.key → m ≤ m') ∧
      ((∀ id, w.units.get? id = none) → x.stats.waves = 0) ∧
      ∀ id u, w.units.get? id = some u →
        ∃ deepest, x.stats.waves = 1 + deepest ∧ IsGreatest {m | ∃ e ∈ x.graph.entities, Depth w m e.key} deepest := by
  intro x
  refine ⟨(discover_eq_stage w).1, fun m hm e => mem_stage_iff hm, ?_, sorted_entities w, waves_discover_of_no_units, ?_⟩
  · intro e known
    obtain ⟨m, depth⟩ := ((settled_discover w).mem_entities_iff.mp known).reachable.exists_depth
    exact ⟨m, depth, Chain.kind_eq depth.1⟩
  · intro id u hu
    have some_wave : 0 < x.stats.waves := waves_discover_pos hu
    refine ⟨x.stats.waves - 1, by omega, exists_depth_iff.mpr (Nat.sub_lt some_wave Nat.one_pos), ?_⟩
    intro m hm
    have : m < x.stats.waves := exists_depth_iff.mp hm
    omega

theorem discover_layered_knot :
    knot.units.get? 0 = some nameUnit ∧ ∃ deepest, (discover knot).stats.waves = 1 + deepest := by
  have unit : knot.units.get? 0 = some nameUnit := by simp [knot, Units.get?_insert]
  obtain ⟨_, _, _, _, _, some_units⟩ := discover_layered knot
  obtain ⟨deepest, waves, _⟩ := some_units 0 nameUnit unit
  exact ⟨unit, deepest, waves⟩

end ProgramGraph.Discovery
