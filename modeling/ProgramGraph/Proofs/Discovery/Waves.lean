import Mathlib.Logic.Function.Iterate
import ProgramGraph.Proofs.Discovery.Account

/-!
# ProgramGraph.Proofs.Discovery.Waves

A run as a number of waves.

* `run_eq_iterate`    — a run is one wave after the other, as many as it counts, until the frontier is empty.
* `frontier_wave`     — no syntax node waits after a wave: seeding is the only source of syntax nodes.
* `Paced`             — so every wave but the first has a symbol or a type to enrich, and their number bounds that of the
  waves.
-/

namespace ProgramGraph.Discovery

open Program ProgramGraph.Graph

/-! ## What a wave counts -/

namespace Stats

@[simp] theorem waves_countKind (s : Stats) (kind : EntityKind) : (s.countKind kind).waves = s.waves := by
  cases kind <;> rfl

@[simp] theorem seeded_countKind (s : Stats) (kind : EntityKind) : (s.countKind kind).seeded = s.seeded := by
  cases kind <;> rfl

@[simp] theorem waves_countFailure {α : Type} (s : Stats) (failure : Option α) :
    (s.countFailure failure).waves = s.waves := by
  cases failure <;> rfl

@[simp] theorem seeded_countFailure {α : Type} (s : Stats) (failure : Option α) :
    (s.countFailure failure).seeded = s.seeded := by
  cases failure <;> rfl

end Stats

/-- A count that enriching one entity leaves alone is left alone by enriching some. -/
theorem stats_enrichAll {α : Type} {w : World} (count : Stats → α)
    (keeps : ∀ x e, count (Explorer.enrich w x e).stats = count x.stats) (es : List Entity) (x : Explorer) :
    count (es.foldl (Explorer.enrich w) x).stats = count x.stats := by
  induction es generalizing x with
  | nil => rfl
  | cons e es ih => rw [List.foldl_cons, ih, keeps]

theorem waves_wave (w : World) (x : Explorer) : (x.wave w).stats.waves = x.stats.waves + 1 := by
  rw [Explorer.wave_eq, stats_enrichAll Stats.waves (by simp [Explorer.enrich])]
  rfl

theorem seeded_wave (w : World) (x : Explorer) : (x.wave w).stats.seeded = x.stats.seeded := by
  rw [Explorer.wave_eq, stats_enrichAll Stats.seeded (by simp [Explorer.enrich])]
  rfl

theorem waves_seed (w : World) (x : Explorer) : (x.seed w).1.stats.waves = x.stats.waves := by
  rw [Explorer.seed_fst]
  induction w.units.toList.map Prod.fst generalizing x with
  | nil => rfl
  | cons id ids ih => rw [List.foldl_cons, ih, Explorer.stats_seedUnit]

/-- A run is one wave after the other until the frontier is empty. -/
theorem run_eq_iterate (w : World) (x : Explorer) :
    ∃ n, x.run w = ((Explorer.wave w)^[n] x).conclude ∧ ((Explorer.wave w)^[n] x).graph.frontier = [] ∧
      (x.run w).stats.waves = x.stats.waves + n := by
  fun_induction Explorer.run w x with
  | case1 x h => exact ⟨0, rfl, h, rfl⟩
  | case2 x h ih =>
    obtain ⟨n, run, frontier, waves⟩ := ih
    refine ⟨n + 1, ?_, ?_, ?_⟩
    · rw [Function.iterate_succ_apply, run]
    · rw [Function.iterate_succ_apply, frontier]
    · rw [waves, waves_wave]
      omega

/-! ## The pace -/

/-- No syntax node waits after a wave. -/
theorem frontier_wave {w : World} {x : Explorer} {done : List Entity} (path : Reaches w {} ⟨x, [], done⟩)
    (some_left : x.graph.frontier ≠ []) : kindCount .node (x.wave w).graph.frontier = 0 := by
  have before := account_of_reaches path
  have after := account_of_reaches (path.trans (reaches_wave w x done some_left))
  -- what is seeded counts the syntax nodes that are known, and a wave does not seed
  have seeded := after.tally.seeded
  rw [seeded_wave, before.tally.seeded] at seeded
  have known := before.entities
  have known' := after.entities
  simp only [Point.pending, List.nil_append] at known known'
  rw [known', known, kindCount_append _ (done ++ x.graph.frontier)] at seeded
  omega

/-- After the first wave no syntax node waits, and no more waves were made than there are symbols and types enriched, but
for the first. -/
structure Paced (x : Explorer) : Prop where
  nodes : x.stats.waves = 0 ∨ kindCount .node x.graph.frontier = 0
  waves : x.stats.waves ≤ 1 + x.stats.symbolsEnriched + x.stats.typesEnriched

theorem Paced.wave {w : World} {x : Explorer} {done : List Entity} (h : Paced x) (path : Reaches w {} ⟨x, [], done⟩)
    (some_left : x.graph.frontier ≠ []) : Paced (x.wave w) := by
  have before := (account_of_reaches path).tally
  have after := (account_of_reaches (path.trans (reaches_wave w x done some_left))).tally
  have symbols : (x.wave w).stats.symbolsEnriched = x.stats.symbolsEnriched + kindCount .symbol x.graph.frontier := by
    rw [after.symbols, kindCount_append, before.symbols]
  have types : (x.wave w).stats.typesEnriched = x.stats.typesEnriched + kindCount .type x.graph.frontier := by
    rw [after.types, kindCount_append, before.types]
  have size := length_eq_kindCounts x.graph.frontier
  have positive := List.length_pos_of_ne_nil some_left
  refine ⟨.inr (frontier_wave path some_left), ?_⟩
  rw [waves_wave, symbols, types]
  have bound := h.waves
  -- the first wave is the one in the bound; any other has something to enrich that is not a syntax node
  rcases h.nodes with first | nodes
  · omega
  · omega

theorem Paced.run {w : World} {x : Explorer} {done : List Entity} (h : Paced x) (path : Reaches w {} ⟨x, [], done⟩) :
    (x.run w).stats.waves ≤ 1 + (x.run w).stats.symbolsEnriched + (x.run w).stats.typesEnriched := by
  fun_induction Explorer.run w x generalizing done with
  | case1 x none_left => exact h.waves
  | case2 x some_left ih => exact ih (h.wave path some_left) (path.trans (reaches_wave w x done some_left))

theorem waves_discover_le (w : World) :
    (discover w).stats.waves ≤ 1 + (discover w).stats.symbolsEnriched + (discover w).stats.typesEnriched := by
  obtain ⟨done, path⟩ := reaches_perform w {} .seed []
  have waves : (({} : Explorer).seed w).1.stats.waves = 0 := waves_seed w {}
  have paced : Paced (({} : Explorer).seed w).1 := ⟨.inl waves, by omega⟩
  exact paced.run path

end ProgramGraph.Discovery
