import Mathlib.Logic.Relation
import ProgramGraph.Proofs.Discovery.Seeding

/-!
# ProgramGraph.Proofs.Discovery.Run

Discovery as a machine that is driven by calls and moves in small steps.

* `Call`, `performAll` — what can be asked of an explorer, in any order and any number of times.
* `Point` — where a discovery stands: the explorer, the entities of the current wave that are still to be enriched, and
  all that have been enriched, in order. The last is not part of the program; it is kept to speak about the past.
* `Move`  — seed a unit, drain the frontier, enrich the next entity of the wave, or tell that nothing is left.
* `reaches_performAll` — calls are sequences of moves, so what every move preserves holds at every point of every call.
-/

namespace ProgramGraph.Discovery

open Program ProgramGraph.Graph Relation

/-- What can be asked of an explorer. -/
inductive Call where
  | seed
  | seedUnit (id : UInt32)
  | run
  deriving DecidableEq, Repr

namespace Explorer

/-- Answer one call. -/
def perform (w : World) (x : Explorer) : Call → Explorer
  | .seed => (x.seed w).1
  | .seedUnit id => (x.seedUnit w id).1
  | .run => x.run w

/-- Answer some calls, one after the other. -/
def performAll (w : World) (x : Explorer) (calls : List Call) : Explorer :=
  calls.foldl (perform w) x

theorem performAll_append (w : World) (x : Explorer) (calls calls' : List Call) :
    x.performAll w (calls ++ calls') = (x.performAll w calls).performAll w calls' :=
  List.foldl_append

/-- The explorer right after the frontier was drained. -/
def startWave (x : Explorer) : Explorer :=
  { x with
    graph := x.graph.drain.2
    stats := { x.stats with waves := x.stats.waves + 1 } }.log (.wave (x.stats.waves + 1) x.graph.frontier.length)

theorem wave_eq (w : World) (x : Explorer) : x.wave w = x.graph.frontier.foldl (enrich w) x.startWave := rfl

theorem run_of_frontier_nil {w : World} {x : Explorer} (h : x.graph.frontier = []) : x.run w = x.conclude := by
  rw [run, if_pos h]

theorem run_of_frontier_ne_nil {w : World} {x : Explorer} (h : x.graph.frontier ≠ []) :
    x.run w = (x.wave w).run w := by
  rw [run, if_neg h]

/-- Running leaves nothing in the frontier. -/
@[simp] theorem frontier_run (w : World) (x : Explorer) : (x.run w).graph.frontier = [] := by
  fun_induction run w x with
  | case1 x h => exact h
  | case2 x h ih => exact ih

end Explorer

theorem discover_eq (w : World) : discover w = ({} : Explorer).performAll w [.seed, .run] := rfl

/-- Where a discovery stands. -/
structure Point where
  explorer : Explorer := {}
  /-- What is left of the current wave. -/
  rest : List Entity := []
  /-- What has been enriched so far, in order. -/
  enriched : List Entity := []

/-- The entities that wait to be enriched: the rest of the wave, then the frontier. -/
def Point.pending (p : Point) : List Entity :=
  p.rest ++ p.explorer.graph.frontier

/-- One step of a discovery. -/
inductive Move (w : World) : Point → Point → Prop where
  | seedUnit (x : Explorer) (done : List Entity) (id : UInt32) :
      Move w ⟨x, [], done⟩ ⟨(x.seedUnit w id).1, [], done⟩
  | drain (x : Explorer) (done : List Entity) : x.graph.frontier ≠ [] →
      Move w ⟨x, [], done⟩ ⟨x.startWave, x.graph.frontier, done⟩
  | enrich (x : Explorer) (e : Entity) (rest done : List Entity) :
      Move w ⟨x, e :: rest, done⟩ ⟨x.enrich w e, rest, done ++ [e]⟩
  | conclude (x : Explorer) (done : List Entity) : x.graph.frontier = [] →
      Move w ⟨x, [], done⟩ ⟨x.conclude, [], done⟩

/-- Points that are some steps apart. -/
def Reaches (w : World) : Point → Point → Prop :=
  ReflTransGen (Move w)

theorem reaches_seedUnits (w : World) (ids : List UInt32) (x : Explorer) (done : List Entity) :
    Reaches w ⟨x, [], done⟩ ⟨ids.foldl (fun x id => (x.seedUnit w id).1) x, [], done⟩ := by
  induction ids generalizing x with
  | nil => exact .refl
  | cons id ids ih => exact .head (.seedUnit x done id) (ih _)

theorem reaches_enrichAll (w : World) (wave : List Entity) (x : Explorer) (done : List Entity) :
    Reaches w ⟨x, wave, done⟩ ⟨wave.foldl (Explorer.enrich w) x, [], done ++ wave⟩ := by
  induction wave generalizing x done with
  | nil =>
    rw [List.append_nil]
    exact .refl
  | cons e wave ih =>
    have later := ih (x.enrich w e) (done ++ [e])
    rw [List.append_assoc] at later
    exact .head (.enrich x e wave done) later

/-- One wave is a drain and one move for every entity of it. -/
theorem reaches_wave (w : World) (x : Explorer) (done : List Entity) (some_left : x.graph.frontier ≠ []) :
    Reaches w ⟨x, [], done⟩ ⟨x.wave w, [], done ++ x.graph.frontier⟩ := by
  rw [Explorer.wave_eq]
  exact .head (.drain x done some_left) (reaches_enrichAll w x.graph.frontier x.startWave done)

theorem reaches_run (w : World) (x : Explorer) (done : List Entity) :
    ∃ done', Reaches w ⟨x, [], done⟩ ⟨x.run w, [], done'⟩ := by
  fun_induction Explorer.run w x generalizing done with
  | case1 x h => exact ⟨done, .single (.conclude x done h)⟩
  | case2 x h ih =>
    obtain ⟨done', later⟩ := ih (done ++ x.graph.frontier)
    exact ⟨done', (reaches_wave w x done h).trans later⟩

theorem reaches_perform (w : World) (x : Explorer) (call : Call) (done : List Entity) :
    ∃ done', Reaches w ⟨x, [], done⟩ ⟨x.perform w call, [], done'⟩ := by
  cases call with
  | seed =>
    refine ⟨done, ?_⟩
    rw [Explorer.perform, Explorer.seed_fst]
    exact reaches_seedUnits w _ x done
  | seedUnit id => exact ⟨done, .single (.seedUnit x done id)⟩
  | run => exact reaches_run w x done

/-- Every sequence of calls is a sequence of moves. -/
theorem reaches_performAll (w : World) (calls : List Call) (x : Explorer) (done : List Entity) :
    ∃ done', Reaches w ⟨x, [], done⟩ ⟨x.performAll w calls, [], done'⟩ := by
  induction calls generalizing x done with
  | nil => exact ⟨done, .refl⟩
  | cons call calls ih =>
    obtain ⟨middle, first⟩ := reaches_perform w x call done
    obtain ⟨done', later⟩ := ih (x.perform w call) middle
    exact ⟨done', first.trans later⟩

end ProgramGraph.Discovery
