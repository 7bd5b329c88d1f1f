import ProgramGraph.Event
import ProgramGraph.Store.Rows

/-!
# ProgramGraph.Store.Basic

What a store is: a place that takes entities and relationships and may refuse them.

* `Response` — what one call comes to: the next state, whether it was taken, and the events on the way.
* `Store`    — the three calls, over any type of state. Nothing is assumed about how a store answers.
* `Store.withoutIndexes`, `Store.refusingIndexes` — the same store with another way to treat indexes.
-/

namespace ProgramGraph
namespace Store

/-- What a call comes to. -/
structure Response (σ : Type) where
  state : σ
  result : Except StoreError Unit
  events : List Event := []

namespace Response

def taken {σ : Type} (state : σ) : Response σ :=
  ⟨state, .ok (), []⟩

def refused {σ : Type} (state : σ) (cause : StoreError) : Response σ :=
  ⟨state, .error cause, []⟩

end Response

end Store

open Store in
/-- A place that takes entities and relationships. -/
structure Store (σ : Type) where
  /-- Store an entity, or merge its properties into those of the stored one. -/
  upsertNode : σ → NodeRow → Response σ
  /-- Store a relationship between stored entities, or merge its properties into those of the stored one. -/
  upsertEdge : σ → EdgeRow → Response σ
  /-- Make lookups by id fast for some labels. -/
  ensureIndexes : σ → List String → Response σ

namespace Store

/-- A store that takes every index and makes none. -/
def withoutIndexes {σ : Type} (s : Store σ) : Store σ :=
  { s with ensureIndexes := fun state _ => .taken state }

/-- A store that refuses every index. -/
def refusingIndexes {σ : Type} (s : Store σ) : Store σ :=
  { s with ensureIndexes := fun state labels => .refused state (.rejected ("indexes " ++ ",".intercalate labels)) }

end Store
end ProgramGraph
