/-!
# ProgramGraph.Json.Fault

What can be wrong with a JSON text that is read as a value of some type.

* `Fault.truncated` — the text ends too early.
* `Fault.malformed` — the text is not JSON, or something follows the value.
* `Fault.mismatch`  — the text is JSON of the wrong shape.
-/

namespace ProgramGraph.Json

/-- The first problem met when a text is read from left to right. -/
inductive Fault where
  /-- The text ends too early. -/
  | truncated
  /-- The text is not JSON, or something follows the value. -/
  | malformed
  /-- The value has the wrong shape. -/
  | mismatch
  deriving DecidableEq, Repr

end ProgramGraph.Json
