import ProgramGraph.Text.Quoted

/-!
# ProgramGraph.Store.Error

Why a store refuses an entity, a relationship or an index.

* `StoreError`         — the causes.
* `StoreError.message` — their wording.
-/

namespace ProgramGraph.Store

/-- Why a store refuses something. -/
inductive StoreError where
  /-- The label cannot be stored. -/
  | invalidLabel (label : String)
  /-- An end of a relationship is not stored. -/
  | missingEndpoint (label id : String)
  /-- The store will not take it. -/
  | rejected (reason : String)
  /-- The database behind the store failed. -/
  | database
  deriving DecidableEq, Repr

namespace StoreError

def message : StoreError → String
  | .invalidLabel label => "Invalid label: " ++ Text.quoted label
  | .missingEndpoint label id => "Missing endpoint " ++ label ++ ":" ++ id
  | .rejected reason => "Rejected by store: " ++ reason
  | .database => "Neo4j error"

end StoreError
end ProgramGraph.Store
