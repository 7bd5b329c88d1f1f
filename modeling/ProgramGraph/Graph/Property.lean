import Std.Data.ExtTreeMap
import ProgramGraph.Number.Binary64

/-!
# ProgramGraph.Graph.Property

Properties of entities and relationships.

* `Property` — one value: a truth value, an integer of 64 bits, a real number, a text, or a reference to an entity
  by its id.
* `Bag`      — values under names, kept in the order of the names; a name is only ever added or overwritten.
* `Bag.merge` — the values of a second bag over those of a first.
* `Bag.equal` — equality of bags with real numbers compared as numbers.
-/

namespace ProgramGraph.Graph

open Number

/-- A property value. -/
inductive Property where
  | bool (value : Bool)
  | int (value : Int64)
  | real (value : Binary64)
  | text (value : String)
  /-- Another entity, by its id. -/
  | ref (id : String)
  deriving DecidableEq, Repr

namespace Property

/-- The value as a text, if it is one; a reference is not. -/
def text? : Property → Option String
  | .text s => some s
  | _ => none

/-- The value as a truth value, if it is one. -/
def bool? : Property → Option Bool
  | .bool b => some b
  | _ => none

/-- The value as an integer, if it is one. -/
def int? : Property → Option Int64
  | .int i => some i
  | _ => none

/-- A number of 32 bits as an integer. -/
def ofWord (n : UInt32) : Property :=
  .int (Int64.ofNat n.toNat)

def ofCount (n : UInt64) : Property :=
  .int n.toInt64

def equal : Property → Property → Bool
  | .real x, .real y => x.equal y
  | p, q => p = q

end Property

abbrev Bag := Std.ExtTreeMap String Property compare

namespace Bag

def empty : Bag := ∅

/-- The bag of a list of names and values; of a repeated name the last value counts. -/
def ofList (entries : List (String × Property)) : Bag :=
  entries.foldl (fun b e => b.insert e.1 e.2) empty

/-- The values of `b` over those of `a`. -/
def merge (a b : Bag) : Bag :=
  a ∪ b

/-- Whether two bags have the same names with equal values. -/
def equal (a b : Bag) : Bool :=
  let pairs := a.toList.zip b.toList
  a.size = b.size && pairs.all fun p => p.1.1 = p.2.1 && p.1.2.equal p.2.2

end Bag
end ProgramGraph.Graph
