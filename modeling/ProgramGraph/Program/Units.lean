import Std.Data.ExtTreeMap
import ProgramGraph.Program.Unit

/-!
# ProgramGraph.Program.Units

The sound units of a program, by their numbers.

* `Units`          — a map from numbers to units; that every unit in it is sound is part of the type.
* `Units.enroll`   — add one unit under a number, unless it is malformed.
* `Units.ofList`   — number units from zero and add the sound ones; the malformed ones are reported with their numbers.
-/

namespace ProgramGraph.Program

/-- The sound units of a program, by their numbers. -/
structure Units where
  table : Std.ExtTreeMap UInt32 SourceUnit compare
  sound : ∀ (id : UInt32) (u : SourceUnit), table[id]? = some u → u.validate = .ok ()

namespace Units

def empty : Units where
  table := ∅
  sound := by simp

def insert (s : Units) (id : UInt32) (u : SourceUnit) (h : u.validate = .ok ()) : Units where
  table := s.table.insert id u
  sound := by
    intro id' u' found
    rw [Std.ExtTreeMap.getElem?_insert] at found
    split at found
    · cases found; exact h
    · exact s.sound id' u' found

/-- Add a unit under a number; a malformed unit leaves no trace. -/
def enroll (s : Units) (id : UInt32) (u : SourceUnit) : Except Malformed Units :=
  match h : u.validate with
  | .ok () => .ok (s.insert id u h)
  | .error m => .error m

def get? (s : Units) (id : UInt32) : Option SourceUnit :=
  s.table[id]?

def node? (s : Units) (r : NodeRef) : Option SourceNode :=
  (s.get? r.unit).bind fun u => u.node? r.node

/-- The units with their numbers, in increasing order. -/
def toList (s : Units) : List (UInt32 × SourceUnit) :=
  s.table.toList

def size (s : Units) : Nat :=
  s.table.size

/-- Number units from `next` on and add the sound ones; the malformed ones are listed with their numbers. -/
def enrollFrom (s : Units) (next : Nat) : List SourceUnit → Units × List (Nat × Malformed)
  | [] => (s, [])
  | u :: rest =>
    match s.enroll (UInt32.ofNat next) u with
    | .ok s' => s'.enrollFrom (next + 1) rest
    | .error m =>
      let (s', rejected) := s.enrollFrom (next + 1) rest
      (s', (next, m) :: rejected)

/-- Number units from zero and add the sound ones. -/
def ofList (units : List SourceUnit) : Units × List (Nat × Malformed) :=
  empty.enrollFrom 0 units

end Units
end ProgramGraph.Program
