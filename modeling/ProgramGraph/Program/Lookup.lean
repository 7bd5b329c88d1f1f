import ProgramGraph.Program.Declaration
import ProgramGraph.Program.Unit

/-!
# ProgramGraph.Program.Lookup

Asking what names and types stand for.

* `LookupFailure` — why a question has no answer: its kind, its bare text, and its message.
* `Lookup`        — the questions that can be asked about a program, each answered by a function, so the same question
  always has the same answer.
* `Lookup.overriding` — a lookup with other answers for the types of some declarations.
-/

namespace ProgramGraph.Program

/-- The kind of a failed lookup. -/
inductive FailureKind where
  | unresolved
  | ambiguous
  | other
  deriving DecidableEq, Repr, Inhabited

namespace FailureKind

def all : List FailureKind :=
  [.unresolved, .ambiguous, .other]

def name : FailureKind → String
  | .unresolved => "unresolved"
  | .ambiguous => "ambiguous"
  | .other => "other"

def ofName? (s : String) : Option FailureKind :=
  all.find? fun k => k.name = s

/-- What a message of this kind begins with. -/
def heading : FailureKind → String
  | .unresolved => "Unresolved reference: "
  | .ambiguous => "Ambiguous resolution: "
  | .other => "Resolver failure: "

end FailureKind

/-- A failed lookup. -/
structure LookupFailure where
  kind : FailureKind
  text : String := ""
  deriving DecidableEq, Repr, Inhabited

namespace LookupFailure

/-- The message: the text under the heading of its kind. -/
def message (f : LookupFailure) : String :=
  f.kind.heading ++ f.text

end LookupFailure

/-- The questions that can be asked about a program. -/
structure Lookup where
  /-- The declaration that a syntax node declares or refers to. -/
  resolve : NodeRef → Except LookupFailure DeclId
  declaration : DeclId → Except LookupFailure Declaration
  /-- The return type of a method. -/
  returnType : DeclId → Except LookupFailure TypeId
  /-- The type of the values of a declaration. -/
  valueType : DeclId → Except LookupFailure TypeId
  resolvedType : TypeId → Except LookupFailure ResolvedType
  /-- The declaration behind a reference type. -/
  typeDeclaration : TypeId → Option DeclId

/-- Answers that are recorded beside a lookup. -/
abbrev TypeAnswers := List (DeclId × Except LookupFailure TypeId)

namespace Lookup

/-- The same lookup with other answers for the types of some declarations. -/
def overriding (l : Lookup) (returnTypes valueTypes : TypeAnswers) : Lookup :=
  { l with
    returnType := fun d => (returnTypes.lookup d).getD (l.returnType d)
    valueType := fun d => (valueTypes.lookup d).getD (l.valueType d) }

end Lookup

end ProgramGraph.Program
