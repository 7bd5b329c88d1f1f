import ProgramGraph.Digest.Sha256
import ProgramGraph.Event
import ProgramGraph.Program.Records
import ProgramGraph.Program.Units

/-!
# ProgramGraph.Program.Snapshot

Snapshots: one program as a parser and a resolver hand it over.

* `Snapshot`        — units and tables as they are written.
* `Program`         — a snapshot whose units have been checked: the sound ones, the tables, and what was wrong with the
  others.
* `Program.read`    — a program from the text of a snapshot.

A unit without a content hash has that of the whole text. A malformed unit never keeps the others out.
-/

namespace ProgramGraph
namespace Program

open Json

/-- Units and tables as they are written. -/
structure Snapshot where
  units : List SourceUnit := []
  declarations : List DeclarationRecord := []
  types : List TypeRecord := []
  bindings : List BindingRecord := []
  deriving DecidableEq, Repr

namespace Snapshot

/-- The fields of a snapshot, in the order of its list form. -/
def fields : Fields Snapshot :=
  Snapshot.mk
    <$> .defaulted "units" (list (record SourceUnit.fields)) []
    <*> .defaulted "declarations" (list DeclarationRecord.decoder) []
    <*> .defaulted "types" (list TypeRecord.decoder) []
    <*> .defaulted "bindings" (list (record BindingRecord.fields)) []

def document (s : Snapshot) : Document :=
  .record
    [("units", .list (s.units.map SourceUnit.document)),
     ("declarations", .list (s.declarations.map DeclarationRecord.document)),
     ("types", .list (s.types.map TypeRecord.document)),
     ("bindings", .list (s.bindings.map BindingRecord.document))]

def read (source : String) : Except Fault Snapshot :=
  Json.read (record fields) source

def tables (s : Snapshot) : Tables :=
  .ofRecords s.declarations s.types s.bindings

end Snapshot

/-- A unit with a content hash: its own, or else the given one. -/
def SourceUnit.inheritHash (hash : String) (u : SourceUnit) : SourceUnit :=
  { u with contentHash := some (u.contentHash.getD hash) }

end Program

open Program in
/-- A snapshot whose units have been checked. -/
structure Program where
  units : Units
  tables : Tables
  /-- The malformed units with their numbers. -/
  rejected : List (Nat × Malformed)
  /-- The digest of the text of the snapshot. -/
  contentHash : String

namespace Program

open Json

def ofSnapshot (s : Snapshot) (hash : String) : Program :=
  let (units, rejected) := Units.ofList (s.units.map (SourceUnit.inheritHash hash))
  { units := units, tables := s.tables, rejected := rejected, contentHash := hash }

/-- A program from the text of a snapshot. -/
def read (source : String) : Except Fault Program := do
  let s ← Snapshot.read source
  return ofSnapshot s (Digest.sha256Hex (Digest.utf8 source))

/-- What is told about the units that were left out. -/
def events (p : Program) : List Event :=
  p.rejected.map fun r => .unitSkipped r.1 r.2

end Program
end ProgramGraph
