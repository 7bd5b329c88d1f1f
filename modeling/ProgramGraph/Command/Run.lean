import ProgramGraph.Command.Arguments
import ProgramGraph.Command.Build

/-!
# ProgramGraph.Command.Run

What the program does with a command line.

* `Outcome`     — the exit code, what is printed, and the events on the way.
* `run`         — carry out a command line over a tree of files. There is no database to connect to, so only builds into
  memory succeed.
* `filterLevel` — the least important events that are told.
-/

namespace ProgramGraph.Command

open Discovery Files

/-- What became of a command line. -/
structure Outcome where
  exitCode : Nat
  output : String := ""
  events : List Event := []

def versionLine : String := "loom 0.1.0\n"

def usage : String :=
  "Program graph discovery and Neo4j export\n\n" ++
  "Usage: loom [OPTIONS] <COMMAND>\n\n" ++
  "Commands:\n" ++
  "  build     Discover program graphs from snapshots and store them in Neo4j\n" ++
  "  discover  Run discovery only and print what was found\n" ++
  "  help      Print this message or the help of the given subcommand(s)\n\n" ++
  "Options:\n" ++
  "  -v, --verbose  Enable verbose output\n" ++
  "  -h, --help     Print help\n" ++
  "  -V, --version  Print version\n"

/-- What is printed for a command line that is not carried out. -/
def refusalOutput : Refusal → String
  | .help => usage
  | .version => versionLine
  | _ => ""

/-- Do what is to be done. -/
def Action.run (t : Tree) (stamps : Nat → Stamp) : Action → Outcome
  | .discover path json typeSelfLoops =>
    let (graphs, events) := discoverAll t { typeSelfLoops := typeSelfLoops } path
    { exitCode := 0, output := report json graphs, events := events }
  | .build path _ typeSelfLoops true =>
    let b := dryRun t stamps { typeSelfLoops := typeSelfLoops } path
    { exitCode := 0, events := b.events }
  | .build path settings typeSelfLoops false =>
    let unreachable := Cypher.Script.server [(0, .failed)]
    let b := buildInto unreachable settings 0 t stamps { typeSelfLoops := typeSelfLoops } path
    { exitCode := if b.report.isSome then 0 else 1, events := b.events }

def filterLevel (verbose : Bool) : String :=
  if verbose then "debug" else "info"

def isTold (verbose : Bool) (e : Event) : Bool :=
  verbose || e.level ≠ .debug

/-- Carry out a command line, the name of the program first. -/
def run (t : Tree) (stamps : Nat → Stamp) (arguments : List String) : Outcome :=
  match Invocation.read arguments with
  | .error refusal => { exitCode := refusal.exitCode, output := refusalOutput refusal }
  | .ok invocation =>
    let outcome := invocation.action.run t stamps
    { outcome with events := outcome.events.filter (isTold invocation.verbose) }

end ProgramGraph.Command
