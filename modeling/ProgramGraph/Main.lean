import Std.Time.DateTime.Timestamp
import ProgramGraph.Command.Run
import ProgramGraph.Files.Disk

/-!
# ProgramGraph.Main

The program itself: it reads the command line, the files, the clock and a random seed, and prints what became of the
command. What is done is decided in `Command.run`.
-/

namespace ProgramGraph.Main

open Command Files

/-- A random id in the usual form: groups of 8, 4, 4, 4 and 12 hexadecimal digits, with the digits that mark it as
random. -/
def idOf (digits : List Char) : String :=
  let part (start length : Nat) := String.ofList ((digits.drop start).take length)
  part 0 8 ++ "-" ++ part 8 4 ++ "-4" ++ part 13 3 ++ "-a" ++ part 17 3 ++ "-" ++ part 20 12

/-- The stamps of the builds that start now. -/
def stamps (seed : List UInt8) (nanoseconds : Int) (number : Nat) : Stamp where
  id := idOf (Digest.sha256Hex (seed ++ Digest.utf8 (toString number))).toList
  time := ⟨nanoseconds / Time.secondNanos, (nanoseconds % Time.secondNanos).toNat⟩

def pathOf : Action → String
  | .build path _ _ _ => path
  | .discover path _ _ => path

/-- The files that a command line is about. -/
def treeFor (arguments : List String) : IO Tree :=
  match Invocation.read arguments with
  | .ok invocation => Disk.readTree (pathOf invocation.action)
  | .error _ => return {}

def programName : String := "loom"

/-- Carry out a command line, and print what became of it. -/
def carryOut (arguments : List String) : IO UInt32 := do
  let t ← treeFor arguments
  let seed ← IO.getRandomBytes 16
  let now ← Std.Time.Timestamp.now
  let outcome := Command.run t (stamps seed.toList now.toNanosecondsSinceUnixEpoch.val) arguments
  for e in outcome.events do
    IO.eprintln e.line
  IO.print outcome.output
  return .ofNat outcome.exitCode

end ProgramGraph.Main

def main (arguments : List String) : IO UInt32 :=
  ProgramGraph.Main.carryOut (ProgramGraph.Main.programName :: arguments)
