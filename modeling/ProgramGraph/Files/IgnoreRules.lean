import ProgramGraph.Files.Glob
import ProgramGraph.Files.Tree
import ProgramGraph.Text.Blank

/-!
# ProgramGraph.Files.IgnoreRules

Files that say what to leave out of a directory, one pattern a line.

* `Rule`          — a pattern, whether it keeps instead of leaving out, and whether it is for directories only.
* `Rule.ofLine?`  — the rule of a line. Blank lines and comments have none, and a line whose pattern cannot be read is
  left out.
* `RuleSet`       — the rules of a file and the directory to which their patterns are relative.
* `RuleSet.judge` — the verdict of the last rule that matches.
* `rulesOf`       — the rules of the bytes of a file, up to the first line that is no text.
-/

namespace ProgramGraph.Files

/-- What a rule says about a path. -/
inductive Verdict where
  | leaveOut
  | keep
  deriving DecidableEq, Repr

/-- One rule. -/
structure Rule where
  glob : Glob
  verdict : Verdict
  directoriesOnly : Bool

def byteOrderMark : Char := '\ufeff'

namespace Rule

/-- A line without trailing blanks, unless its last one is escaped. -/
def trimmed (line : List Char) : List Char :=
  if ['\\', ' '].isSuffixOf line then line else Text.trimEnd line

/-- What the beginning of a line says: the verdict, whether the pattern starts at the directory of the rules, and the
rest. -/
def opening : List Char → Verdict × Bool × List Char
  | '\\' :: '!' :: rest => (.leaveOut, false, '!' :: rest)
  | '\\' :: '#' :: rest => (.leaveOut, false, '#' :: rest)
  | '!' :: '/' :: rest => (.keep, true, rest)
  | '!' :: rest => (.keep, false, rest)
  | '/' :: rest => (.leaveOut, true, rest)
  | line => (.leaveOut, false, line)

/-- Whether a pattern ends in a slash, and the pattern without that slash and a backslash before it. -/
def closing (pattern : List Char) : Bool × List Char :=
  match pattern.reverse with
  | '/' :: '\\' :: rest => (true, rest.reverse)
  | '/' :: rest => (true, rest.reverse)
  | _ => (false, pattern)

/-- Whether a pattern can start in any directory by itself. -/
def startsAnywhere (pattern : List Char) : Bool :=
  ['*', '*', '/'].isPrefixOf pattern || pattern = ['*', '*']

/-- A pattern without a slash can match in any directory. -/
def located (anchored : Bool) (pattern : List Char) : List Char :=
  if anchored || pattern.contains '/' || startsAnywhere pattern then pattern else '*' :: '*' :: '/' :: pattern

/-- A pattern for everything in a directory does not match the directory itself. -/
def contents (pattern : List Char) : List Char :=
  if ['/', '*', '*'].isSuffixOf pattern then pattern ++ ['/', '*'] else pattern

def ofLine? (line : List Char) : Option Rule :=
  if line.head? = some '#' then none
  else
    let line := trimmed line
    if line.isEmpty then none
    else
      let (verdict, anchored, rest) := opening line
      let (directoriesOnly, pattern) := closing rest
      (Glob.read? (String.ofList (contents (located anchored pattern)))).map fun glob =>
        ⟨glob, verdict, directoriesOnly⟩

/-- Whether a rule is about a path, given as its bytes. -/
def appliesTo (r : Rule) (directory : Bool) (path : List UInt8) : Bool :=
  (directory || !r.directoriesOnly) && r.glob.matches path

end Rule

def lineFeed : UInt8 := 0x0a

def carriageReturn : UInt8 := 0x0d

def byteLines : List UInt8 → List (List UInt8)
  | [] => []
  | b :: rest =>
    if b = lineFeed then [b] :: byteLines rest
    else
      match byteLines rest with
      | line :: others => (b :: line) :: others
      | [] => [[b]]

/-- A line without its line feed and a carriage return before that. -/
def withoutEnd (line : List UInt8) : List UInt8 :=
  match line.reverse with
  | a :: b :: rest =>
    if a ≠ lineFeed then line else if b = carriageReturn then rest.reverse else (b :: rest).reverse
  | [a] => if a = lineFeed then [] else line
  | [] => line

/-- Lines as texts, up to the first one that is no text. -/
def lineTexts : List (List UInt8) → List (List Char)
  | [] => []
  | line :: rest =>
    match Tree.textOf (withoutEnd line) with
    | .ok s => s.toList :: lineTexts rest
    | .error _ => []

/-- The first line without byte order marks. -/
def withoutMark : List (List Char) → List (List Char)
  | [] => []
  | line :: rest => line.dropWhile (· = byteOrderMark) :: rest

/-- The rules of the bytes of a file. -/
def rulesOf (content : List UInt8) : List Rule :=
  (withoutMark (lineTexts (byteLines content))).filterMap Rule.ofLine?

/-- The rules of a file and the directory to which their patterns are relative. -/
structure RuleSet where
  /-- The path of the directory, without a leading `./`. -/
  directory : String
  rules : List Rule

namespace RuleSet

/-- A path relative to a directory. A path of one name is relative already, and so is every path when the directory is
`.`. -/
def relative (directory path : String) : String :=
  let path := withoutDot path
  if isHere directory || !path.contains '/' then path
  else
    match withoutLead? directory.toList path.toList with
    | some rest => withoutLead "/" (String.ofList rest)
    | none => path

/-- What the last rule that is about a path says. -/
def judge (s : RuleSet) (isDirectory : Bool) (path : String) : Option Verdict :=
  let bytes := (relative s.directory path).toUTF8.toList
  (s.rules.reverse.find? fun r => r.appliesTo isDirectory bytes).map Rule.verdict

end RuleSet
end ProgramGraph.Files
