import ProgramGraph.Files.Repository
import ProgramGraph.Files.Scan

/-!
# ProgramGraph.Files.Disk

Reading a tree of files from the disk. Only what a command on one path looks at is read.

* `readEntry`  — what stands at a place, with all below it.
* `readAround` — the ignore rules and the repository that stand in a directory.
* `readWay`    — the directories and links that a path passes.
* `readTree`   — the tree for a command on a path.
-/

namespace ProgramGraph.Files.Disk

/-- How deep directories are read. Paths on a disk are shorter. -/
def depthLimit : Nat := 4096

/-- The names that have a say about a directory and all below it: ignore rules, and what a repository consists of. -/
def rulingNames : List String :=
  [".ignore", ".gitignore", ".git", "HEAD", "refs", "packed-refs", "commondir", "info"]

/-- Whether the content of a file is looked at. -/
def isLookedAt (path : String) : Bool :=
  path.endsWith snapshotEnding
    || (parts path).any fun name => rulingNames.contains name && !(parts path).contains "objects"

/-- The kind of what stands at a place, links not followed. -/
def kind? (place : String) : IO (Option IO.FS.FileType) := do
  try
    let here ← IO.currentDir
    return some (← (here.join place).symlinkMetadata).type
  catch _ => return none

/-- The place to which a path leads, links followed. -/
def end? (path : String) : IO (Option String) := do
  try return some (← IO.FS.realPath path).toString
  catch _ => return none

/-- The bytes of a file; one that cannot be read has none. -/
def content (place : String) : IO (List UInt8) := do
  try return (← IO.FS.readBinFile place).toList
  catch _ => return []

/-- The names in a directory; one that cannot be read has none. -/
def names (place : String) : IO (List String) := do
  try return (← (← IO.FS.realPath place).readDir).toList.map fun e => e.fileName
  catch _ => return []

/-- What stands at a place, with all below it. A link to a file with a say is read as that file. -/
def readEntry : Nat → String → IO (Option Entry)
  | 0, _ => return none
  | depth + 1, place => do
    match ← kind? place with
    | some .dir =>
      let entries ← (← names place).filterMapM fun name => do
        return (← readEntry depth (join place name)).map fun e => (name, e)
      return some (.directory entries)
    | some .file => return some (.file (← if isLookedAt place then content place else pure []))
    | some .symlink =>
      match ← end? place with
      | none => return none
      | some target =>
        let isFile := (← kind? target) matches some .file
        if isFile && isLookedAt place && !place.endsWith snapshotEnding then
          return some (.file (← content place))
        else return some (.link target)
    | _ => return none

/-- A tree with what stands at a place, whatever its name. -/
def readInto (t : Tree) (place : String) : IO Tree := do
  if (← kind? place) matches some .file then return t.insert place (.file (← content place))
  match ← readEntry depthLimit place with
  | some e => return t.insert place e
  | none => return t

/-- A tree with the repository to which a `.git` file in a directory points. -/
def readPointedTo (t : Tree) (directory : String) : IO Tree := do
  let text := (t.readText (join directory ".git")).toOption.getD ""
  match withoutLead? Repository.pointer (trimSpaceEnd text.toList) with
  | none => return t
  | some target =>
    let target := String.ofList (target.dropWhile isSpace)
    match ← end? (if isAbsolute target then target else join directory target) with
    | none => return t
    | some repository =>
      let t ← readInto t repository
      let common := (t.readText (join repository "commondir")).toOption.getD ""
      let common := String.ofList (trimSpaceEnd common.toList)
      match ← end? (if isAbsolute common then common else join repository common) with
      | none => return t
      | some shared => if common.isEmpty then return t else readInto t shared

/-- A tree with what rules over a directory. -/
def readAround (t : Tree) (directory : String) : IO Tree := do
  let objects := join directory "objects"
  let t := if (← kind? objects) matches some .dir then t.insert objects (.directory []) else t
  let t ← rulingNames.foldlM (fun t name => readInto t (join directory name)) t
  readPointedTo t directory

/-- A place and the directories above it, the root first. -/
def ancestry (place : String) : List String :=
  let names := (parts place).filter fun p => !isIdle p
  (List.range (names.length + 1)).map fun n => "/" ++ "/".intercalate (names.take n)

/-- A tree with the links that a path passes, and the directories to which it leads on the way, the last one first. -/
def readWay (t : Tree) (directories : List String) : List String → IO (Tree × List String)
  | [] => return (t, directories)
  | part :: rest => do
    let place := join (directories.headD "/") part
    match ← end? place with
    | none => return (t, directories)
    | some target =>
      let isLink := (← kind? place) matches some .symlink
      let t := if isLink then t.insert place (.link target) else t
      readWay t (target :: directories) rest

/-- The tree for a command on a path: the working directory, the way to the path, all below it, and what rules over it. -/
def readTree (path : String) : IO Tree := do
  let here := (← IO.FS.realPath (← IO.currentDir)).toString
  let start := if isAbsolute path then "/" else here
  let t : Tree := { workingDirectory := (parts here).filter fun p => !isIdle p }
  let t := t.insert here (.directory [])
  let (t, directories) ← readWay t [start] (parts path)
  let t ← match directories with
    | place :: _ => readInto t place
    | [] => pure t
  let above := (directories.flatMap ancestry).eraseDups
  above.foldlM (fun t d => do
    if (← kind? d) matches some .dir then readAround t d else return t) t

end ProgramGraph.Files.Disk
