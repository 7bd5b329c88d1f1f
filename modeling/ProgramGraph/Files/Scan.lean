import ProgramGraph.Files.IgnoreRules

/-!
# ProgramGraph.Files.Scan

Finding the snapshots below a directory.

* `DirectoryRules` — what a directory says about everything below it: the rules of its `.ignore` and `.gitignore` files,
  those of a repository that it holds, and whether it holds one.
* `Scope`          — the rules around an entry: those of the directories from the entry up to the one where the scan
  began, and those of the directories above that.
* `Scope.judge`    — the verdict on a path. Of each kind of rules the innermost verdict counts, and `.ignore` files beat
  the others. Rules of repositories count only inside a repository, and only up to its top.
* `found`          — the paths of the files below a directory whose names end in a given way. Links below the directory
  are not followed, and a directory that is left out is not entered.
* `scan`           — the same in the order of the names along the paths; a path that leads to a file finds that file.
-/

namespace ProgramGraph.Files

/-- What a directory says about everything below it. -/
structure DirectoryRules where
  ignore : RuleSet
  gitignore : RuleSet
  exclude : RuleSet
  /-- Whether the directory is the top of a repository. -/
  isTop : Bool

/-- The first line of a text without what ends it. -/
def firstLine? (content : List UInt8) : Option String :=
  match byteLines content with
  | line :: _ => (Tree.textOf (withoutEnd line)).toOption
  | [] => none

/-- The common directory of a repository that a `.git` file points to. Relative paths start from the working
directory. -/
def commonDirectory? (t : Tree) (pointer : List UInt8) : Option String := do
  let line ← firstLine? pointer
  if !line.startsWith "gitdir: " then none
  let directory := withoutLead "gitdir: " line
  let content ← (t.read (join directory "commondir")).toOption
  let target ← firstLine? content
  if target.startsWith "." then join directory target else target

namespace DirectoryRules

/-- The rules of a file in a directory; one that cannot be read has none. -/
def rulesFrom (t : Tree) (directory : Trail) (name : String) : List Rule :=
  match Tree.contentOf (t.entryFrom? directory name) with
  | .ok content => rulesOf content
  | .error _ => []

/-- The rules of the repository at a directory. -/
def excludeRules (t : Tree) (directory : Trail) : List Rule :=
  match t.entryFrom? directory ".git" with
  | .ok (.file pointer) =>
    match commonDirectory? t pointer with
    | some common =>
      match t.read (join common "info/exclude") with
      | .ok content => rulesOf content
      | .error _ => []
    | none => []
  | _ => rulesFrom t directory ".git/info/exclude"

/-- The rules of a directory that is reached under a path. -/
def ofDirectory (t : Tree) (directory : Trail) (path : String) : DirectoryRules where
  ignore := ⟨withoutDot path, rulesFrom t directory ".ignore"⟩
  gitignore := ⟨withoutDot path, rulesFrom t directory ".gitignore"⟩
  exclude := ⟨withoutDot path, excludeRules t directory⟩
  isTop := Tree.holdsAny (t.entryFrom? directory ".git")

end DirectoryRules

/-- The rules around an entry. -/
structure Scope where
  /-- The path at which the scan began. -/
  start : String
  /-- The absolute path of the same directory. -/
  absolute : String
  /-- The directories from the entry up to the beginning, innermost first. -/
  inner : List DirectoryRules
  /-- The directories above the beginning, innermost first. -/
  outer : List DirectoryRules

namespace Scope

/-- The absolute form of a path of the scan. -/
def absolutePath (s : Scope) (path : String) : String :=
  let below :=
    if isHere s.start then path
    else withoutLead "/" (withoutLead (withoutDot s.start) path)
  join s.absolute below

/-- The directories up to the top of the repository, the top included; without a repository there are none. -/
def upToTop : List (DirectoryRules × String) → List (DirectoryRules × String)
  | [] => []
  | d :: rest =>
    if d.1.isTop then [d]
    else
      match upToTop rest with
      | [] => []
      | others => d :: others

/-- The verdict of the innermost directory that has one. -/
def innermost (select : DirectoryRules → RuleSet) (isDirectory : Bool) (levels : List (DirectoryRules × String)) :
    Option Verdict :=
  levels.findSome? fun level => (select level.1).judge isDirectory level.2

/-- The verdict on a path of the scan. -/
def judge (s : Scope) (isDirectory : Bool) (path : String) : Option Verdict :=
  let path := withoutDot path
  let levels := s.inner.map (·, path) ++ s.outer.map (·, s.absolutePath path)
  let repository := upToTop levels
  (innermost DirectoryRules.ignore isDirectory levels).or
    ((innermost DirectoryRules.gitignore isDirectory repository).or
      (innermost DirectoryRules.exclude isDirectory repository))

def leavesOut (s : Scope) (isDirectory : Bool) (path : String) : Bool :=
  s.judge isDirectory path = some .leaveOut

def enter (s : Scope) (t : Tree) (directory : Trail) (path : String) : Scope :=
  { s with inner := .ofDirectory t directory path :: s.inner }

/-- The rules of the directories above a trail, innermost first. -/
def above (t : Tree) : Trail → List DirectoryRules
  | [] => []
  | _ :: up => .ofDirectory t up (Trail.path up) :: above t up

/-- The scope inside the directory where a scan begins. -/
def ofStart (t : Tree) (directory : Trail) (path : String) : Scope where
  start := path
  absolute := Trail.path directory
  inner := [.ofDirectory t directory path]
  outer := above t directory

end Scope

/-- A file that was found: the names from the beginning of the scan, and its path. -/
structure Found where
  names : List String
  path : String

/-- Whether a file comes no later than another one in the order of the names along their paths. -/
def Found.isBefore (a b : Found) : Bool :=
  (List.compareLex compare a.names b.names).isLE

mutual

def foundIn (t : Tree) (ending : String) (s : Scope) (directory : Trail) (names : List String) (path : String)
    (name : String) : Entry → List Found
  | .link _ => []
  | .file _ =>
    let file := join path name
    if name.endsWith ending && !s.leavesOut false file then [⟨(name :: names).reverse, file⟩] else []
  | .directory entries =>
    let inside := join path name
    if s.leavesOut true inside then []
    else
      let trail := (name, .directory entries) :: directory
      foundAmong t ending (s.enter t trail inside) trail (name :: names) inside entries

/-- The files among some entries of a directory and below them. -/
def foundAmong (t : Tree) (ending : String) (s : Scope) (directory : Trail) (names : List String) (path : String) :
    List (String × Entry) → List Found
  | [] => []
  | (name, entry) :: rest =>
    foundIn t ending s directory names path name entry ++ foundAmong t ending s directory names path rest

end

/-- The path that stands for the standard input, below which nothing is found. -/
def standardInput : String := "-"

/-- The files below a path. -/
def found (t : Tree) (ending path : String) : List Found :=
  if path = standardInput then []
  else
    match t.trail? path with
    | .ok directory =>
      match Trail.entry t.root directory with
      | .directory entries => foundAmong t ending (.ofStart t directory path) directory [] path entries
      | _ => []
    | .error _ => []

/-- The end of the name of a snapshot. -/
def snapshotEnding : String := ".snapshot.json"

/-- The paths of the snapshots at or below a path. -/
def scan (t : Tree) (ending path : String) : List String :=
  if t.isFile path then [path]
  else ((found t ending path).mergeSort Found.isBefore).map Found.path

end ProgramGraph.Files
