import ProgramGraph.Files.Tree

/-!
# ProgramGraph.Files.Repository

Git repositories in a tree, and the commit that is checked out in them.

* `RepositoryPosition`  — a commit and a branch, as far as they are known.
* `Repository.isSound`  — a repository has a file `HEAD` and directories `objects` and `refs`.
* `Repository.enclosing?` — the repository around a directory: its `.git`, the directory itself, and then the same one level
  up. A `.git` file points to a repository elsewhere, and ends the search.
* `Reference`           — what a reference holds: another reference or a commit. A reference has a file of its own or a
  line in `packed-refs`; the file wins.
* `Repository.head?`    — the reference at the end of the chain that starts at `HEAD`.
* `positionAt`          — the position for a path; a path that leads to a file stands for the directory that holds it.
-/

namespace ProgramGraph.Files

/-- A commit and a branch, as far as they are known. -/
structure RepositoryPosition where
  commit : Option String := none
  branch : Option String := none
  deriving DecidableEq, Repr

/-- A repository: its own directory, and the one that it shares with others. -/
structure Repository where
  directory : Trail
  shared : Trail

/-- What a reference holds. -/
inductive Reference where
  | symbolic (target : String)
  | commit (id : String)
  deriving DecidableEq, Repr

/-- Why a reference has no value. -/
inductive ReferenceError where
  | missing
  | corrupted
  deriving DecidableEq, Repr

def isSpace (c : Char) : Bool :=
  c = ' ' || ('\t' ≤ c && c ≤ '\r')

/-- A text without white space at its end. -/
def trimSpaceEnd (cs : List Char) : List Char :=
  (cs.reverse.dropWhile isSpace).reverse

/-- The text of a file below a directory. -/
def textBelow (t : Tree) (directory : Trail) (path : String) : Except FileError String := do
  Tree.textOf (← Tree.contentOf (t.entryFrom? directory path))

/-- The directory to which a path leads from another one. -/
def directoryBelow? (t : Tree) (directory : Trail) (path : String) : Option Trail :=
  match t.trailFrom? directory path with
  | .ok trail => if Tree.holdsDirectory (.ok (trail.entry t.root)) then some trail else none
  | .error _ => none

namespace Repository

/-- The directory that a repository shares with others: named in its file `commondir`, or its own. -/
def sharedOf? (t : Tree) (directory : Trail) : Option Trail :=
  match textBelow t directory "commondir" with
  | .ok s => directoryBelow? t directory (String.ofList (trimSpaceEnd s.toList))
  | .error _ => some directory

def ofDirectory? (t : Tree) (directory : Trail) : Option Repository :=
  (sharedOf? t directory).map (Repository.mk directory)

def isSound (t : Tree) (r : Repository) : Bool :=
  Tree.holdsFile (t.entryFrom? r.directory "HEAD")
    && Tree.holdsDirectory (t.entryFrom? r.shared "objects")
    && Tree.holdsDirectory (t.entryFrom? r.shared "refs")

def soundAt? (t : Tree) (directory : Trail) : Option Repository :=
  match ofDirectory? t directory with
  | some r => if r.isSound t then some r else none
  | none => none

/-- What a `.git` file says. -/
def pointer : List Char :=
  ['g', 'i', 't', 'd', 'i', 'r', ':']

/-- The directory to which the text of a `.git` file in a directory points. -/
def pointedTo? (t : Tree) (directory : Trail) (text : String) : Option Trail := do
  let target ← withoutLead? pointer (trimSpaceEnd text.toList)
  directoryBelow? t directory (String.ofList (target.dropWhile isSpace))

/-- One step of the search: the answer, or none to go on one level up. -/
def search (t : Tree) (directory : Trail) : Option (Option Repository) :=
  match t.entryFrom? directory ".git" with
  | .ok (.file content) =>
    match Tree.textOf content with
    | .ok text => some ((pointedTo? t directory text).bind (soundAt? t))
    | .error _ => some none
  | _ =>
    match (directoryBelow? t directory ".git").bind (soundAt? t) with
    | some r => some (some r)
    | none => (soundAt? t directory).map some

def enclosing? (t : Tree) (directory : Trail) : Option Repository :=
  match search t directory with
  | some answer => answer
  | none =>
    match directory with
    | [] => none
    | _ :: up => enclosing? t up

end Repository

namespace Reference

/-- How many hexadecimal digits the id of a commit has. -/
def idLength : Nat := 40

def isHex (c : Char) : Bool :=
  c.isDigit || ('a' ≤ c.toLower && c.toLower ≤ 'f')

/-- The id at the beginning of a text, in lower case, and what follows it. -/
def id? (cs : List Char) : Option (String × List Char) :=
  let digits := cs.take idLength
  if digits.length = idLength && digits.all isHex then
    some (String.ofList (digits.map Char.toLower), cs.drop idLength)
  else none

/-- What a symbolic reference begins with. -/
def symbol : List Char :=
  ['r', 'e', 'f', ':', ' ']

/-- The value of the text of a reference. -/
def ofText (text : String) : Except ReferenceError Reference :=
  match withoutLead? symbol text.toList with
  | some target =>
    let target := trimSpaceEnd target
    if target.isEmpty then .error .corrupted else .ok (.symbolic (String.ofList target))
  | none =>
    match id? text.toList with
    | some (id, []) => .ok (.commit id)
    | some (id, c :: _) => if isSpace c then .ok (.commit id) else .error .corrupted
    | none => .error .corrupted

/-- The value that a line of packed references gives to a name. -/
def ofPackedLine? (name line : String) : Option Reference := do
  let (id, rest) ← id? line.toList
  match rest with
  | ' ' :: found => if found = name.toList then some (.commit id) else none
  | _ => none

/-- The value of a name in packed references. Only lines that end count. -/
def ofPacked (name text : String) : Except ReferenceError Reference :=
  match (text.splitOn "\n").dropLast.findSome? (ofPackedLine? name) with
  | some r => .ok r
  | none => .error .missing

/-! ## Names -/

/-- Characters that no name holds. -/
def forbidden : List Char :=
  ['~', '^', ':', '\\', '?', '[', '*']

def holdsPair (a b : Char) : List Char → Bool
  | c :: d :: rest => (c = a && d = b) || holdsPair a b (d :: rest)
  | _ => false

/-- Whether a text can be a part of a name. -/
def isPart (part : List Char) : Bool :=
  part.head? ≠ some '.' && part.all (fun c => ' ' < c && !forbidden.contains c)
    && !holdsPair '.' '.' part && !holdsPair '@' '\x7b' part
    && !(['.', 'l', 'o', 'c', 'k'].isSuffixOf part)

/-- Whether a part is in capital letters. -/
def isCapital (part : String) : Bool :=
  part.toList.all fun c => c.isUpper || c = '_'

/-- A name in its plain form: parts with one slash between them. A name of one part is in capital letters, and the first
part of a longer one is not. -/
def plainName? (name : String) : Option String :=
  let all := parts name
  let named := all.filter fun p => p ≠ ""
  let shape := match named with
    | [] => false
    | [only] => isCapital only
    | first :: _ => !isCapital first
  if shape && all.head? ≠ some "" && all.getLast? ≠ some "" && all.all (fun p => isPart p.toList)
      && name.toList.getLast? ≠ some '.' then
    some ("/".intercalate named)
  else none

/-- What is left out of the name of a branch or tag. -/
def headings : List String :=
  ["refs/heads/", "refs/tags/", "refs/remotes/", "refs/"]

def shortName (name : String) : String :=
  let rest := headings.findSome? fun h => withoutLead? h.toList name.toList
  match rest with
  | some cs => String.ofList cs
  | none => name

end Reference

namespace Repository

/-- Whether every repository has a reference of this name of its own. -/
def isOwn (name : String) : Bool :=
  !name.startsWith "refs/" || name.startsWith "refs/bisect/"

def lookup (t : Tree) (r : Repository) (name : String) : Except ReferenceError Reference :=
  let base := if isOwn name then r.directory else r.shared
  match t.entryFrom? base name with
  | .ok (.file content) =>
    match Tree.textOf content with
    | .ok text => Reference.ofText text
    | .error _ => .error .corrupted
  | .error .tooManyLinks => .error .corrupted
  | _ =>
    match textBelow t r.shared "packed-refs" with
    | .ok text => Reference.ofPacked name text
    | .error _ => .error .missing

/-- The commit at the end of a chain of references, with the name of the last one; at most `links` more references are
looked up. -/
def follow? (t : Tree) (r : Repository) (name : String) : Nat → Option (String × String)
  | 0 => none
  | links + 1 =>
    match lookup t r name with
    | .ok (.commit id) => some (name, id)
    | .ok (.symbolic target) => follow? t r target links
    | .error _ => none

/-- How many references are looked up after `HEAD`. -/
def chainLimit : Nat := 6

/-- The reference that is checked out: its name and its commit. -/
def head? (t : Tree) (r : Repository) : Option (String × String) :=
  match lookup t r "HEAD" with
  | .ok (.commit id) => some ("HEAD", id)
  | .ok (.symbolic target) => (Reference.plainName? target).bind fun name => follow? t r name chainLimit
  | .error _ => none

end Repository

def positionAt (t : Tree) (path : String) : RepositoryPosition :=
  let start := if t.isFile path then parent path else path
  match t.trail? start with
  | .error _ => {}
  | .ok directory =>
    match (Repository.enclosing? t directory).bind fun r => r.head? t with
    | some (name, id) => { commit := some id, branch := some (Reference.shortName name) }
    | none => {}

end ProgramGraph.Files
