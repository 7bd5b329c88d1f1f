import ProgramGraph.Files.Path

/-!
# ProgramGraph.Files.Tree

Trees of directories, files and symbolic links, and finding the way in them.

* `Entry`     — a directory with named entries, a file with its bytes, or a link with its target.
* `Tree`      — a root directory and a working directory in it, from which paths that are not absolute start.
* `Trail`     — a way from the root down to an entry.
* `FileError` — why a path leads nowhere or its entry cannot be read.
* `walk`      — follow the parts of a path. At most `linkLimit` links are followed, so a walk ends.
* `Tree.trail?`, `Tree.isFile`, `Tree.isDirectory`, `Tree.read`, `Tree.readText` — what a path leads to.
* `Tree.insert` — add an entry, together with the directories above it.
-/

namespace ProgramGraph.Files

/-- What stands in a directory. -/
inductive Entry where
  | directory (entries : List (String × Entry))
  | file (content : List UInt8)
  | link (target : String)
  deriving Inhabited

/-- Why a path leads nowhere or its entry cannot be read. -/
inductive FileError where
  | notFound
  | notADirectory
  /-- Too many links had to be followed. -/
  | tooManyLinks
  | isADirectory
  /-- The bytes are no text. -/
  | notText
  deriving DecidableEq, Repr

/-- A way from the root down to an entry, the last step first. -/
abbrev Trail := List (String × Entry)

/-- How many links are followed on the way along one path. -/
def linkLimit : Nat := 40

/-- The entry at the end of a trail. -/
def Trail.entry (root : Entry) (trail : Trail) : Entry :=
  match trail with
  | [] => root
  | (_, e) :: _ => e

/-- The names along a trail, from the root. -/
def Trail.names (trail : Trail) : List String :=
  (trail.map Prod.fst).reverse

def Trail.path (trail : Trail) : String :=
  "/" ++ "/".intercalate trail.names

/-- Follow the parts of a path from a trail; `links` more links may be followed. A link at the very end stays unless it is
to be followed. -/
def walk (root : Entry) (followLast : Bool) (links : Nat) (trail : Trail) :
    List String → Except FileError Trail
  | [] => .ok trail
  | part :: rest =>
    match trail.entry root with
    | .directory entries =>
      if isIdle part then walk root followLast links trail rest
      else if part = ".." then walk root followLast links trail.tail rest
      else
        match entries.lookup part with
        | none => .error .notFound
        | some (.link target) =>
          if rest.isEmpty && !followLast then .ok ((part, .link target) :: trail)
          else
            match links with
            | 0 => .error .tooManyLinks
            | left + 1 =>
              let start := if isAbsolute target then [] else trail
              walk root followLast left start (parts target ++ rest)
        | some e => walk root followLast links ((part, e) :: trail) rest
    | _ => .error .notADirectory
termination_by pending => (links, pending.length)

/-- A root directory and a working directory in it. -/
structure Tree where
  root : Entry := .directory []
  workingDirectory : List String := []

namespace Tree

/-- The trail along which a path leads from a directory. -/
def trailFrom? (t : Tree) (start : Trail) (path : String) : Except FileError Trail :=
  if path.isEmpty then .error .notFound
  else walk t.root true linkLimit (if isAbsolute path then [] else start) (parts path)

def here? (t : Tree) : Except FileError Trail :=
  walk t.root true linkLimit [] t.workingDirectory

/-- The trail along which a path leads from the working directory. -/
def trail? (t : Tree) (path : String) : Except FileError Trail := do
  t.trailFrom? (← t.here?) path

/-- The entry to which a path leads from a directory. -/
def entryFrom? (t : Tree) (start : Trail) (path : String) : Except FileError Entry :=
  (t.trailFrom? start path).map (Trail.entry t.root)

def entry? (t : Tree) (path : String) : Except FileError Entry :=
  (t.trail? path).map (Trail.entry t.root)

def holdsFile : Except FileError Entry → Bool
  | .ok (.file _) => true
  | _ => false

def holdsDirectory : Except FileError Entry → Bool
  | .ok (.directory _) => true
  | _ => false

def holdsAny : Except FileError Entry → Bool
  | .ok _ => true
  | .error _ => false

def contentOf : Except FileError Entry → Except FileError (List UInt8)
  | .ok (.file content) => .ok content
  | .ok (.directory _) => .error .isADirectory
  | .ok (.link _) => .error .notFound
  | .error e => .error e

def isFile (t : Tree) (path : String) : Bool :=
  holdsFile (t.entry? path)

def isDirectory (t : Tree) (path : String) : Bool :=
  holdsDirectory (t.entry? path)

def read (t : Tree) (path : String) : Except FileError (List UInt8) :=
  contentOf (t.entry? path)

def textOf (bytes : List UInt8) : Except FileError String :=
  match String.fromUTF8? ⟨bytes.toArray⟩ with
  | some s => .ok s
  | none => .error .notText

def readText (t : Tree) (path : String) : Except FileError String := do
  textOf (← t.read path)

end Tree

/-! ## Making trees -/

/-- Change the entry with a name, or add one. -/
def setEntry (name : String) (change : Option Entry → Entry) : List (String × Entry) → List (String × Entry)
  | [] => [(name, change none)]
  | (n, e) :: rest => if n = name then (n, change (some e)) :: rest else (n, e) :: setEntry name change rest

/-- The entries of a directory; anything else has none. -/
def entriesOf : Option Entry → List (String × Entry)
  | some (.directory entries) => entries
  | _ => []

/-- An entry put at the end of a list of names below another one. A directory that is there already stays. -/
def placed (leaf : Entry) : List String → Option Entry → Entry
  | [], old =>
    match old, leaf with
    | some (.directory entries), .directory [] => .directory entries
    | _, _ => leaf
  | name :: rest, old => .directory (setEntry name (placed leaf rest) (entriesOf old))

/-- A tree with one more entry at a path, and with the directories above it. -/
def Tree.insert (t : Tree) (path : String) (leaf : Entry) : Tree :=
  let names := (parts path).filter fun p => !isIdle p
  let below := if isAbsolute path then names else t.workingDirectory ++ names
  { t with root := placed leaf below (some t.root) }

end ProgramGraph.Files
