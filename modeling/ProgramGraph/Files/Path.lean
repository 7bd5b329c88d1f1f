/-!
# ProgramGraph.Files.Path

Paths as texts: names with slashes between them.

* `parts`       — the names of a path, empty ones and dots included.
* `join`        — a name below a path; a path that ends in a slash gets no second one.
* `parent`      — a path without its last name; a path of one name leaves the empty path.
* `isHere`      — whether a path names the directory it starts from, as `.` does.
* `withoutLead` — a text without a leading text, and `withoutDot` a path without a leading `./`.
-/

namespace ProgramGraph.Files

/-- The names of a path, empty ones and dots included. -/
def parts (path : String) : List String :=
  path.splitOn "/"

def join (path name : String) : String :=
  if path.isEmpty || path.endsWith "/" then path ++ name else path ++ "/" ++ name

/-- Whether a part of a path adds nothing to it. -/
def isIdle (part : String) : Bool :=
  part = "" || part = "."

def isAbsolute (path : String) : Bool :=
  path.startsWith "/"

/-- A path without its last name. A dot counts only at the beginning of a path. -/
def parent (path : String) : String :=
  let here := if (parts path).head? = some "." then ["."] else []
  let names := here ++ (parts path).filter fun p => !isIdle p
  let above := "/".intercalate names.dropLast
  if isAbsolute path then "/" ++ above else above

/-- Whether a path names the directory it starts from. -/
def isHere (path : String) : Bool :=
  (parts path).head? = some "." && (parts path).all isIdle

/-- A list without a leading list, if it has that. -/
def withoutLead? {α : Type} [BEq α] (lead list : List α) : Option (List α) :=
  if lead.isPrefixOf list then some (list.drop lead.length) else none

/-- A text without a leading text, or as it is. -/
def withoutLead (lead text : String) : String :=
  match withoutLead? lead.toList text.toList with
  | some rest => String.ofList rest
  | none => text

def withoutDot (path : String) : String :=
  withoutLead "./" path

end ProgramGraph.Files
