import ProgramGraph.Files.Path

/-!
# ProgramGraph.Files.Glob

Patterns for paths. A path is matched byte by byte, and `*` and `?` never match a slash.

* `Token`        — the pieces of a pattern.
* `Glob.read?`   — a pattern from its text. A backslash takes the next character as it is; `**` between slashes stands
  for any directories; `[a-z]` is a class, `[!a-z]` and `[^a-z]` its complement, and a class without an end is no class;
  `{a,b}` stands for either. A group that is not closed or not opened, a range that runs backwards and a backslash at the
  end make no pattern.
* `Glob.matches` — whether a pattern matches a whole path. A pattern is walked through with the list of the rests of the
  path that are left.
-/

namespace ProgramGraph.Files

/-- A piece of a pattern. -/
inductive Token where
  | literal (bytes : List UInt8)
  /-- One byte other than a slash. -/
  | any
  /-- Bytes other than slashes. -/
  | star
  /-- Any directories at the beginning. -/
  | leading
  /-- A slash and anything after it. -/
  | trailing
  /-- Any directories between two slashes. -/
  | between
  | range (negated : Bool) (members : List (UInt8 × UInt8))
  | choice (branches : List (List Token))
  deriving Inhabited

/-- A pattern. -/
structure Glob where
  tokens : List Token

def slash : UInt8 := 0x2f

def bytesOf (c : Char) : List UInt8 :=
  (String.singleton c).toUTF8.toList

/-! ## Classes -/

/-- The end of a class. -/
inductive ClassEnd where
  | closed (ranges : List (Char × Char)) (rest : List Char)
  | unclosed
  | backwards

/-- The ranges of a class from a place in it on. A closing bracket or a hyphen right at the beginning is a member; after a
hyphen the next character is the upper end of the last range, and a hyphen at the end is a member again. -/
def readClass (first afterHyphen : Bool) (ranges : List (Char × Char)) : List Char → ClassEnd
  | [] => .unclosed
  | c :: rest =>
    if c = ']' && !first then
      .closed (if afterHyphen then ('-', '-') :: ranges else ranges).reverse rest
    else if afterHyphen then
      match ranges with
      | (low, _) :: before =>
        if c < low then .backwards else readClass false false ((low, c) :: before) rest
      | [] => readClass false false [(c, c)] rest
    else if c = '-' && !first then readClass false true ranges rest
    else readClass false false ((c, c) :: ranges) rest

/-- What follows a class is shorter than the class with what follows it. -/
theorem length_of_readClass {first afterHyphen : Bool} {ranges found : List (Char × Char)} {cs rest : List Char}
    (h : readClass first afterHyphen ranges cs = .closed found rest) : rest.length < cs.length := by
  fun_induction readClass first afterHyphen ranges cs with
  | case1 => cases h
  | case2 => cases h; simp
  | case3 => cases h
  | case4 _ _ _ _ _ _ _ _ ih => exact Nat.lt_succ_of_lt (ih h)
  | case5 _ _ _ _ ih => exact Nat.lt_succ_of_lt (ih h)
  | case6 _ _ _ _ _ _ _ _ ih => exact Nat.lt_succ_of_lt (ih h)
  | case7 _ _ _ _ _ _ _ _ ih => exact Nat.lt_succ_of_lt (ih h)

def singles (bytes : List UInt8) : List (UInt8 × UInt8) :=
  bytes.map fun b => (b, b)

/-- A range of characters as ranges of bytes: only the last byte of the lower end and the first byte of the upper end
span a range. -/
def byteRanges (r : Char × Char) : List (UInt8 × UInt8) :=
  let low := bytesOf r.1
  let high := bytesOf r.2
  if r.1 = r.2 then singles low
  else singles low.dropLast ++ (low.getLast?.getD 0, high.head?.getD 0) :: singles high.tail

/-! ## Reading -/

/-- A group that is still open: what stands before it, and its branches so far, both last first. -/
structure OpenGroup where
  before : List Token
  branches : List (List Token)

/-- A pattern under way: the pieces of the branch that is being read, last first, and the groups around it. -/
structure Draft where
  pieces : List Token := []
  groups : List OpenGroup := []

namespace Draft

def push (d : Draft) (t : Token) : Draft :=
  { d with pieces := t :: d.pieces }

def pushChar (d : Draft) (c : Char) : Draft :=
  d.push (.literal (bytesOf c))

/-- Two stars that are no directories. -/
def pushStars (d : Draft) : Draft :=
  (d.push .star).push .star

def inGroup (d : Draft) : Bool :=
  !d.groups.isEmpty

def openGroup (d : Draft) : Draft :=
  ⟨[], ⟨d.pieces, []⟩ :: d.groups⟩

/-- A comma: the next branch of the group, if one is open. -/
def comma (d : Draft) : Draft :=
  match d.groups with
  | [] => d.pushChar ','
  | g :: outer => ⟨[], ⟨g.before, d.pieces.reverse :: g.branches⟩ :: outer⟩

def closeGroup? (d : Draft) : Option Draft :=
  match d.groups with
  | [] => none
  | g :: outer => some ⟨.choice (d.pieces.reverse :: g.branches).reverse :: g.before, outer⟩

/-- The last piece, a slash, becomes any directories; two such pieces in a row are one. -/
def widen (d : Draft) (t : Token) : Draft :=
  match d.pieces with
  | .leading :: _ => d
  | .trailing :: _ => d
  | _ :: rest => { d with pieces := t :: rest }
  | [] => d.push t

end Draft

/-- What two stars stand for. -/
inductive Stars where
  /-- Two stars that are no directories. -/
  | plain
  /-- Directories at the beginning. -/
  | leading
  /-- Everything below. -/
  | trailing
  /-- Directories between two slashes. -/
  | between
  deriving DecidableEq, Repr

/-- What two stars stand for, by the character before them and the characters after them. -/
def starsAt (previous : Option Char) (d : Draft) (rest : List Char) : Stars :=
  let next := rest.head?
  if d.pieces.isEmpty then
    if next = none || next = some '/' then .leading else .plain
  else if previous ≠ some '/' && (!d.inGroup || (previous ≠ some ',' && previous ≠ some '\x7b')) then .plain
  else if next = none then .trailing
  else if d.inGroup && (next = some ',' || next = some '\x7d') then .trailing
  else if next = some '/' then .between
  else .plain

/-- Whether the slash after two stars belongs to them. -/
def Stars.takesSlash : Stars → Bool
  | .leading | .between => true
  | _ => false

def Draft.pushDirectories (d : Draft) : Stars → Draft
  | .plain => d.pushStars
  | .leading => d.push .leading
  | .trailing => d.widen .trailing
  | .between => d.widen .between

/-- A class after its opening bracket: whether it is a complement, and its end. -/
def classAt : List Char → Bool × ClassEnd
  | '!' :: rest => (true, readClass true false [] rest)
  | '^' :: rest => (true, readClass true false [] rest)
  | cs => (false, readClass true false [] cs)

/-- What follows a class is shorter than the class with what follows it. -/
theorem length_of_classAt {negated : Bool} {found : List (Char × Char)} {cs rest : List Char}
    (h : classAt cs = (negated, .closed found rest)) : rest.length < cs.length := by
  unfold classAt at h
  split at h
  · have := length_of_readClass (Prod.mk.inj h).2
    simp only [List.length_cons]
    omega
  · have := length_of_readClass (Prod.mk.inj h).2
    simp only [List.length_cons]
    omega
  · exact length_of_readClass (Prod.mk.inj h).2

/-- The pieces of a pattern from a place in it on. -/
def readTokens (previous : Option Char) (d : Draft) : List Char → Option (List Token)
  | [] => if d.inGroup then none else some d.pieces.reverse
  | '\\' :: [] => none
  | '\\' :: c :: rest => readTokens (some c) (d.pushChar c) rest
  | '*' :: '*' :: rest =>
    let stars := starsAt previous d rest
    if stars.takesSlash && !rest.isEmpty then
      readTokens (some '/') (d.pushDirectories stars) rest.tail
    else readTokens (some '*') (d.pushDirectories stars) rest
  | c :: rest =>
    if c = '?' then readTokens (some c) (d.push .any) rest
    else if c = '*' then readTokens (some c) (d.push .star) rest
    else if c = '\x7b' then readTokens (some c) d.openGroup rest
    else if c = '\x7d' then
      match d.closeGroup? with
      | some d => readTokens (some c) d rest
      | none => none
    else if c = ',' then readTokens (some c) d.comma rest
    else if c = '[' then
      match _h : classAt rest with
      | (negated, .closed ranges after) =>
        readTokens (some ']') (d.push (.range negated (ranges.flatMap byteRanges))) after
      | (_, .backwards) => none
      | (_, .unclosed) => readTokens (some c) (d.pushChar c) rest
    else readTokens (some c) (d.pushChar c) rest
termination_by cs => cs.length
decreasing_by
  all_goals simp_wf
  all_goals try omega
  have := length_of_classAt _h
  omega

def Glob.read? (text : String) : Option Glob :=
  (readTokens none {} text.toList).map Glob.mk

/-! ## Matching -/

/-- Every rest of a list, the list itself first. -/
def rests : List UInt8 → List (List UInt8)
  | [] => [[]]
  | b :: rest => (b :: rest) :: rests rest

/-- The rests of a list before its first slash is passed. -/
def restsInName : List UInt8 → List (List UInt8)
  | [] => [[]]
  | b :: rest => (b :: rest) :: if b = slash then [] else restsInName rest

/-- What follows each slash of a list. -/
def restsAfterSlash : List UInt8 → List (List UInt8)
  | [] => []
  | b :: rest => if b = slash then rest :: restsAfterSlash rest else restsAfterSlash rest

def inClass (negated : Bool) (members : List (UInt8 × UInt8)) (b : UInt8) : Bool :=
  (members.any fun r => r.1 ≤ b && b ≤ r.2) != negated

mutual

/-- Whether a piece stands for nothing at all: a group of nothing but such branches. -/
def Token.isVoid : Token → Bool
  | .choice branches => areVoid branches
  | _ => false

def areVoid : List (List Token) → Bool
  | [] => true
  | branch :: rest => isVoidBranch branch && areVoid rest

def isVoidBranch : List Token → Bool
  | [] => true
  | t :: rest => t.isVoid && isVoidBranch rest

end

mutual

/-- The rests of a path after a piece. -/
def Token.after : Token → List UInt8 → List (List UInt8)
  | .literal bytes, path => (withoutLead? bytes path).toList
  | .any, b :: rest => if b = slash then [] else [rest]
  | .any, [] => []
  | .star, path => restsInName path
  | .leading, path => path :: restsAfterSlash path
  | .trailing, b :: rest => if b = slash then rests rest else []
  | .trailing, [] => []
  | .between, b :: rest => if b = slash then rest :: restsAfterSlash rest else []
  | .between, [] => []
  | .range negated members, b :: rest => if inClass negated members b then [rest] else []
  | .range _ _, [] => []
  | .choice branches, path => if areVoid branches then [path] else afterBranches branches path

/-- The rests of a path after any of some branches; those that stand for nothing do not count. -/
def afterBranches : List (List Token) → List UInt8 → List (List UInt8)
  | [], _ => []
  | branch :: others, path =>
    (if isVoidBranch branch then [] else afterTokens branch [path]) ++ afterBranches others path

/-- The rests that are left of some rests after a list of pieces, each once. -/
def afterTokens : List Token → List (List UInt8) → List (List UInt8)
  | [], left => left
  | t :: ts, left => afterTokens ts (left.flatMap t.after).eraseDups

end

/-- Whether a pattern matches a whole path. Directories at the beginning and nothing else match everything. -/
def Glob.matches (g : Glob) (path : List UInt8) : Bool :=
  match g.tokens with
  | [.leading] => true
  | tokens => (afterTokens tokens [path]).any List.isEmpty

end ProgramGraph.Files
