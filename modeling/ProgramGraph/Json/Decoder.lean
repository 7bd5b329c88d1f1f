import ProgramGraph.Json.Outline

/-!
# ProgramGraph.Json.Decoder

Reading typed values from the tree of a JSON text.

A decoder walks a tree from left to right and reports the first problem it meets. It is told how many arrays and
objects are open around the value: at most `nestingLimit` may be open on the way down to a value that is read.

* `skip` — accept any value; numbers may be out of range and nesting is unlimited.
* `vet`  — accept any value that could be read: it is walked completely before anything is made of it.
* `natural`, `bool`, `text`, `optional`, `list`, `choice` — the plain decoders.
* `Fields`  — the fields of a record, put together with `<$>` and `<*>`.
* `record`  — a record from an object (fields in any order, unknown ones skipped, none twice) or from an array of its
  fields in order, where fields with a default may be missing at the end.
* `flattened` — a record whose outer fields are read as they come, while all other members are vetted and handed to
  the inner record when the object ends.
* `tagged`  — a record of one of several shapes, chosen by its tag.
* `pairs`   — an object with any names.
* `read`    — a whole text.
-/

namespace ProgramGraph.Json

/-- Arrays and objects that may be open around a value that is read. -/
def nestingLimit : Nat := 127

/-- The way to read a value of type `α`, given how many arrays and objects are open around it. -/
abbrev Decoder (α : Type) := Nat → Outline → Except Fault α

namespace Ending

/-- Read on to the end of an array or object. -/
def read : Ending → Except Fault Unit
  | .closed => .ok ()
  | .truncated => .error .truncated
  | .dangling => .error .truncated
  | .stray place => .error place.read

/-- Skip on to the end of an array or object. -/
def skip : Ending → Except Fault Unit
  | .closed => .ok ()
  | .truncated => .error .truncated
  | .dangling => .error .truncated
  | .stray place => .error place.skip

/-- Nothing but the closing bracket may come now. -/
def close : Ending → Except Fault Unit
  | .closed => .ok ()
  | .truncated => .error .truncated
  | _ => .error .malformed

/-- The name of a choice should come now. -/
def choice : Ending → Fault
  | .closed => .malformed
  | .truncated => .truncated
  | .dangling => .truncated
  | .stray place => place.choice

end Ending

mutual

def skip : Outline → Except Fault Unit
  | .broken place => .error place.skip
  | .array items ending => do skipItems items; ending.skip
  | .object members ending => do skipMembers members; ending.skip
  | _ => .ok ()

def skipItems : List Outline → Except Fault Unit
  | [] => .ok ()
  | item :: rest => do skip item; skipItems rest

def skipMembers : List (Option String × Outline) → Except Fault Unit
  | [] => .ok ()
  | (_, value) :: rest => do skip value; skipMembers rest

end

/-- One more array or object is opened, if that is still allowed. -/
def enter (depth : Nat) : Except Fault Nat :=
  if depth < nestingLimit then .ok (depth + 1) else .error .malformed

mutual

def vet (depth : Nat) : Outline → Except Fault Unit
  | .null => .ok ()
  | .bool _ => .ok ()
  | .number n => if n.inRange then .ok () else .error .malformed
  | .string text => if text.isSome then .ok () else .error .malformed
  | .broken place => .error place.read
  | .array items ending => do
    let inside ← enter depth
    vetItems inside items
    ending.read
  | .object members ending => do
    let inside ← enter depth
    vetMembers inside members
    ending.read

def vetItems (depth : Nat) : List Outline → Except Fault Unit
  | [] => .ok ()
  | item :: rest => do vet depth item; vetItems depth rest

def vetMembers (depth : Nat) : List (Option String × Outline) → Except Fault Unit
  | [] => .ok ()
  | (name, value) :: rest => do
    if name.isNone then throw .malformed
    vet depth value
    vetMembers depth rest

end

namespace Outline

/-- The fault of a value that has the wrong shape: it is still read, unless it is an array or an object. -/
def misfit : Outline → Fault
  | .broken place => place.read
  | .string none => .malformed
  | .number n => if n.inRange then .mismatch else .malformed
  | _ => .mismatch

end Outline

/-- A natural number below `bound`, written as an integer literal without a sign. -/
def natural (bound : Nat) : Decoder Nat
  | _, .number n =>
    match n.natural? with
    | some k => if k < bound then .ok k else .error (Outline.number n).misfit
    | none => .error (Outline.number n).misfit
  | _, o => .error o.misfit

def word32 : Decoder UInt32 :=
  fun depth o => (natural UInt32.size depth o).map UInt32.ofNat

def word64 : Decoder UInt64 :=
  fun depth o => (natural UInt64.size depth o).map UInt64.ofNat

def bool : Decoder Bool
  | _, .bool b => .ok b
  | _, o => .error o.misfit

def text : Decoder String
  | _, .string (some s) => .ok s
  | _, o => .error o.misfit

def optional {α : Type} (decode : Decoder α) : Decoder (Option α)
  | _, .null => .ok none
  | depth, o => (decode depth o).map some

/-- The items of an array, in order. -/
def listItems {α : Type} (decode : Decoder α) (depth : Nat) : List Outline → Except Fault (List α)
  | [] => .ok []
  | item :: rest => do
    let first ← decode depth item
    let others ← listItems decode depth rest
    return first :: others

def list {α : Type} (decode : Decoder α) : Decoder (List α)
  | depth, .array items ending => do
    let inside ← enter depth
    let values ← listItems decode inside items
    ending.read
    return values
  | _, o => .error o.misfit

/-- A value chosen by its name, read as a text. -/
def named {α : Type} (choose : String → Option α) : Decoder α
  | _, .string (some s) =>
    match choose s with
    | some a => .ok a
    | none => .error .mismatch
  | _, o => .error o.misfit

/-- What the payload of a choice may be: `null`. -/
def payload : Outline → Except Fault Unit
  | .null => .ok ()
  | o => .error o.misfit

/-- A value chosen by its name: the name as a text, or an object with the name as its only member and `null` as its
value. -/
def choice {α : Type} (choose : String → Option α) : Decoder α
  | _, .string (some s) =>
    match choose s with
    | some a => .ok a
    | none => .error .mismatch
  | depth, .object members ending => do
    let _ ← enter depth
    match members with
    | [] => throw ending.choice
    | (none, _) :: _ => throw .malformed
    | (some s, value) :: others =>
      match choose s with
      | none => throw .mismatch
      | some a =>
        payload value
        if others.isEmpty then ending.close else throw .malformed
        return a
  | _, .broken place => .error place.choice
  | _, _ => .error .malformed

/-- A choice inside a vetted value: every fault is a mismatch, and an empty object may stand for `null`. -/
def vettedChoice {α : Type} (choose : String → Option α) : Decoder α
  | _, .string (some s) =>
    match choose s with
    | some a => .ok a
    | none => .error .mismatch
  | _, .object [(some s, value)] _ =>
    match choose s, value with
    | some a, .null => .ok a
    | some a, .object [] _ => .ok a
    | _, _ => .error .mismatch
  | _, _ => .error .mismatch

/-- One field of a record under way: its name, whether it is filled, and how to fill it. -/
structure Slot (δ : Type) where
  name : String
  filled : δ → Bool
  fill : Nat → Outline → δ → Except Fault δ

/-- The fields of a record of type `ρ`, with the type of a record under way. -/
structure Fields (ρ : Type) : Type 1 where
  Draft : Type
  blank : Draft
  slots : List (Slot Draft)
  /-- The record, unless a field without a default is missing. -/
  finish : Draft → Option ρ

namespace Slot

/-- A slot of the first of two records under way. -/
def first {α β : Type} (s : Slot α) : Slot (α × β) where
  name := s.name
  filled d := s.filled d.1
  fill depth o d := (s.fill depth o d.1).map fun a => (a, d.2)

/-- A slot of the second of two records under way. -/
def second {α β : Type} (s : Slot β) : Slot (α × β) where
  name := s.name
  filled d := s.filled d.2
  fill depth o d := (s.fill depth o d.2).map fun b => (d.1, b)

end Slot

namespace Fields

/-- One field, and what it gives when it is filled or absent. -/
def field {α β : Type} (name : String) (decode : Decoder α) (finish : Option α → Option β) : Fields β where
  Draft := Option α
  blank := none
  slots := [{ name := name, filled := Option.isSome, fill := fun depth o _ => (decode depth o).map some }]
  finish := finish

def required {α : Type} (name : String) (decode : Decoder α) : Fields α :=
  field name decode id

/-- A field that may be absent, and then has the given value. -/
def defaulted {α : Type} (name : String) (decode : Decoder α) (value : α) : Fields α :=
  field name decode fun found => some (found.getD value)

/-- A field that may be absent or `null`. -/
def optional {α : Type} (name : String) (decode : Decoder α) : Fields (Option α) :=
  field name (Json.optional decode) fun found => some found.join

/-- The fields of two records side by side. -/
def both {α β : Type} (p : Fields α) (q : Fields β) : Fields (α × β) where
  Draft := p.Draft × q.Draft
  blank := (p.blank, q.blank)
  slots := p.slots.map Slot.first ++ q.slots.map Slot.second
  finish d := do return (← p.finish d.1, ← q.finish d.2)

/-- The same fields, the record passed through a function. -/
def map {α β : Type} (f : α → β) (p : Fields α) : Fields β where
  Draft := p.Draft
  blank := p.blank
  slots := p.slots
  finish d := (p.finish d).map f

instance : Applicative Fields where
  pure a := { Draft := Unit, blank := (), slots := [], finish := fun _ => some a }
  map := map
  seq p q := map (fun pair => pair.1 pair.2) (both p (q ()))

end Fields

def slotFor? {δ : Type} (slots : List (Slot δ)) (name : String) : Option (Slot δ) :=
  slots.find? fun s => s.name = name

/-- A member of an object: fill its slot, which must not be filled yet. A member without a slot goes to `other`. -/
def fillMember {δ ε : Type} (slots : List (Slot δ)) (other : String → Outline → ε → Except Fault ε) (depth : Nat)
    (name : Option String) (value : Outline) (draft : δ × ε) : Except Fault (δ × ε) :=
  match name with
  | none => .error .malformed
  | some n =>
    match slotFor? slots n with
    | none => (other n value draft.2).map fun e => (draft.1, e)
    | some slot =>
      if slot.filled draft.1 then .error .mismatch
      else (slot.fill depth value draft.1).map fun d => (d, draft.2)

/-- The members of an object in their order. -/
def fillMembers {δ ε : Type} (slots : List (Slot δ)) (other : String → Outline → ε → Except Fault ε) (depth : Nat) :
    List (Option String × Outline) → δ × ε → Except Fault (δ × ε)
  | [], draft => .ok draft
  | (name, value) :: rest, draft => do
    let next ← fillMember slots other depth name value draft
    fillMembers slots other depth rest next

/-- A member without a slot is skipped. -/
def skipOther (_ : String) (value : Outline) (_ : Unit) : Except Fault Unit :=
  skip value

/-- The items of an array as the fields of a record, in order. -/
def fillItems {δ : Type} (depth : Nat) (ending : Ending) :
    List (Slot δ) → List Outline → δ → Except Fault δ
  | [], [], draft => do ending.close; return draft
  | [], _ :: _, _ => .error .malformed
  | _ :: _, [], draft => do ending.read; return draft
  | slot :: slots, item :: items, draft => do
    let next ← slot.fill depth item draft
    fillItems depth ending slots items next

/-- The record under way is complete. -/
def complete {α : Type} : Option α → Except Fault α
  | some a => .ok a
  | none => .error .mismatch

/-- A record, from an object or from an array. -/
def record {ρ : Type} (fields : Fields ρ) : Decoder ρ
  | depth, .object members ending => do
    let inside ← enter depth
    let (draft, _) ← fillMembers fields.slots skipOther inside members (fields.blank, ())
    ending.read
    complete (fields.finish draft)
  | depth, .array items ending => do
    let inside ← enter depth
    let draft ← fillItems inside ending fields.slots items fields.blank
    complete (fields.finish draft)
  | _, o => .error o.misfit

/-- A record from vetted members: unknown ones are left out, and every fault is a mismatch. -/
def Fields.ofVetted? {ρ : Type} (fields : Fields ρ) (members : List (Option String × Outline)) : Option ρ :=
  match fillMembers fields.slots skipOther 0 members (fields.blank, ()) with
  | .ok (draft, _) => fields.finish draft
  | .error _ => none

/-- A record from vetted items: exactly its fields, in order. -/
def Fields.ofVettedItems? {ρ : Type} (fields : Fields ρ) (items : List Outline) : Option ρ :=
  match fillItems 0 .closed fields.slots items fields.blank with
  | .ok draft => fields.finish draft
  | .error _ => none

/-- A member that belongs to the inner record, or to none: it is vetted and kept, the last one first. -/
def keepVetted (depth : Nat) (name : String) (value : Outline) (kept : List (Option String × Outline)) :
    Except Fault (List (Option String × Outline)) := do
  vet depth value
  return (some name, value) :: kept

/-- An object with the fields of two records: those of the outer one are read as they come, everything else is vetted
and handed to the inner one at the end. -/
def flattened {α β : Type} (outer : Fields α) (inner : Fields β) : Decoder (α × β)
  | depth, .object members ending => do
    let inside ← enter depth
    let (draft, kept) ← fillMembers outer.slots (keepVetted inside) inside members (outer.blank, [])
    ending.read
    let a ← complete (outer.finish draft)
    let b ← complete (inner.ofVetted? kept.reverse)
    return (a, b)
  | _, o => .error o.misfit

/-- A record of one of several shapes. Its tag is read as it comes, wherever it stands; everything else is vetted and
handed to the fields of the shape that the tag chooses. In an array the tag is the first item. -/
def tagged {τ ρ : Type} (tag : String) (choose : String → Option τ) (shape : τ → Fields ρ) : Decoder ρ
  | depth, .object members ending => do
    let inside ← enter depth
    let tagField := Fields.required tag (named choose)
    let (draft, kept) ← fillMembers tagField.slots (keepVetted inside) inside members (tagField.blank, [])
    ending.read
    let chosen ← complete (tagField.finish draft)
    complete ((shape chosen).ofVetted? kept.reverse)
  | depth, .array [] ending => do
    let _ ← enter depth
    ending.read
    throw .mismatch
  | depth, .array (first :: rest) ending => do
    let inside ← enter depth
    let chosen ← named choose inside first
    vetItems inside rest
    ending.read
    complete ((shape chosen).ofVettedItems? rest)
  | _, o => .error o.misfit

/-- The members of an object in their order, as names and values. -/
def pairItems {α : Type} (decode : Decoder α) (depth : Nat) :
    List (Option String × Outline) → Except Fault (List (String × α))
  | [] => .ok []
  | (none, _) :: _ => .error .malformed
  | (some name, value) :: rest => do
    let first ← decode depth value
    let others ← pairItems decode depth rest
    return (name, first) :: others

def pairs {α : Type} (decode : Decoder α) : Decoder (List (String × α))
  | depth, .object members ending => do
    let inside ← enter depth
    let values ← pairItems decode inside members
    ending.read
    return values
  | _, o => .error o.misfit

/-- Read a whole text: the value, and then nothing but white space. -/
def read {α : Type} (decode : Decoder α) (source : String) : Except Fault α := do
  let parsed := Text.parse source
  let value ← decode 0 parsed.value
  if parsed.trailing then throw .malformed
  return value

end ProgramGraph.Json
