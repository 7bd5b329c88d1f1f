import ProgramGraph.Cypher.Client

/-!
# ProgramGraph.Command.Arguments

The command line: `build PATH` and `discover PATH`, with switches before and after.

* `Switch`      — the switches, with their names and whether they take a value.
* `Action`      — what is to be done, and `Invocation` the same with the switches of the whole program.
* `Refusal`     — why a command line is not carried out; asking for help or for the version counts as a refusal that
  succeeds.
* `Reading`     — the words of one command read so far. A word that needs a value waits for the next word, and what was
  read is settled only when the next switch or path begins or the words end, so the first problem is that of the earliest
  unsettled word or that of the present one.
* `Invocation.read` — a whole command line, the name of the program first.
-/

namespace ProgramGraph.Command

open Cypher

/-- A switch. -/
inductive Switch where
  | verbose
  | help
  | version
  | json
  | noTypeSelfLoops
  | dryRun
  | uri
  | user
  | password
  | database
  deriving DecidableEq, Repr

namespace Switch

def name : Switch → String
  | .verbose => "verbose"
  | .help => "help"
  | .version => "version"
  | .json => "json"
  | .noTypeSelfLoops => "no-type-self-loops"
  | .dryRun => "dry-run"
  | .uri => "neo4j-uri"
  | .user => "neo4j-user"
  | .password => "neo4j-password"
  | .database => "database"

def letter? : Switch → Option Char
  | .verbose => some 'v'
  | .help => some 'h'
  | .version => some 'V'
  | _ => none

/-- Whether the next word is the value of the switch. -/
def takesValue : Switch → Bool
  | .uri | .user | .password | .database => true
  | _ => false

end Switch

/-- A command. -/
inductive Verb where
  | build
  | discover
  deriving DecidableEq, Repr

namespace Verb

def all : List Verb :=
  [.build, .discover]

def name : Verb → String
  | .build => "build"
  | .discover => "discover"

def ofName? (word : String) : Option Verb :=
  all.find? fun v => v.name = word

def switches : Verb → List Switch
  | .build => [.verbose, .help, .noTypeSelfLoops, .dryRun, .uri, .user, .password, .database]
  | .discover => [.verbose, .help, .json, .noTypeSelfLoops]

end Verb

def programSwitches : List Switch :=
  [.verbose, .help, .version]

/-- The word for the command that tells about commands. -/
def helpWord : String := "help"

/-- Why a command line is not carried out. -/
inductive Refusal where
  | help
  | version
  /-- Nothing was given at all. -/
  | nothingGiven
  | missingArgument
  | unknownArgument
  | unknownCommand
  | missingCommand
  /-- A value is missing or empty. -/
  | invalidValue
  /-- A switch that takes no value has one. -/
  | needlessValue
  /-- A switch is given twice. -/
  | repeated
  deriving DecidableEq, Repr

namespace Refusal

/-- Whether the command line asked for just that. -/
def isWanted : Refusal → Bool
  | .help | .version => true
  | _ => false

def exitCode (r : Refusal) : Nat :=
  if r.isWanted then 0 else 2

end Refusal

/-- Something that a word can give a value to. -/
inductive Slot where
  | switch (s : Switch)
  | path
  deriving DecidableEq, Repr

/-- The words of one command read so far. -/
structure Reading where
  /-- What is settled. -/
  settled : List (Slot × String) := []
  /-- What is still to be settled, and its value as soon as that is there. -/
  pending : Option (Slot × Option String) := none
  /-- No more switches: every word is a path. -/
  pathsOnly : Bool := false
  /-- A path was given. -/
  hasPath : Bool := false

namespace Reading

def has (r : Reading) (s : Slot) : Bool :=
  r.settled.any fun e => e.1 = s

/-- Settle a value: nothing is given twice, and a path is not empty. -/
def record (r : Reading) (s : Slot) (value : String) : Except Refusal Reading :=
  if r.has s then .error .repeated
  else if s = .path && value.isEmpty then .error .invalidValue
  else .ok { r with settled := r.settled ++ [(s, value)] }

def settle (r : Reading) : Except Refusal Reading :=
  match r.pending with
  | none => .ok r
  | some (_, none) => .error .invalidValue
  | some (s, some value) => { r with pending := none }.record s value

def flag (r : Reading) (s : Switch) : Except Refusal Reading := do
  let r ← r.settle
  match s with
  | .help => throw .help
  | .version => throw .version
  | _ => r.record (.switch s) ""

/-- A switch with the value that is attached to it, if there is one. -/
def switch (r : Reading) (s : Switch) (attached : Option String) : Except Refusal Reading :=
  match attached with
  | some value =>
    if s.takesValue then do (← r.settle).record (.switch s) value else .error .needlessValue
  | none =>
    if s.takesValue then do return { (← r.settle) with pending := some (.switch s, none) } else r.flag s

/-- Letters after one hyphen: switches one after the other. -/
def letters (allowed : List Switch) (r : Reading) : List Char → Except Refusal Reading
  | [] => .ok r
  | c :: rest =>
    match allowed.find? fun s => s.letter? = some c with
    | some s => do letters allowed (← r.flag s) rest
    | none => .error .unknownArgument

def path (r : Reading) (word : String) : Except Refusal Reading :=
  if r.hasPath then .error .unknownArgument
  else do return { (← r.settle) with pending := some (.path, some word), hasPath := true }

/-- The value for which a switch waits, if one does. -/
def isWaiting (r : Reading) : Bool :=
  match r.pending with
  | some (_, none) => true
  | _ => false

def supply (r : Reading) (word : String) : Reading :=
  { r with pending := r.pending.map fun p => (p.1, some word) }

end Reading

/-- The kinds of words. -/
inductive Word where
  /-- Two hyphens alone. -/
  | separator
  | long (name : String) (attached : Option String)
  | short (letters : List Char)
  | plain (text : String)
  deriving DecidableEq, Repr

/-- A text up to the first equals sign, and what follows it. -/
def cutAtEquals (cs : List Char) : String × Option String :=
  let name := cs.takeWhile (· ≠ '=')
  (String.ofList name, ((cs.drop name.length).tail?).map String.ofList)

def Word.of (text : String) : Word :=
  match text.toList with
  | ['-', '-'] => .separator
  | '-' :: '-' :: rest => .long (cutAtEquals rest).1 (cutAtEquals rest).2
  | '-' :: c :: rest => .short (c :: rest)
  | _ => .plain text

namespace Reading

def long (allowed : List Switch) (r : Reading) (name : String) (attached : Option String) :
    Except Refusal Reading :=
  match allowed.find? fun s => s.name = name with
  | some s => r.switch s attached
  | none => .error .unknownArgument

def word (allowed : List Switch) (r : Reading) (text : String) : Except Refusal Reading :=
  if r.pathsOnly then r.path text
  else
    match Word.of text with
    | .separator => .ok { r with pathsOnly := true }
    | .long name attached => r.long allowed name attached
    | .short cs => r.letters allowed cs
    | .plain text => if r.isWaiting then .ok (r.supply text) else r.path text

def words (allowed : List Switch) (r : Reading) : List String → Except Refusal Reading
  | [] => r.settle
  | w :: rest => do words allowed (← r.word allowed w) rest

def given (r : Reading) (s : Switch) : Bool :=
  r.has (.switch s)

def value? (r : Reading) (s : Switch) : Option String :=
  r.settled.lookup (.switch s)

/-- The value of something that must be there. -/
def required (r : Reading) (s : Slot) : Except Refusal String :=
  match r.settled.lookup s with
  | some value => .ok value
  | none => .error .missingArgument

end Reading

/-- What is to be done. -/
inductive Action where
  | build (path : String) (settings : Settings) (typeSelfLoops dryRun : Bool)
  | discover (path : String) (json typeSelfLoops : Bool)
  deriving DecidableEq, Repr

/-- What is to be done, and how much is to be told about it. -/
structure Invocation where
  verbose : Bool
  action : Action
  deriving DecidableEq, Repr

/-- The user of a database unless another one is named. -/
def defaultUser : String := "neo4j"

/-- The address of a database unless another one is named. -/
def defaultUri : String := "bolt://localhost:7687"

/-- What the words that were read ask for. -/
def Verb.action (v : Verb) (r : Reading) : Except Refusal Action := do
  let path ← r.required .path
  let typeSelfLoops := !r.given .noTypeSelfLoops
  match v with
  | .discover => return .discover path (r.given .json) typeSelfLoops
  | .build =>
    let password ← r.required (.switch .password)
    let settings : Settings :=
      { uri := (r.value? .uri).getD defaultUri
        user := (r.value? .user).getD defaultUser
        password := password
        database := r.value? .database }
    return .build path settings typeSelfLoops (r.given .dryRun)

namespace Invocation

/-- The words after the word for a command; `r` holds what stood before it. -/
def ofVerb (r : Reading) (v : Verb) (rest : List String) : Except Refusal Invocation := do
  let inner ← Reading.words v.switches {} rest
  let action ← v.action inner
  return ⟨r.given .verbose || inner.given .verbose, action⟩

/-- The words after the word for help: at most the word for one command. -/
def helpAbout : List String → Refusal
  | [] => .help
  | [word] => if (Verb.ofName? word).isSome || word = helpWord then .help else .unknownCommand
  | _ => .unknownCommand

/-- A word that is neither a switch nor a command. -/
def strayWord (r : Reading) (word : String) : Refusal :=
  if r.pathsOnly && ((Verb.ofName? word).isSome || word = helpWord) then .unknownArgument else .unknownCommand

def ofWords (r : Reading) : List String → Except Refusal Invocation
  | [] => .error (if r.settled.isEmpty then .nothingGiven else .missingCommand)
  | word :: rest =>
    if r.pathsOnly then .error (strayWord r word)
    else
      match Word.of word with
      | .plain text =>
        match Verb.ofName? text with
        | some v => ofVerb r v rest
        | none => .error (if text = helpWord then helpAbout rest else strayWord r text)
      | _ => do ofWords (← r.word programSwitches word) rest

/-- A whole command line, the name of the program first. -/
def read (arguments : List String) : Except Refusal Invocation :=
  ofWords {} arguments.tail

end Invocation
end ProgramGraph.Command
