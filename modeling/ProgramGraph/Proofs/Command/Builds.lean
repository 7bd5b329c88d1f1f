import Mathlib.Algebra.GroupWithZero.Nat
import ProgramGraph.Command.Build
import ProgramGraph.Proofs.Discovery.Settled
import ProgramGraph.Proofs.Store.Archive

/-!
# ProgramGraph.Proofs.Command.Builds

Building many snapshots into one store in memory.

* `loaded`, `contents` — the snapshots that can be loaded, and their texts.
* `Separate`           — what keeps builds apart: ids of records and scopes of texts.
* `Built`              — what is stored and reported after some builds. It holds before the first, and `Built.skip` and
  `Built.build` are one more snapshot; `built_buildAll` are all of them.
* `Built.runs`, `Built.same` — the records of the builds, and everything else in the store.
* `buildAll_insensitive` — neither the order of the snapshots nor their repetition matters.
-/

namespace ProgramGraph.Command

open Build Digest Discovery Files ProgramGraph.Graph Program Store

variable {t : Tree} {options : Options}

/-! ## What can be loaded -/

/-- The snapshots that can be loaded, with their programs. -/
def loaded (t : Tree) (snapshots : List (Stamp × String)) : List ((Stamp × String) × Program) :=
  snapshots.filterMap fun s => (loadOrSkip t s.2).1.map fun p => (s, p)

/-- The texts of those that can be loaded. -/
def contents (t : Tree) (paths : List String) : List String :=
  (paths.filterMap fun path => (t.readText path).toOption).filter fun text => (Program.read text).isOk

theorem loadOrSkip_eq_some_iff {path : String} {p : Program} :
    (loadOrSkip t path).1 = some p ↔ ∃ text, t.readText path = .ok text ∧ Program.read text = .ok p := by
  rw [loadOrSkip, loadProgram]
  cases t.readText path with
  | error cause => simp
  | ok text =>
    cases read : Program.read text with
    | error cause => simp [read]
    | ok p' => simp [read]

theorem isOk_iff_exists {ε α : Type} {x : Except ε α} : x.isOk = true ↔ ∃ a, x = .ok a := by
  cases x <;> simp [Except.isOk, Except.toBool]

theorem mem_contents_iff {paths : List String} {text : String} :
    text ∈ contents t paths ↔ ∃ path ∈ paths, t.readText path = .ok text ∧ ∃ p, Program.read text = .ok p := by
  have held : ∀ path, (t.readText path).toOption = some text ↔ t.readText path = .ok text := by
    intro path
    cases t.readText path <;> simp [Except.toOption]
  simp only [contents, List.mem_filter, List.mem_filterMap, held, isOk_iff_exists]
  grind

theorem contentHash_of_read {text : String} {p : Program} (h : Program.read text = .ok p) :
    p.contentHash = sha256Hex (utf8 text) := by
  rw [Program.read] at h
  cases read : Snapshot.read text with
  | error cause => simp [read, bind, Except.bind] at h
  | ok s =>
    simp only [read, bind, Except.bind, pure, Except.pure, Except.ok.injEq] at h
    rw [← h]
    rfl

/-! ## Totals -/

/-- The report on some builds that were made and some that were not, each counted alone. -/
def totals (options : Options) (programs : List Program) (skipped : Nat) : BuildReport where
  builds := programs.length
  skipped := skipped
  nodes := (programs.map fun p => (discover (worldOf options p)).graph.nodeCount).sum
  relationships := (programs.map fun p => (discover (worldOf options p)).graph.relationshipCount).sum
  resolutionFailures := (programs.map fun p => (discover (worldOf options p)).stats.failures).sum
  exportFailures :=
    (programs.map fun p =>
      let x := discover (worldOf options p)
      (exportGraph (Memory.store []) (some (scopeOf p.contentHash)) x.graph {}).summary.failures).sum

/-! ## One build -/

/-- The graph of a program with its scope. -/
def scopedGraph (options : Options) (p : Program) : String × Graph :=
  (scopeOf p.contentHash, (discover (worldOf options p)).graph)

/-- The record of the build of a snapshot, as a store takes it. -/
def recordRow (t : Tree) (options : Options) (l : (Stamp × String) × Program) : NodeRow :=
  (runOf t l.1.1 l.1.2 l.2.contentHash (discover (worldOf options l.2)).graph).row

/-- A record of a build is always taken. -/
theorem exportRun_memory (m : Memory) (run : BuildRun) :
    (exportRun (Memory.store []) m run).state = m.mergeNode run.row := by
  have taken : Memory.takesNode [] run.row = true :=
    Memory.takesNode_iff.mpr ⟨by simp [BuildRun.row], List.not_mem_nil⟩
  rw [exportRun, Memory.upsertNode_of_takes taken]
  rfl

/-- Some snapshots were built: what is stored and what is reported, said by their programs alone. -/
structure Built (t : Tree) (options : Options) (snapshots : List (Stamp × String)) (b : Building Memory) : Prop where
  archive : b.state.Archive ((loaded t snapshots).map fun l => scopedGraph options l.2)
    ((loaded t snapshots).map (recordRow t options))
  report : b.report = totals options ((loaded t snapshots).map Prod.snd)
    (snapshots.countP fun s => (loadOrSkip t s.2).1.isNone)

/-- Builds that do not get into each other's way: their records have different ids without a slash, and snapshots with
different texts have different scopes. -/
structure Separate (t : Tree) (snapshots : List (Stamp × String)) : Prop where
  ids : ((loaded t snapshots).map fun l => l.1.1.id).Nodup
  plain : ∀ l ∈ loaded t snapshots, '/' ∉ l.1.1.id.toList
  scopes : ∀ text ∈ contents t (snapshots.map Prod.snd), ∀ text' ∈ contents t (snapshots.map Prod.snd),
    scopeOf (sha256Hex (utf8 text)) = scopeOf (sha256Hex (utf8 text')) → text = text'

theorem loaded_concat (t : Tree) (snapshots : List (Stamp × String)) (s : Stamp × String) :
    loaded t (snapshots ++ [s]) = loaded t snapshots ++ ((loadOrSkip t s.2).1.map fun p => (s, p)).toList := by
  rw [loaded, List.filterMap_append, ← loaded]
  cases found : (loadOrSkip t s.2).1 <;> simp [found]

theorem exists_content_of_mem_loaded {snapshots : List (Stamp × String)} {l : (Stamp × String) × Program}
    (h : l ∈ loaded t snapshots) : ∃ text ∈ contents t (snapshots.map Prod.snd), Program.read text = .ok l.2 := by
  obtain ⟨s, hs, found⟩ := List.mem_filterMap.mp h
  obtain ⟨p, hp, rfl⟩ := Option.map_eq_some_iff.mp found
  obtain ⟨text, file, read⟩ := loadOrSkip_eq_some_iff.mp hp
  exact ⟨text, mem_contents_iff.mpr ⟨s.2, List.mem_map_of_mem hs, file, p, read⟩, read⟩

/-- The graphs with their scopes depend on the texts alone. -/
theorem mem_scopedGraphs_iff {snapshots : List (Stamp × String)} {s : String × Graph} :
    s ∈ (loaded t snapshots).map (fun l => scopedGraph options l.2) ↔
      ∃ text ∈ contents t (snapshots.map Prod.snd), ∃ p, Program.read text = .ok p ∧ scopedGraph options p = s := by
  constructor
  · intro h
    obtain ⟨l, hl, rfl⟩ := List.mem_map.mp h
    obtain ⟨text, mem, read⟩ := exists_content_of_mem_loaded hl
    exact ⟨text, mem, l.2, read, rfl⟩
  · rintro ⟨text, mem, p, read, rfl⟩
    obtain ⟨path, hp, file, _⟩ := mem_contents_iff.mp mem
    obtain ⟨s, hs, rfl⟩ := List.mem_map.mp hp
    have found : (s, p) ∈ loaded t snapshots :=
      List.mem_filterMap.mpr ⟨s, hs, by rw [loadOrSkip_eq_some_iff.mpr ⟨text, file, read⟩, Option.map_some]⟩
    exact List.mem_map.mpr ⟨(s, p), found, rfl⟩

/-- Snapshots in the same scope have the same program. -/
theorem Separate.program_eq {snapshots : List (Stamp × String)} (h : Separate t snapshots)
    {l l' : (Stamp × String) × Program} (hl : l ∈ loaded t snapshots) (hl' : l' ∈ loaded t snapshots)
    (scope : scopeOf l.2.contentHash = scopeOf l'.2.contentHash) : l.2 = l'.2 := by
  obtain ⟨text, mem, read⟩ := exists_content_of_mem_loaded hl
  obtain ⟨text', mem', read'⟩ := exists_content_of_mem_loaded hl'
  rw [contentHash_of_read read, contentHash_of_read read'] at scope
  cases h.scopes text mem text' mem' scope
  exact Except.ok.inj (read.symm.trans read')

theorem Separate.init {snapshots : List (Stamp × String)} {s : Stamp × String} (h : Separate t (snapshots ++ [s])) :
    Separate t snapshots where
  ids := by
    have ids := h.ids
    rw [loaded_concat, List.map_append, List.nodup_append] at ids
    exact ids.1
  plain l hl := h.plain l (by rw [loaded_concat]; exact List.mem_append_left _ hl)
  scopes text mem text' mem' := by
    have kept : ∀ {text}, text ∈ contents t (snapshots.map Prod.snd) →
        text ∈ contents t ((snapshots ++ [s]).map Prod.snd) := by
      intro text mem
      obtain ⟨path, hp, rest⟩ := mem_contents_iff.mp mem
      exact mem_contents_iff.mpr ⟨path, by simp [List.mem_map.mp hp], rest⟩
    exact h.scopes text (kept mem) text' (kept mem')

theorem Built.skip {snapshots : List (Stamp × String)} {b : Building Memory} (h : Built t options snapshots b)
    {s : Stamp × String} (fails : (loadOrSkip t s.2).1 = none) (events : List Event) :
    Built t options (snapshots ++ [s]) (b.skip events) where
  archive := by
    rw [loaded_concat, fails, Option.map_none, Option.toList_none, List.append_nil]
    exact h.archive
  report := by
    rw [loaded_concat, fails, Option.map_none, Option.toList_none, List.append_nil, Building.skip, h.report]
    simp [totals, fails]

theorem Built.build {snapshots : List (Stamp × String)} {b : Building Memory} (h : Built t options snapshots b)
    {s : Stamp × String} {p : Program} (loads : (loadOrSkip t s.2).1 = some p) (separate : Separate t (snapshots ++ [s]))
    (events : List Event) :
    Built t options (snapshots ++ [s]) (buildProgram (Memory.store []) t options s.1 s.2 p b events) := by
  have extended : loaded t (snapshots ++ [s]) = loaded t snapshots ++ [(s, p)] := by
    rw [loaded_concat, loads, Option.map_some, Option.toList_some]
  have here : (s, p) ∈ loaded t (snapshots ++ [s]) := by simp [extended]
  have before : ∀ l ∈ loaded t snapshots, l ∈ loaded t (snapshots ++ [s]) := by
    intro l hl
    rw [extended]
    exact List.mem_append_left _ hl
  have only : ∀ g', ((scopedGraph options p).1, g') ∈ (loaded t snapshots).map (fun l => scopedGraph options l.2) →
      g' = (scopedGraph options p).2 := by
    intro g' hg'
    obtain ⟨l, hl, same⟩ := List.mem_map.mp hg'
    obtain ⟨scope, rfl⟩ := Prod.mk.inj same
    have program : l.2 = p := separate.program_eq (before l hl) here scope
    rw [← program]
    rfl
  obtain ⟨archive, summary⟩ := h.archive.exportGraph only
  have fresh : ∀ r ∈ (loaded t snapshots).map (recordRow t options), r.key ≠ (recordRow t options (s, p)).key := by
    intro r hr same
    obtain ⟨l, hl, rfl⟩ := List.mem_map.mp hr
    have ids := separate.ids
    rw [extended, List.map_append, List.nodup_append] at ids
    exact ids.2.2 l.1.1.id (List.mem_map_of_mem hl) s.1.id (List.mem_singleton.mpr rfl) (NodeKey.mk.inj same).2
  refine ⟨?_, ?_⟩
  · rw [extended, List.map_append, List.map_append]
    rw [buildProgram, exportRun_memory]
    exact archive.mergeNode (separate.plain _ here) fresh
  · have failures := congrArg ExportSummary.failures summary
    rw [extended, List.countP_append, List.map_append, buildProgram, h.report]
    simp [totals, addBuild, loads]
    exact failures

/-- The builds one after the other. -/
theorem built_buildAll {snapshots : List (Stamp × String)} (separate : Separate t snapshots) :
    Built t options snapshots (buildAll (Memory.store []) t options snapshots {}) := by
  induction snapshots using List.reverseRecOn with
  | nil => exact ⟨.empty, rfl⟩
  | append_singleton snapshots s ih =>
    have before := ih separate.init
    rw [buildAll, List.foldl_append, ← buildAll, List.foldl_cons, List.foldl_nil, buildOne]
    cases found : loadOrSkip t s.2 with
    | mk program events =>
      cases program with
      | none => exact before.skip (by rw [found]) events
      | some p => exact before.build (by rw [found]) separate events

/-! ## The records of builds -/

/-- The identity of the record of a build: no entity of a graph in a scope has it. -/
def IsRun (k : NodeKey) : Prop :=
  k.label = "BuildRun" ∧ k.IsOutside

instance (k : NodeKey) : Decidable (IsRun k) :=
  inferInstanceAs (Decidable (k.label = "BuildRun" ∧ '/' ∉ k.id.toList))

section

variable {snapshots : List (Stamp × String)} {b : Building Memory} (h : Built t options snapshots b)

include h

/-- Outside all scopes there is nothing but the records. -/
theorem Built.outside {k : NodeKey} (outside : k.IsOutside) {bag : Bag} :
    b.state.nodes[k]? = some bag ↔
      ∃ l ∈ loaded t snapshots, k = ⟨"BuildRun", l.1.1.id⟩ ∧ (recordRow t options l).properties = bag := by
  rw [h.archive.node]
  constructor
  · rintro (⟨s, _, entry⟩ | ⟨r, mem, rfl, rfl⟩)
    · exact absurd outside (NodeKey.not_isOutside_of_inScope (inScope_of_mem_nodeEntries (List.mem_map_of_mem entry)))
    · obtain ⟨l, hl, rfl⟩ := List.mem_map.mp mem
      exact ⟨l, hl, rfl, rfl⟩
  · rintro ⟨l, hl, rfl, rfl⟩
    exact .inr ⟨_, List.mem_map_of_mem hl, rfl, rfl⟩

theorem Built.runs (separate : Separate t snapshots) :
    (b.state.nodes.keys.filter (fun k => IsRun k)).Perm ((loaded t snapshots).map fun l => ⟨"BuildRun", l.1.1.id⟩) := by
  have different : ((loaded t snapshots).map fun l => (⟨"BuildRun", l.1.1.id⟩ : NodeKey)).Nodup := by
    have ids := separate.ids.map (f := fun id => (⟨"BuildRun", id⟩ : NodeKey)) fun id id' same => (NodeKey.mk.inj same).2
    rwa [List.map_map] at ids
  refine (List.perm_ext_iff_of_nodup (Std.ExtTreeMap.nodup_keys.filter _) different).mpr fun k => ?_
  rw [List.mem_filter, decide_eq_true_iff, Std.ExtTreeMap.mem_keys, Std.ExtTreeMap.mem_iff_isSome_getElem?,
    Option.isSome_iff_exists, List.mem_map]
  constructor
  · rintro ⟨⟨bag, held⟩, _, outside⟩
    obtain ⟨l, hl, rfl, _⟩ := (h.outside outside).mp held
    exact ⟨l, hl, rfl⟩
  · rintro ⟨l, hl, rfl⟩
    have outside : NodeKey.IsOutside ⟨"BuildRun", l.1.1.id⟩ := separate.plain l hl
    exact ⟨⟨_, (h.outside outside).mpr ⟨l, hl, rfl, rfl⟩⟩, rfl, outside⟩

/-- Beside the records, the same texts bring the same. -/
theorem Built.same {t' : Tree} {snapshots' : List (Stamp × String)} {b' : Building Memory}
    (h' : Built t' options snapshots' b')
    (texts : ∀ text, text ∈ contents t' (snapshots'.map Prod.snd) ↔ text ∈ contents t (snapshots.map Prod.snd)) :
    b'.state.edges = b.state.edges ∧ b'.state.indexes = b.state.indexes ∧
      ∀ k, ¬IsRun k → b'.state.nodes[k]? = b.state.nodes[k]? := by
  obtain ⟨edges, indexes, nodes⟩ := h'.archive.same h.archive fun s => by
    simp only [mem_scopedGraphs_iff, texts]
  refine ⟨edges, indexes, fun k hk => ?_⟩
  by_cases outside : k.IsOutside
  · have other : ∀ id, k ≠ ⟨"BuildRun", id⟩ := by
      rintro id rfl
      exact hk ⟨rfl, outside⟩
    apply Option.ext
    intro bag
    simp [h.outside outside, h'.outside outside, other]
  · exact nodes k outside

end

/-! ## The totals -/

theorem map_snd_loaded (t : Tree) (snapshots : List (Stamp × String)) :
    (loaded t snapshots).map Prod.snd = (snapshots.map Prod.snd).filterMap fun path => (loadOrSkip t path).1 := by
  rw [loaded, List.map_filterMap, List.filterMap_map]
  congr 1
  funext s
  simp [Function.comp_def]

theorem isNone_loadOrSkip (t : Tree) (path : String) : (loadOrSkip t path).1.isNone = !(loadProgram t path).1.isOk := by
  rw [loadOrSkip]
  cases loadProgram t path with
  | mk result events => cases result <;> rfl

/-- What was loaded and what was not is everything. -/
theorem length_loaded_add_countP (t : Tree) (snapshots : List (Stamp × String)) :
    (loaded t snapshots).length + snapshots.countP (fun s => (loadOrSkip t s.2).1.isNone) = snapshots.length := by
  induction snapshots with
  | nil => rfl
  | cons s rest ih =>
    rw [loaded] at ih
    rw [loaded, List.filterMap_cons, List.countP_cons, List.length_cons]
    cases (loadOrSkip t s.2).1 with
    | none => simpa [← Nat.add_assoc] using ih
    | some p =>
      simp only [Option.map_some, Option.isNone_some, List.length_cons, Bool.false_eq_true, if_false]
      omega

/-- The order of the builds does not matter for the totals. -/
theorem totals_perm {programs programs' : List Program} (h : programs.Perm programs') (skipped : Nat) :
    totals options programs skipped = totals options programs' skipped := by
  rw [totals, totals, h.length_eq, (h.map _).sum_nat, (h.map _).sum_nat, (h.map _).sum_nat, (h.map _).sum_nat]

theorem Built.report_eq {snapshots snapshots' : List (Stamp × String)} {b b' : Building Memory}
    (h : Built t options snapshots b) (h' : Built t options snapshots' b')
    (paths : (snapshots'.map Prod.snd).Perm (snapshots.map Prod.snd)) : b'.report = b.report := by
  have skipped : ∀ l : List (Stamp × String), (l.countP fun s => (loadOrSkip t s.2).1.isNone) =
      (l.map Prod.snd).countP fun path => (loadOrSkip t path).1.isNone := by
    intro l
    rw [List.countP_map]
    rfl
  rw [h.report, h'.report, skipped, skipped, paths.countP_eq, map_snd_loaded, map_snd_loaded]
  exact totals_perm (paths.filterMap _) _

/-- The command that only discovers finds the graphs of the same programs. -/
theorem foldl_discoverOne (t : Tree) (options : Options) (snapshots : List (Stamp × String))
    (sofar : List SnapshotGraph × List Event) :
    ((snapshots.map Prod.snd).foldl (discoverOne t options) sofar).1 =
      sofar.1 ++ (loaded t snapshots).map fun l => (SnapshotGraph.ofProgram options l.1.2 l.2).1 := by
  induction snapshots generalizing sofar with
  | nil => simp [loaded]
  | cons s rest ih =>
    rw [List.map_cons, List.foldl_cons, ih, discoverOne, loaded, loaded, List.filterMap_cons]
    cases loadOrSkip t s.2 with
    | mk program events =>
      cases program with
      | none => rfl
      | some p => simp

/-! ## Many builds -/

/-- **The builds of many snapshots do not depend on order or repetition.** Whatever the files hold: what is built and what
is skipped is everything, the totals are the sums of what each snapshot gives alone, just as the command that only
discovers reports them, and they do not change with the order. Beside the records of the builds the store depends on the
texts that can be loaded alone; and it holds one record for every build. -/
theorem buildAll_insensitive {snapshots : List (Stamp × String)} (separate : Separate t snapshots) :
    let b := buildAll (Memory.store []) t options snapshots {}
    let alone := (loaded t snapshots).map fun l => discover (worldOf options l.2)
    let found := ((snapshots.map Prod.snd).foldl (discoverOne t options) ([], [])).1
    (b.report.builds + b.report.skipped = snapshots.length ∧
        b.report.skipped = snapshots.countP fun s => !(loadProgram t s.2).1.isOk) ∧
      (b.report.nodes = (alone.map fun x => x.graph.nodeCount).sum ∧
        b.report.relationships = (alone.map fun x => x.graph.relationshipCount).sum ∧
        b.report.resolutionFailures = (alone.map fun x => x.stats.failures).sum) ∧
      (b.report.builds = found.length ∧ b.report.nodes = (found.map fun g => g.nodes.length).sum ∧
        b.report.relationships = (found.map fun g => g.relationships.length).sum ∧
        b.report.resolutionFailures = (found.map fun g => g.stats.failures).sum) ∧
      (∀ other, (other.map Prod.snd).Perm (snapshots.map Prod.snd) → Separate t other →
        (buildAll (Memory.store []) t options other {}).report = b.report) ∧
      (∀ t' other, Separate t' other →
        (∀ text, text ∈ contents t' (other.map Prod.snd) ↔ text ∈ contents t (snapshots.map Prod.snd)) →
        let b' := buildAll (Memory.store []) t' options other {}
        b'.state.edges = b.state.edges ∧ b'.state.indexes = b.state.indexes ∧
          ∀ k, ¬IsRun k → b'.state.nodes[k]? = b.state.nodes[k]?) ∧
      ((b.state.nodes.keys.filter (fun k => IsRun k)).Perm
          ((loaded t snapshots).map fun l => ⟨"BuildRun", l.1.1.id⟩) ∧
        ∀ l ∈ loaded t snapshots,
          b.state.nodes[(⟨"BuildRun", l.1.1.id⟩ : NodeKey)]? = some (recordRow t options l).properties) := by
  intro b alone found
  have built : Built t options snapshots b := built_buildAll separate
  have found_eq : found = (loaded t snapshots).map fun l => (SnapshotGraph.ofProgram options l.1.2 l.2).1 :=
    foldl_discoverOne t options snapshots ([], [])
  refine ⟨?_, ?_, ?_, ?_, ?_, ?_, ?_⟩
  · rw [built.report]
    constructor
    · simpa [totals] using length_loaded_add_countP t snapshots
    · simp only [totals, isNone_loadOrSkip]
  · rw [built.report]
    simp [totals, alone, Function.comp_def]
  · rw [built.report, found_eq]
    simp [totals, SnapshotGraph.ofProgram, Function.comp_def]
  · intro other paths separate'
    exact built.report_eq (built_buildAll separate') paths
  · intro t' other separate' texts
    exact built.same (built_buildAll separate') texts
  · exact built.runs separate
  · intro l hl
    have outside : NodeKey.IsOutside ⟨"BuildRun", l.1.1.id⟩ := separate.plain l hl
    exact (built.outside outside).mpr ⟨l, hl, rfl, rfl⟩

/-- A snapshot of one unit, with a node and another one below it. -/
def family : String :=
  "\x7b\"units\":[\x7b\"nodes\":[\x7b\"kind\":\"A\"\x7d,\x7b\"kind\":\"B\",\"parent\":0\x7d]\x7d]\x7d"

/-- Two snapshots of the same text, one of another text, and one that is no snapshot. -/
def shelf : Tree where
  root := .directory
    [("a", .file (utf8 family)), ("b", .file (utf8 "\x7b\x7d")), ("c", .file (utf8 "[")), ("d", .file (utf8 family))]

def shelved : List (Stamp × String) :=
  [("1", "a"), ("2", "b"), ("3", "c"), ("4", "d")].map fun s => (⟨s.1, ⟨0, 0⟩⟩, s.2)

/-- A path that is a name in the directory in which it starts. -/
structure Plain (name : String) : Prop where
  filled : name.isEmpty = false
  relative : isAbsolute name = false
  single : parts name = [name]
  idle : isIdle name = false
  down : name ≠ ".."

theorem read_of_plain {entries : List (String × Entry)} {name : String} {content : List UInt8} (h : Plain name)
    (held : entries.lookup name = some (.file content)) : ({ root := .directory entries } : Tree).read name = .ok content := by
  simp [Tree.read, Tree.entry?, Tree.trail?, Tree.here?, Tree.trailFrom?, walk, h.filled, h.relative, h.single, h.idle, h.down,
    held, Trail.entry, Tree.contentOf, Except.map, bind, Except.bind]

theorem plain_letter {name : String} (h : name ∈ ["a", "b", "c", "d"]) : Plain name := by
  simp only [List.mem_cons, List.not_mem_nil, or_false] at h
  rcases h with rfl | rfl | rfl | rfl
  all_goals
    refine ⟨by decide, by decide +kernel, ?_, by decide, by decide⟩
    rw [parts, String.splitOn, if_neg (by decide), String.splitOnAux, String.splitOnAux]
    decide

theorem textOf_shelf : [family, "\x7b\x7d", "["].map (fun text => Tree.textOf (utf8 text)) =
    [.ok family, .ok "\x7b\x7d", .ok "["] := by
  decide +kernel

theorem texts_shelf :
    (shelved.map Prod.snd).map shelf.readText = [.ok family, .ok "\x7b\x7d", .ok "[", .ok family] := by
  have texts := textOf_shelf
  simp only [List.map_cons, List.map_nil, List.cons.injEq, and_true] at texts
  obtain ⟨first, second, third⟩ := texts
  have a : shelf.read "a" = .ok (utf8 family) :=
    read_of_plain (plain_letter (by simp)) rfl
  have b : shelf.read "b" = .ok (utf8 "\x7b\x7d") :=
    read_of_plain (plain_letter (by simp)) rfl
  have c : shelf.read "c" = .ok (utf8 "[") :=
    read_of_plain (plain_letter (by simp)) rfl
  have d : shelf.read "d" = .ok (utf8 family) :=
    read_of_plain (plain_letter (by simp)) rfl
  simp [shelved, Tree.readText, a, b, c, d, first, second, third, bind, Except.bind]

theorem isOk_shelf : [family, "\x7b\x7d", "["].map (fun text => (Program.read text).isOk) = [true, true, false] := by
  decide +kernel

theorem node?_family {p : Program} (read : Program.read family = .ok p) :
    p.units.node? ⟨0, 1⟩ = some { kind := "B", parent := some 0 } := by
  have held : (Program.read family).toOption.bind (fun p => p.units.node? ⟨0, 1⟩) =
      some { kind := "B", parent := some 0 } := by
    decide +kernel
  rwa [read] at held

/-- The one node is found to be below the other. -/
theorem relationshipCount_family {p : Program} (read : Program.read family = .ok p) :
    0 < (discover (worldOf {} p)).graph.relationshipCount := by
  have found := (settled_discover (worldOf {} p)).mem_relationships_of_related (.parent (node?_family read) rfl)
  have counted := List.length_pos_of_mem found
  rwa [Graph.relationships, List.length_map] at counted

theorem loaded_shelf : ∃ p q, Program.read family = .ok p ∧ loaded shelf shelved =
    [((⟨"1", ⟨0, 0⟩⟩, "a"), p), ((⟨"2", ⟨0, 0⟩⟩, "b"), q), ((⟨"4", ⟨0, 0⟩⟩, "d"), p)] := by
  have texts := texts_shelf
  have read := isOk_shelf
  simp only [shelved, List.map_cons, List.map_nil, List.cons.injEq, and_true] at texts read
  obtain ⟨a, b, c, d⟩ := texts
  obtain ⟨p, hp⟩ := isOk_iff_exists.mp read.1
  obtain ⟨q, hq⟩ := isOk_iff_exists.mp read.2.1
  have skipped : (loadOrSkip shelf "c").1 = none := by
    rw [Option.eq_none_iff_forall_ne_some]
    intro r found
    obtain ⟨text, file, hr⟩ := loadOrSkip_eq_some_iff.mp found
    cases Except.ok.inj (c.symm.trans file)
    simp [isOk_iff_exists.mpr ⟨r, hr⟩] at read
  refine ⟨p, q, hp, ?_⟩
  simp [loaded, shelved, skipped, loadOrSkip_eq_some_iff.mpr ⟨_, a, hp⟩, loadOrSkip_eq_some_iff.mpr ⟨_, b, hq⟩,
    loadOrSkip_eq_some_iff.mpr ⟨_, d, hp⟩]

theorem separate_shelf : Separate shelf shelved := by
  have texts : ∀ text ∈ contents shelf (shelved.map Prod.snd), text ∈ [family, "\x7b\x7d"] := by
    intro text mem
    obtain ⟨path, hp, file, p, read⟩ := mem_contents_iff.mp mem
    have held : shelf.readText path ∈ (shelved.map Prod.snd).map shelf.readText := List.mem_map_of_mem hp
    have unread : text ≠ "[" := by
      rintro rfl
      have := isOk_shelf
      simp [isOk_iff_exists.mpr ⟨p, read⟩] at this
    rw [texts_shelf, file] at held
    simp only [List.mem_cons, Except.ok.injEq, List.not_mem_nil, or_false] at held ⊢
    grind
  have scopes : ([family, "\x7b\x7d"].map fun text => scopeOf (sha256Hex (utf8 text))).Nodup := by decide +kernel
  obtain ⟨p, q, _, programs⟩ := loaded_shelf
  exact ⟨by simp [programs], by simp [programs],
    fun text mem text' mem' => List.inj_on_of_nodup_map scopes (texts text mem) (texts text' mem')⟩

theorem buildAll_insensitive_shelf :
    let b := buildAll (Memory.store []) shelf {} shelved {}
    Separate shelf shelved ∧ 0 < b.report.relationships ∧
      (b.state.nodes.keys.filter (fun k => IsRun k)).Perm
        [⟨"BuildRun", "1"⟩, ⟨"BuildRun", "2"⟩, ⟨"BuildRun", "4"⟩] := by
  intro b
  obtain ⟨_, ⟨_, relationships, _⟩, _, _, _, runs, _⟩ := @buildAll_insensitive shelf {} shelved separate_shelf
  obtain ⟨p, q, read, programs⟩ := loaded_shelf
  rw [programs] at runs relationships
  have counted := relationshipCount_family read
  refine ⟨separate_shelf, ?_, runs⟩
  rw [relationships]
  exact Nat.lt_of_lt_of_le counted (Nat.le_add_right _ _)

end ProgramGraph.Command
