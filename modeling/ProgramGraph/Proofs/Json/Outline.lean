import ProgramGraph.Json.Outline
import ProgramGraph.Proofs.Json.Token

/-!
# ProgramGraph.Proofs.Json.Outline

The grammar of JSON texts, and what parsing makes of texts that follow it.

* `Outline.tokens`    — the tokens of a value.
* `Outline.Whole`     — nothing in a value breaks off.
* `Outline.SpelledBy` — a text is the tokens of a whole value, with white space anywhere between them.
* `parse_of_spelled`  — parsing gives the value back.
-/

namespace ProgramGraph.Json

namespace Outline

mutual

def tokens : Outline → List Token
  | .null => [.null]
  | .bool b => [.bool b]
  | .number n => [.number n]
  | .string s => [.string s]
  | .array [] _ => [.leftBracket, .rightBracket]
  | .array (item :: rest) _ => .leftBracket :: (tokens item ++ (moreItems rest ++ [.rightBracket]))
  | .object [] _ => [.leftBrace, .rightBrace]
  | .object ((name, value) :: rest) _ =>
    .leftBrace :: .string name :: .colon :: (tokens value ++ (moreMembers rest ++ [.rightBrace]))
  | .broken _ => []

/-- Items after the first one. -/
def moreItems : List Outline → List Token
  | [] => []
  | item :: rest => .comma :: (tokens item ++ moreItems rest)

/-- Members after the first one. -/
def moreMembers : List (Option String × Outline) → List Token
  | [] => []
  | (name, value) :: rest => .comma :: .string name :: .colon :: (tokens value ++ moreMembers rest)

end

mutual

/-- Nothing breaks off. -/
def Whole : Outline → Prop
  | .array items ending => WholeItems items ∧ ending = .closed
  | .object members ending => WholeMembers members ∧ ending = .closed
  | .broken _ => False
  | _ => True

def WholeItems : List Outline → Prop
  | [] => True
  | item :: rest => Whole item ∧ WholeItems rest

def WholeMembers : List (Option String × Outline) → Prop
  | [] => True
  | (_, value) :: rest => Whole value ∧ WholeMembers rest

end

def SpelledBy (o : Outline) (source : String) : Prop :=
  o.Whole ∧ Spelled o.tokens source.toList

/-! ## Numbers stand apart -/

/-- Tokens that do not begin with a number, and among which no two numbers stand side by side. -/
def Follows (ts : List Token) : Prop :=
  (∀ t ∈ ts.head?, t.isNumber = false) ∧ Apart ts

theorem follows_nil : Follows [] :=
  ⟨by rintro _ ⟨⟩, .nil⟩

theorem Follows.apart_cons {t : Token} {ts : List Token} (h : Follows ts) : Apart (t :: ts) :=
  List.isChain_cons.mpr ⟨fun t' first _ => h.1 t' first, h.2⟩

theorem follows_cons {t : Token} {ts : List Token} (plain : t.isNumber = false) (apart : Apart ts) :
    Follows (t :: ts) := by
  refine ⟨by rintro _ ⟨rfl⟩; exact plain, List.isChain_cons.mpr ⟨?_, apart⟩⟩
  intro t' _ number
  rw [plain] at number
  cases number

mutual

theorem apart_tokens : ∀ (o : Outline) {rest : List Token}, Follows rest → Apart (o.tokens ++ rest)
  | .null, _, h => h.apart_cons
  | .bool _, _, h => h.apart_cons
  | .number _, _, h => h.apart_cons
  | .string _, _, h => h.apart_cons
  | .broken _, _, h => h.2
  | .array [] _, _, h => (follows_cons rfl (follows_cons rfl h.2).2).2
  | .array (item :: items) _, rest, h => by
    have bracket : Follows (.rightBracket :: rest) := follows_cons rfl h.2
    rw [tokens, List.cons_append, List.append_assoc, List.append_assoc]
    exact (follows_cons rfl (apart_tokens item (follows_moreItems items bracket))).2
  | .object [] _, _, h => (follows_cons rfl (follows_cons rfl h.2).2).2
  | .object ((name, value) :: members) _, rest, h => by
    have brace : Follows (.rightBrace :: rest) := follows_cons rfl h.2
    rw [tokens, List.cons_append, List.cons_append, List.cons_append, List.append_assoc, List.append_assoc]
    have inner := apart_tokens value (follows_moreMembers members brace)
    exact (follows_cons rfl (follows_cons rfl (follows_cons rfl inner).2).2).2

theorem follows_moreItems : ∀ (items : List Outline) {rest : List Token}, Follows rest →
    Follows (moreItems items ++ rest)
  | [], _, h => h
  | item :: items, rest, h => by
    rw [moreItems, List.cons_append, List.append_assoc]
    exact follows_cons rfl (apart_tokens item (follows_moreItems items h))

theorem follows_moreMembers : ∀ (members : List (Option String × Outline)) {rest : List Token}, Follows rest →
    Follows (moreMembers members ++ rest)
  | [], _, h => h
  | (name, value) :: members, rest, h => by
    rw [moreMembers, List.cons_append, List.cons_append, List.cons_append, List.append_assoc]
    have inner := apart_tokens value (follows_moreMembers members h)
    exact follows_cons rfl (follows_cons rfl (follows_cons rfl inner).2).2

end

end Outline

namespace Text

open Outline

/-! ## Parsing -/

theorem advance_firstItem {t : Token} (h : t ≠ .rightBracket) (stack : List Frame) :
    advance .firstItem stack t = startValue (.array [] :: stack) t := by
  cases t <;> first | rfl | exact absurd rfl h

theorem advance_nextItem {t : Token} (h : t ≠ .rightBracket) (items : List Outline) (stack : List Frame) :
    advance .nextItem (.array items :: stack) t = startValue (.array items :: stack) t := by
  cases t <;> first | rfl | exact absurd rfl h

/-- A value does not begin with a closing bracket. -/
theorem exists_tokens_cons : ∀ {o : Outline}, o.Whole → ∃ t ts, o.tokens = t :: ts ∧ t ≠ .rightBracket
  | .null, _ => ⟨_, _, rfl, nofun⟩
  | .bool _, _ => ⟨_, _, rfl, nofun⟩
  | .number _, _ => ⟨_, _, rfl, nofun⟩
  | .string _, _ => ⟨_, _, rfl, nofun⟩
  | .array [] _, _ => ⟨_, _, rfl, nofun⟩
  | .array (_ :: _) _, _ => ⟨_, _, rfl, nofun⟩
  | .object [] _, _ => ⟨_, _, rfl, nofun⟩
  | .object ((_, _) :: _) _, _ => ⟨_, _, rfl, nofun⟩

theorem build_firstItem {o : Outline} (h : o.Whole) (stack : List Frame) (rest : List Token) :
    build .firstItem stack (o.tokens ++ rest) = build .value (.array [] :: stack) (o.tokens ++ rest) := by
  obtain ⟨t, ts, eq, ht⟩ := exists_tokens_cons h
  rw [eq, List.cons_append, build, build, advance_firstItem ht]
  rfl

theorem build_nextItem {o : Outline} (h : o.Whole) (items : List Outline) (stack : List Frame) (rest : List Token) :
    build .nextItem (.array items :: stack) (o.tokens ++ rest) =
      build .value (.array items :: stack) (o.tokens ++ rest) := by
  obtain ⟨t, ts, eq, ht⟩ := exists_tokens_cons h
  rw [eq, List.cons_append, build, build, advance_nextItem ht]
  rfl

mutual

/-- Where a value is expected, the tokens of one are taken, and the value is there. -/
theorem build_tokens : ∀ {o : Outline}, o.Whole → ∀ (stack : List Frame) (rest : List Token),
    build .value stack (o.tokens ++ rest) = build (.after o) stack rest
  | .null, _, _, _ => rfl
  | .bool _, _, _, _ => rfl
  | .number _, _, _, _ => rfl
  | .string _, _, _, _ => rfl
  | .array [] _, h, _, _ => by
    obtain rfl := h.2
    rfl
  | .array (item :: items) ending, h, stack, rest => by
    obtain ⟨⟨first, others⟩, rfl⟩ := h
    rw [Outline.tokens, List.cons_append, List.append_assoc, List.append_assoc]
    calc build .firstItem stack (item.tokens ++ (moreItems items ++ ([.rightBracket] ++ rest)))
      _ = build .value (.array [] :: stack) (item.tokens ++ (moreItems items ++ ([.rightBracket] ++ rest))) :=
        build_firstItem first _ _
      _ = build (.after item) (.array [] :: stack) (moreItems items ++ ([.rightBracket] ++ rest)) :=
        build_tokens first _ _
      _ = build (.after (.array (item :: items) .closed)) stack rest :=
        build_moreItems others [] item stack rest
  | .object [] _, h, _, _ => by
    obtain rfl := h.2
    rfl
  | .object ((name, value) :: members) ending, h, stack, rest => by
    obtain ⟨⟨first, others⟩, rfl⟩ := h
    rw [Outline.tokens, List.cons_append, List.cons_append, List.cons_append, List.append_assoc, List.append_assoc]
    calc build .value (.object [] name :: stack) (value.tokens ++ (moreMembers members ++ ([.rightBrace] ++ rest)))
      _ = build (.after value) (.object [] name :: stack) (moreMembers members ++ ([.rightBrace] ++ rest)) :=
        build_tokens first _ _
      _ = build (.after (.object ((name, value) :: members) .closed)) stack rest :=
        build_moreMembers others [] name value stack rest

theorem build_moreItems : ∀ {items : List Outline}, WholeItems items →
    ∀ (done : List Outline) (item : Outline) (stack : List Frame) (rest : List Token),
      build (.after item) (.array done :: stack) (moreItems items ++ ([.rightBracket] ++ rest)) =
        build (.after (.array (done.reverse ++ item :: items) .closed)) stack rest
  | [], _, done, item, stack, rest => by
    rw [← List.reverse_cons]
    rfl
  | next :: items, h, done, item, stack, rest => by
    obtain ⟨first, others⟩ := h
    rw [moreItems, List.cons_append, List.append_assoc]
    calc build .nextItem (.array (item :: done) :: stack) (next.tokens ++ (moreItems items ++ ([.rightBracket] ++ rest)))
      _ = build .value (.array (item :: done) :: stack) (next.tokens ++ (moreItems items ++ ([.rightBracket] ++ rest))) :=
        build_nextItem first _ _ _
      _ = build (.after next) (.array (item :: done) :: stack) (moreItems items ++ ([.rightBracket] ++ rest)) :=
        build_tokens first _ _
      _ = build (.after (.array ((item :: done).reverse ++ next :: items) .closed)) stack rest :=
        build_moreItems others _ _ _ _
      _ = build (.after (.array (done.reverse ++ item :: next :: items) .closed)) stack rest := by
        rw [List.reverse_cons, List.append_assoc]
        rfl

theorem build_moreMembers : ∀ {members : List (Option String × Outline)}, WholeMembers members →
    ∀ (done : List (Option String × Outline)) (name : Option String) (value : Outline) (stack : List Frame)
      (rest : List Token),
      build (.after value) (.object done name :: stack) (moreMembers members ++ ([.rightBrace] ++ rest)) =
        build (.after (.object (done.reverse ++ (name, value) :: members) .closed)) stack rest
  | [], _, done, name, value, stack, rest => by
    rw [← List.reverse_cons]
    rfl
  | (next, value') :: members, h, done, name, value, stack, rest => by
    obtain ⟨first, others⟩ := h
    rw [moreMembers, List.cons_append, List.cons_append, List.cons_append, List.append_assoc]
    calc build .value (.object ((name, value) :: done) next :: stack)
          (value'.tokens ++ (moreMembers members ++ ([.rightBrace] ++ rest)))
      _ = build (.after value') (.object ((name, value) :: done) next :: stack)
          (moreMembers members ++ ([.rightBrace] ++ rest)) := build_tokens first _ _
      _ = build (.after (.object (((name, value) :: done).reverse ++ (next, value') :: members) .closed)) stack rest :=
        build_moreMembers others _ _ _ _ _
      _ = build (.after (.object (done.reverse ++ (name, value) :: (next, value') :: members) .closed)) stack rest := by
        rw [List.reverse_cons, List.append_assoc]
        rfl

end

/-- Parsing a text that follows the grammar gives its value. -/
theorem parse_of_spelled {o : Outline} {source : String} (h : o.SpelledBy source) : parse source = ⟨o, false⟩ := by
  obtain ⟨whole, spelled⟩ := h
  have apart : Apart o.tokens := by
    simpa using apart_tokens o follows_nil
  have built := build_tokens whole [] []
  rw [List.append_nil] at built
  rw [parse, tokens_of_spelled spelled apart, built]
  rfl

end Text
end ProgramGraph.Json
