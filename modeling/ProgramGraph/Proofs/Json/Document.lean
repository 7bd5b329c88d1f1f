import ProgramGraph.Json.Decoder
import ProgramGraph.Json.Document
import ProgramGraph.Proofs.Json.Outline

/-!
# ProgramGraph.Proofs.Json.Document

What is written follows the grammar.

* `Document.outline` — the value that is written.
* `spelled_escape`, `spelled_stringChars`, `spelledBy_intChars` — characters, strings and integers.
* `spelledBy_compact` — the compact text of a value without real numbers.
* `read_compact`     — so reading such a text is decoding the value.
-/

namespace ProgramGraph.Json

namespace Document

mutual

/-- The value that is written; real numbers are left open. -/
def outline : Document → Outline
  | .null => .null
  | .bool b => .bool b
  | .int n => .number ⟨n < 0, n.natAbs, 0, true⟩
  | .real _ => .null
  | .text s => .string (some s)
  | .list items => .array (itemOutlines items) .closed
  | .record members => .object (memberOutlines members) .closed

def itemOutlines : List Document → List Outline
  | [] => []
  | item :: rest => outline item :: itemOutlines rest

def memberOutlines : List (String × Document) → List (Option String × Outline)
  | [] => []
  | (name, value) :: rest => (some name, outline value) :: memberOutlines rest

end

theorem memberOutlines_eq (members : List (String × Document)) :
    memberOutlines members = members.map fun m => (some m.1, m.2.outline) := by
  induction members with
  | nil => rfl
  | cons member rest ih => rw [memberOutlines, ih, List.map_cons]

end Document

/-! ## Strings -/

theorem hexDigit?_lowerHex {n : Nat} (h : n < 16) : hexDigit? (lowerHex n) = some n := by
  have all : ∀ n < 16, hexDigit? (lowerHex n) = some n := by decide
  exact all n h

theorem ofCode_of_lt {n : Nat} (h : n < 0xd800) : Piece.ofCode n = .char (Char.ofNat n) := by
  have high : Piece.isHigh n = false := by simp [Piece.isHigh]; omega
  have low : Piece.isLow n = false := by simp [Piece.isLow]; omega
  rw [Piece.ofCode, high, low]
  rfl

theorem spelledBy_escape (c : Char) : (Piece.char c).SpelledBy (escape c) := by
  unfold escape
  split_ifs with quote backslash b t n f r control
  · subst quote; exact .short rfl
  · subst backslash; exact .short rfl
  · subst b; exact .short rfl
  · subst t; exact .short rfl
  · subst n; exact .short rfl
  · subst f; exact .short rfl
  · subst r; exact .short rfl
  · have first : hexDigit? (lowerHex (c.toNat / 16)) = some (c.toNat / 16) := hexDigit?_lowerHex (by omega)
    have second : hexDigit? (lowerHex (c.toNat % 16)) = some (c.toNat % 16) := hexDigit?_lowerHex (by omega)
    have zero : hexDigit? '0' = some 0 := rfl
    have code := Piece.SpelledBy.code zero zero first second
    rwa [show ((0 * 16 + 0) * 16 + c.toNat / 16) * 16 + c.toNat % 16 = c.toNat by omega,
      ofCode_of_lt (by omega), Char.ofNat_toNat] at code
  · exact .plain quote backslash (Nat.le_of_not_lt control)

theorem assemble_chars (cs done : List Char) :
    Piece.assemble (cs.map Piece.char) done = some (cs.reverse ++ done) := by
  induction cs generalizing done with
  | nil => rfl
  | cons c cs ih => rw [List.map_cons, Piece.assemble, ih, List.reverse_cons, List.append_assoc]; rfl

theorem text?_chars (s : String) : Piece.text? (s.toList.map Piece.char).reverse = some s := by
  rw [Piece.text?, ← List.map_reverse, assemble_chars, List.reverse_reverse, List.append_nil]
  simp

theorem spelledBy_stringChars (s : String) : (Token.string (some s)).SpelledBy (stringChars s) := by
  have pieces : List.Forall₂ Piece.SpelledBy (s.toList.map Piece.char) (s.toList.map escape) := by
    rw [List.forall₂_map_left_iff, List.forall₂_map_right_iff, List.forall₂_same]
    exact fun c _ => spelledBy_escape c
  have spelled := Token.SpelledBy.string pieces
  rwa [text?_chars, ← List.flatMap_def] at spelled

/-! ## Integers -/

theorem head?_toDigits_ne_zero (n : Nat) (positive : 0 < n) : (Nat.toDigits 10 n).head? ≠ some '0' := by
  have digits : ∀ n < 10, 0 < n → Nat.digitChar n ≠ '0' := by decide
  induction n using Nat.strongRecOn with
  | ind n ih =>
    by_cases small : n < 10
    · rw [Nat.toDigits_of_lt_base small, List.head?_cons]
      exact fun same => digits n small positive (Option.some.inj same)
    · rw [Nat.toDigits_of_base_le (by decide) (by omega), List.head?_append_of_ne_nil _ Nat.toDigits_ne_nil]
      exact ih (n / 10) (by omega) (by omega)

theorem isWhole_toDigits (n : Nat) : IsWhole (Nat.toDigits 10 n) := by
  refine ⟨⟨Nat.toDigits_ne_nil, fun c hc => Nat.isDigit_of_mem_toDigits (by decide) (by decide) hc⟩, fun zero => ?_⟩
  rcases Nat.eq_zero_or_pos n with rfl | positive
  · rfl
  · exact absurd zero (head?_toDigits_ne_zero n positive)

theorem spelledBy_intChars (n : Int) : (Token.number ⟨n < 0, n.natAbs, 0, true⟩).SpelledBy (intChars n) := by
  have spelled := Numeral.SpelledBy.mk (n < 0) (isWhole_toDigits n.natAbs) .absent .absent
  rw [List.append_nil, List.append_nil, List.append_nil, decimal, Nat.ofDigitChars_ten_toDigits] at spelled
  refine .number ?_
  rw [show intChars n = minusSign (n < 0) ++ Nat.toDigits 10 n.natAbs by
    by_cases negative : n < 0 <;> simp [intChars, minusSign, negative]]
  exact spelled

/-! ## Values -/

namespace Document

mutual

theorem whole_outline : ∀ d : Document, d.outline.Whole
  | .null | .bool _ | .int _ | .real _ | .text _ => trivial
  | .list items => ⟨whole_itemOutlines items, rfl⟩
  | .record members => ⟨whole_memberOutlines members, rfl⟩

theorem whole_itemOutlines : ∀ items : List Document, Outline.WholeItems (itemOutlines items)
  | [] => trivial
  | item :: rest => ⟨whole_outline item, whole_itemOutlines rest⟩

theorem whole_memberOutlines : ∀ members : List (String × Document), Outline.WholeMembers (memberOutlines members)
  | [] => trivial
  | (_, value) :: rest => ⟨whole_outline value, whole_memberOutlines rest⟩

end

/-- The token comes first, then the rest of the text. -/
theorem spelled_cons {t : Token} {ts : List Token} {c : Char} {cs : List Char} (ht : t.SpelledBy [c])
    (h : Spelled ts cs) : Spelled (t :: ts) (c :: cs) :=
  .token ht h

open Outline in
mutual

/-- A value is written as its tokens, one after the other. -/
theorem spelled_chars : ∀ d : Document, d.holdsReal = false → Spelled d.outline.tokens d.chars
  | .null, _ => Token.SpelledBy.wordNull.spelled
  | .bool true, _ => Token.SpelledBy.wordTrue.spelled
  | .bool false, _ => Token.SpelledBy.wordFalse.spelled
  | .int n, _ => (spelledBy_intChars n).spelled
  | .text s, _ => (spelledBy_stringChars s).spelled
  | .list [], _ => spelled_cons .leftBracket Token.SpelledBy.rightBracket.spelled
  | .list (item :: rest), plain => by
    have items := spelled_itemChars item rest plain
    have closing := items.append Token.SpelledBy.rightBracket.spelled
    rw [List.append_assoc] at closing
    exact spelled_cons .leftBracket closing
  | .record [], _ => spelled_cons .leftBrace Token.SpelledBy.rightBrace.spelled
  | .record ((name, value) :: rest), plain => by
    have members := spelled_memberChars name value rest plain
    have closing := members.append Token.SpelledBy.rightBrace.spelled
    rw [List.cons_append, List.cons_append, List.append_assoc] at closing
    exact spelled_cons .leftBrace closing
termination_by d => sizeOf d

theorem spelled_itemChars : ∀ (item : Document) (rest : List Document), someItemHoldsReal (item :: rest) = false →
    Spelled (item.outline.tokens ++ moreItems (itemOutlines rest)) (itemChars (item :: rest))
  | item, [], plain => by
    rw [someItemHoldsReal, Bool.or_eq_false_iff] at plain
    rw [itemOutlines, moreItems, List.append_nil, itemChars]
    exact spelled_chars item plain.1
  | item, next :: rest, plain => by
    rw [someItemHoldsReal, Bool.or_eq_false_iff] at plain
    have others := spelled_itemChars next rest plain.2
    exact (spelled_chars item plain.1).append (spelled_cons .comma others)
termination_by item rest => sizeOf (item :: rest)

theorem spelled_memberChars : ∀ (name : String) (value : Document) (rest : List (String × Document)),
    someMemberHoldsReal ((name, value) :: rest) = false →
    Spelled (.string (some name) :: .colon :: (value.outline.tokens ++ moreMembers (memberOutlines rest)))
      (memberChars ((name, value) :: rest))
  | name, value, [], plain => by
    rw [someMemberHoldsReal, Bool.or_eq_false_iff] at plain
    rw [memberOutlines, moreMembers, List.append_nil, memberChars]
    exact .token (spelledBy_stringChars name) (spelled_cons .colon (spelled_chars value plain.1))
  | name, value, (name', value') :: rest, plain => by
    rw [someMemberHoldsReal, Bool.or_eq_false_iff] at plain
    have others := spelled_memberChars name' value' rest plain.2
    have value_spelled := (spelled_chars value plain.1).append (spelled_cons .comma others)
    rw [memberChars, List.append_assoc]
    · exact .token (spelledBy_stringChars name) (spelled_cons .colon value_spelled)
    · nofun
termination_by name value rest => sizeOf ((name, value) :: rest)

end

theorem spelledBy_compact {d : Document} (plain : d.holdsReal = false) : d.outline.SpelledBy d.compact := by
  refine ⟨whole_outline d, ?_⟩
  rw [compact, String.toList_ofList]
  exact spelled_chars d plain

end Document

/-- Reading what is written is decoding its value. -/
theorem read_of_spelledBy {α : Type} (decode : Decoder α) {o : Outline} {source : String} (h : o.SpelledBy source) :
    read decode source = decode 0 o := by
  rw [read, Text.parse_of_spelled h]
  cases decode 0 o <;> rfl

/-- What is read is decoded from the value of the text, grammatical or not. -/
theorem decode_of_read {α : Type} {decode : Decoder α} {source : String} {a : α} (h : read decode source = .ok a) :
    decode 0 (Text.parse source).value = .ok a := by
  rw [read] at h
  cases found : decode 0 (Text.parse source).value with
  | error => simp [found, bind, Except.bind] at h
  | ok b =>
    cases trailing : (Text.parse source).trailing with
    | true => simp [found, trailing, bind, Except.bind, throw, throwThe, MonadExceptOf.throw] at h
    | false => simpa [found, trailing, bind, Except.bind, pure, Except.pure] using h

theorem read_compact {α : Type} (decode : Decoder α) {d : Document} (plain : d.holdsReal = false) :
    read decode d.compact = decode 0 d.outline :=
  read_of_spelledBy decode (Document.spelledBy_compact plain)

end ProgramGraph.Json
