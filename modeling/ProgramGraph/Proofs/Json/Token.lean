import Mathlib.Data.List.Chain
import ProgramGraph.Json.Token

/-!
# ProgramGraph.Proofs.Json.Token

The lexical grammar of JSON, and what the machine makes of texts that follow it.

* `Numeral.SpelledBy`, `Piece.SpelledBy`, `Token.SpelledBy` — the characters of a number, of a piece of a string and of a
  token.
* `Spelled`           — a text is these tokens one after the other, with white space anywhere between them.
* `Runs`              — the machine goes from one state to another one and finds some tokens on the way.
* `tokens_of_spelled` — the machine finds the tokens of a text, if no two numbers stand side by side.
-/

namespace ProgramGraph.Json

/-! ## Numbers -/

def IsDigits (cs : List Char) : Prop :=
  cs ≠ [] ∧ ∀ c ∈ cs, c.isDigit = true

/-- Digits before the point: no zero stands in front of other digits. -/
def IsWhole (cs : List Char) : Prop :=
  IsDigits cs ∧ (cs.head? = some '0' → cs = ['0'])

def decimal (cs : List Char) : Nat :=
  Nat.ofDigitChars 10 cs 0

/-- The digits behind the point, and how they are written with it. -/
inductive Fraction : List Char → List Char → Prop where
  | absent : Fraction [] []
  | present {ds : List Char} (h : IsDigits ds) : Fraction ds ('.' :: ds)

/-- The power of ten of an exponent, and how it is written with its mark. -/
inductive Exponent : Int → List Char → Prop where
  | absent : Exponent 0 []
  | bare {mark : Char} {ds : List Char} (hm : mark = 'e' ∨ mark = 'E') (h : IsDigits ds) :
      Exponent (decimal ds) (mark :: ds)
  | plus {mark : Char} {ds : List Char} (hm : mark = 'e' ∨ mark = 'E') (h : IsDigits ds) :
      Exponent (decimal ds) (mark :: '+' :: ds)
  | minus {mark : Char} {ds : List Char} (hm : mark = 'e' ∨ mark = 'E') (h : IsDigits ds) :
      Exponent (-decimal ds) (mark :: '-' :: ds)

def minusSign (negative : Bool) : List Char :=
  if negative then ['-'] else []

/-- A number is a sign, digits, and maybe a fraction and an exponent. -/
inductive Numeral.SpelledBy : Numeral → List Char → Prop where
  | mk (negative : Bool) {whole places fraction exponent : List Char} {power : Int} (hw : IsWhole whole)
      (hf : Fraction places fraction) (he : Exponent power exponent) :
      SpelledBy
        ⟨negative, decimal (whole ++ places), power - places.length, fraction.isEmpty && exponent.isEmpty⟩
        (minusSign negative ++ whole ++ fraction ++ exponent)

/-! ## Strings and tokens -/

/-- A piece of a string is a character itself, a short escape, or the code of a character or of half a surrogate pair. -/
inductive Piece.SpelledBy : Piece → List Char → Prop where
  | plain {c : Char} (hq : c ≠ '"') (hb : c ≠ '\\') (hc : 0x20 ≤ c.toNat) : SpelledBy (.char c) [c]
  | short {e c : Char} (h : escaped? e = some c) : SpelledBy (.char c) ['\\', e]
  | code {c₁ c₂ c₃ c₄ : Char} {d₁ d₂ d₃ d₄ : Nat} (h₁ : hexDigit? c₁ = some d₁) (h₂ : hexDigit? c₂ = some d₂)
      (h₃ : hexDigit? c₃ = some d₃) (h₄ : hexDigit? c₄ = some d₄) :
      SpelledBy (.ofCode (((d₁ * 16 + d₂) * 16 + d₃) * 16 + d₄)) ['\\', 'u', c₁, c₂, c₃, c₄]

inductive Token.SpelledBy : Token → List Char → Prop where
  | leftBrace : SpelledBy .leftBrace ['\x7b']
  | rightBrace : SpelledBy .rightBrace ['\x7d']
  | leftBracket : SpelledBy .leftBracket ['[']
  | rightBracket : SpelledBy .rightBracket [']']
  | comma : SpelledBy .comma [',']
  | colon : SpelledBy .colon [':']
  | wordNull : SpelledBy .null ['n', 'u', 'l', 'l']
  | wordTrue : SpelledBy (.bool true) ['t', 'r', 'u', 'e']
  | wordFalse : SpelledBy (.bool false) ['f', 'a', 'l', 's', 'e']
  | number {n : Numeral} {cs : List Char} (h : n.SpelledBy cs) : SpelledBy (.number n) cs
  | string {pieces : List Piece} {parts : List (List Char)} (h : List.Forall₂ Piece.SpelledBy pieces parts) :
      SpelledBy (.string (Piece.text? pieces.reverse)) ('"' :: parts.flatten ++ ['"'])

/-- A text is tokens one after the other. -/
inductive Spelled : List Token → List Char → Prop where
  | nil : Spelled [] []
  | blank {ts : List Token} {c : Char} {cs : List Char} (hc : isSpace c = true) (h : Spelled ts cs) : Spelled ts (c :: cs)
  | token {t : Token} {ts : List Token} {part cs : List Char} (ht : t.SpelledBy part) (h : Spelled ts cs) :
      Spelled (t :: ts) (part ++ cs)

theorem Spelled.append {ts ts' : List Token} {cs cs' : List Char} (h : Spelled ts cs) (h' : Spelled ts' cs') :
    Spelled (ts ++ ts') (cs ++ cs') := by
  induction h with
  | nil => exact h'
  | blank hc _ ih => exact .blank hc ih
  | token ht _ ih =>
    rw [List.append_assoc]
    exact .token ht ih

theorem Token.SpelledBy.spelled {t : Token} {cs : List Char} (h : t.SpelledBy cs) : Spelled [t] cs := by
  simpa using Spelled.token h .nil

/-! ## Runs of the machine -/

/-- From one state to another one along some characters, with the tokens found on the way. -/
def Runs (s : State) (cs : List Char) (new : List Token) (s' : State) : Prop :=
  ∀ found rest, tokensFrom s found (cs ++ rest) = tokensFrom s' (new.reverse ++ found) rest

theorem Runs.refl (s : State) : Runs s [] [] s :=
  fun _ _ => rfl

theorem Runs.trans {s s' s'' : State} {cs cs' : List Char} {new new' : List Token} (h : Runs s cs new s')
    (h' : Runs s' cs' new' s'') : Runs s (cs ++ cs') (new ++ new') s'' := by
  intro found rest
  rw [List.append_assoc, h, h', List.reverse_append, List.append_assoc]

theorem Runs.cons {s s' s'' : State} {c : Char} {cs : List Char} {new : List Token} (first : s.step c = (s', []))
    (rest : Runs s' cs new s'') : Runs s (c :: cs) new s'' := by
  intro found cs'
  rw [List.cons_append, tokensFrom, first]
  exact rest found cs'

theorem runs_step {s s' : State} {c : Char} {new : List Token} (h : s.step c = (s', new)) : Runs s [c] new s' := by
  intro found rest
  rw [List.cons_append, tokensFrom, h]
  rfl

/-! ## Numbers -/

theorem digit?_of_isDigit {c : Char} (h : c.isDigit = true) : digit? c = some (c.toNat - '0'.toNat) := by
  have range : '0' ≤ c ∧ c ≤ '9' := by
    simpa [Char.isDigit, Char.le_def] using h
  simp [digit?, range]

/-- A number cannot go on with this character. -/
def Delimits (c : Char) : Prop :=
  digit? c = none ∧ c ≠ '.' ∧ c ≠ 'e' ∧ c ≠ 'E'

/-- The machine stands at the end of a number, unless the number goes on. -/
def Finishes (s : State) (n : Numeral) : Prop :=
  s.finish = [.number n] ∧ ∀ c, Delimits c → s.step c = State.finishNumber n c

theorem Finishes.tokensFrom {s : State} {n : Numeral} (h : Finishes s n) (found : List Token) {rest : List Char}
    (delimited : ∀ c ∈ rest.head?, Delimits c) :
    tokensFrom s found rest = Json.tokensFrom .between (.number n :: found) rest := by
  cases rest with
  | nil =>
    rw [Json.tokensFrom, Json.tokensFrom, h.1]
    rfl
  | cons c rest =>
    rw [Json.tokensFrom, Json.tokensFrom, h.2 c (delimited c rfl)]
    simp [State.finishNumber, State.step]

/-- Inside a number, where an exponent may follow. -/
inductive InNumber : State → Significand → Bool → Prop where
  | zero (s : Significand) (h : s.places = 0) : InNumber (.zero s) s true
  | whole (s : Significand) (h : s.places = 0) : InNumber (.whole s) s true
  | fraction (s : Significand) : InNumber (.fraction s) s false

theorem InNumber.finishes {s : State} {sig : Significand} {integral : Bool} (h : InNumber s sig integral) :
    Finishes s ⟨sig.negative, sig.digits, 0 - sig.places, integral⟩ := by
  cases h with
  | zero _ h => exact ⟨by simp [State.finish, Significand.integer, h], by
      intro c hc
      obtain ⟨digit, point, e, e'⟩ := hc
      simp [State.step, State.afterDigits, Significand.integer, digit, point, e, e', h]⟩
  | whole _ h => exact ⟨by simp [State.finish, Significand.integer, h], by
      intro c hc
      obtain ⟨digit, point, e, e'⟩ := hc
      simp [State.step, State.afterDigits, Significand.integer, digit, point, e, e', h]⟩
  | fraction => exact ⟨rfl, by
      intro c hc
      obtain ⟨digit, point, e, e'⟩ := hc
      simp [State.step, State.afterDigits, Significand.scaled, digit, e, e']⟩

theorem InNumber.step_mark {s : State} {sig : Significand} {integral : Bool} (h : InNumber s sig integral) {mark : Char}
    (hm : mark = 'e' ∨ mark = 'E') : s.step mark = (.mark sig, []) := by
  rcases hm with rfl | rfl <;> cases h <;> rfl

theorem InNumber.step_point {s : State} {sig : Significand} (h : InNumber s sig true) : s.step '.' = (.point sig, []) := by
  cases h <;> rfl

theorem runs_whole (s : Significand) {ds : List Char} (h : ∀ c ∈ ds, c.isDigit = true) :
    Runs (.whole s) ds [] (.whole { s with digits := Nat.ofDigitChars 10 ds s.digits }) := by
  induction ds generalizing s with
  | nil => exact .refl _
  | cons c ds ih =>
    obtain ⟨digit, digits⟩ := List.forall_mem_cons.mp h
    have step : (State.whole s).step c = (.whole (s.push (c.toNat - '0'.toNat)), []) := by
      simp [State.step, digit?_of_isDigit digit]
    have rest := ih (s.push (c.toNat - '0'.toNat)) digits
    rw [Nat.ofDigitChars_cons, Nat.mul_comm 10 s.digits]
    exact .cons step rest

theorem runs_fraction (s : Significand) {ds : List Char} (h : ∀ c ∈ ds, c.isDigit = true) :
    Runs (.fraction s) ds []
      (.fraction { s with digits := Nat.ofDigitChars 10 ds s.digits, places := s.places + ds.length }) := by
  induction ds generalizing s with
  | nil => exact .refl _
  | cons c ds ih =>
    obtain ⟨digit, digits⟩ := List.forall_mem_cons.mp h
    have step : (State.fraction s).step c = (.fraction (s.pushPlace (c.toNat - '0'.toNat)), []) := by
      simp [State.step, digit?_of_isDigit digit]
    have rest := ih (s.pushPlace (c.toNat - '0'.toNat)) digits
    rw [Nat.ofDigitChars_cons, Nat.mul_comm 10 s.digits, List.length_cons, Nat.add_comm ds.length, ← Nat.add_assoc]
    exact .cons step rest

theorem runs_exponent (s : Significand) (down : Bool) (power : Nat) {ds : List Char} (h : ∀ c ∈ ds, c.isDigit = true) :
    Runs (.exponent s down power) ds [] (.exponent s down (Nat.ofDigitChars 10 ds power)) := by
  induction ds generalizing power with
  | nil => exact .refl _
  | cons c ds ih =>
    obtain ⟨digit, digits⟩ := List.forall_mem_cons.mp h
    have step : (State.exponent s down power).step c = (.exponent s down (power * 10 + (c.toNat - '0'.toNat)), []) := by
      simp [State.step, digit?_of_isDigit digit]
    rw [Nat.ofDigitChars_cons, Nat.mul_comm 10 power]
    exact .cons step (ih _ digits)

theorem Finishes.exponent (s : Significand) (down : Bool) (power : Nat) :
    Finishes (.exponent s down power) ⟨s.negative, s.digits, State.signedPower down power - s.places, false⟩ := by
  refine ⟨rfl, fun c hc => ?_⟩
  simp [State.step, Significand.scaled, hc.1]

theorem mem_digits_of_isDigit {c : Char} (h : c.isDigit = true) :
    c ∈ ['0', '1', '2', '3', '4', '5', '6', '7', '8', '9'] := by
  have range : 48 ≤ c.toNat ∧ c.toNat ≤ 57 := by
    simp only [Char.isDigit, ge_iff_le, UInt32.le_iff_toNat_le, Bool.and_eq_true, decide_eq_true_eq] at h
    exact h
  have all : ∀ n < 10, Char.ofNat (48 + n) ∈ ['0', '1', '2', '3', '4', '5', '6', '7', '8', '9'] := by decide
  have here := all (c.toNat - 48) (by omega)
  rwa [show 48 + (c.toNat - 48) = c.toNat by omega, Char.ofNat_toNat] at here

/-- The first digit of a number, after its sign. -/
theorem runs_minusSign_digit (negative : Bool) {c : Char} (h : c.isDigit = true) :
    Runs .between (minusSign negative ++ [c]) []
      (if c = '0' then .zero ⟨negative, 0, 0⟩ else .whole ⟨negative, c.toNat - '0'.toNat, 0⟩) := by
  have digit := mem_digits_of_isDigit h
  simp only [List.mem_cons, List.not_mem_nil, or_false] at digit
  cases negative with
  | false => rcases digit with rfl | rfl | rfl | rfl | rfl | rfl | rfl | rfl | rfl | rfl <;> exact runs_step rfl
  | true =>
    refine .cons (show State.between.step '-' = (.minus, []) from rfl) ?_
    rcases digit with rfl | rfl | rfl | rfl | rfl | rfl | rfl | rfl | rfl | rfl <;> exact runs_step rfl

theorem runs_minusSign_whole (negative : Bool) {cs : List Char} (h : IsWhole cs) :
    ∃ s, Runs .between (minusSign negative ++ cs) [] s ∧ InNumber s ⟨negative, decimal cs, 0⟩ true := by
  obtain ⟨⟨filled, digits⟩, leading⟩ := h
  cases cs with
  | nil => exact absurd rfl filled
  | cons c cs =>
    obtain ⟨digit, digits⟩ := List.forall_mem_cons.mp digits
    have first := runs_minusSign_digit negative digit
    by_cases zero : c = '0'
    · subst zero
      obtain rfl : cs = [] := by simpa using leading rfl
      exact ⟨_, first, .zero _ rfl⟩
    · rw [if_neg zero] at first
      have run := first.trans (runs_whole _ digits)
      rw [List.append_assoc, List.singleton_append] at run
      refine ⟨_, run, ?_⟩
      rw [decimal, Nat.ofDigitChars_cons, Nat.mul_zero, Nat.zero_add]
      exact .whole _ rfl

theorem Fraction.runs {s : State} {sig : Significand} (h : InNumber s sig true) {places cs : List Char}
    (hf : Fraction places cs) (start : sig.places = 0) :
    ∃ s', Runs s cs [] s' ∧
      InNumber s' ⟨sig.negative, Nat.ofDigitChars 10 places sig.digits, places.length⟩ cs.isEmpty := by
  cases hf with
  | absent =>
    refine ⟨s, .refl s, ?_⟩
    rw [Nat.ofDigitChars_nil, List.length_nil, ← start]
    exact h
  | present hd =>
    obtain ⟨filled, digits⟩ := hd
    cases places with
    | nil => exact absurd rfl filled
    | cons c ds =>
      obtain ⟨digit, digits⟩ := List.forall_mem_cons.mp digits
      have first : (State.point sig).step c = (.fraction (sig.pushPlace (c.toNat - '0'.toNat)), []) := by
        simp [State.step, digit?_of_isDigit digit]
      have rest := runs_fraction (sig.pushPlace (c.toNat - '0'.toNat)) digits
      refine ⟨_, .cons h.step_point (.cons first rest), ?_⟩
      rw [Nat.ofDigitChars_cons, Nat.mul_comm 10 sig.digits, List.length_cons, Nat.add_comm ds.length,
        ← Nat.zero_add (1 + ds.length), ← start, ← Nat.add_assoc]
      exact .fraction _

theorem runs_power {start : State} {s : Significand} {down : Bool} {ds : List Char} (h : IsDigits ds)
    (first : ∀ c, c.isDigit = true → start.step c = (.exponent s down (c.toNat - '0'.toNat), [])) :
    Runs start ds [] (.exponent s down (decimal ds)) := by
  obtain ⟨filled, digits⟩ := h
  cases ds with
  | nil => exact absurd rfl filled
  | cons c ds =>
    obtain ⟨digit, digits⟩ := List.forall_mem_cons.mp digits
    rw [decimal, Nat.ofDigitChars_cons, Nat.mul_zero, Nat.zero_add]
    exact .cons (first c digit) (runs_exponent s down _ digits)

theorem step_mark_of_isDigit (s : Significand) {c : Char} (h : c.isDigit = true) :
    (State.mark s).step c = (.exponent s false (c.toNat - '0'.toNat), []) := by
  have plus : c ≠ '+' := by
    rintro rfl
    simp [Char.isDigit] at h
  have minus : c ≠ '-' := by
    rintro rfl
    simp [Char.isDigit] at h
  simp [State.step, plus, minus, digit?_of_isDigit h]

theorem step_sign_of_isDigit (s : Significand) (down : Bool) {c : Char} (h : c.isDigit = true) :
    (State.sign s down).step c = (.exponent s down (c.toNat - '0'.toNat), []) := by
  simp [State.step, digit?_of_isDigit h]

theorem Exponent.runs {s : State} {sig : Significand} {integral : Bool} (h : InNumber s sig integral) {power : Int}
    {cs : List Char} (he : Exponent power cs) :
    ∃ s', Runs s cs [] s' ∧ Finishes s' ⟨sig.negative, sig.digits, power - sig.places, integral && cs.isEmpty⟩ := by
  cases he with
  | absent =>
    rw [List.isEmpty_nil, Bool.and_true]
    exact ⟨s, .refl s, h.finishes⟩
  | bare hm hd =>
    rw [List.isEmpty_cons, Bool.and_false]
    exact ⟨_, .cons (h.step_mark hm) (runs_power hd fun c => step_mark_of_isDigit sig),
      .exponent sig false _⟩
  | plus hm hd =>
    rw [List.isEmpty_cons, Bool.and_false]
    exact ⟨_, .cons (h.step_mark hm) (.cons rfl (runs_power hd fun c => step_sign_of_isDigit sig false)),
      .exponent sig false _⟩
  | minus hm hd =>
    rw [List.isEmpty_cons, Bool.and_false]
    exact ⟨_, .cons (h.step_mark hm) (.cons rfl (runs_power hd fun c => step_sign_of_isDigit sig true)),
      .exponent sig true _⟩

theorem Numeral.SpelledBy.runs {n : Numeral} {cs : List Char} (h : n.SpelledBy cs) :
    ∃ s, Runs .between cs [] s ∧ Finishes s n := by
  cases h with
  | mk negative hw hf he =>
    obtain ⟨s, first, inside⟩ := runs_minusSign_whole negative hw
    obtain ⟨s', second, inside'⟩ := hf.runs inside rfl
    obtain ⟨s'', third, finishes⟩ := he.runs inside'
    refine ⟨s'', (first.trans second).trans third, ?_⟩
    rw [decimal, Nat.ofDigitChars_append]
    exact finishes

/-! ## Strings -/

theorem step_backslash (done : List Piece) : (State.text done).step '\\' = (.escape done, []) := rfl

theorem Piece.SpelledBy.runs {p : Piece} {cs : List Char} (h : p.SpelledBy cs) (done : List Piece) :
    Runs (.text done) cs [] (.text (p :: done)) := by
  cases h with
  | plain hq hb hc =>
    refine runs_step ?_
    simp [State.step, hq, hb, Nat.not_lt.mpr hc]
  | short h =>
    have code : ∀ e, escaped? e ≠ none → e ≠ 'u' := by
      rintro e known rfl
      exact known rfl
    refine .cons (step_backslash done) (runs_step ?_)
    simp [State.step, h, code _ (by rw [h]; exact Option.some_ne_none _)]
  | code h₁ h₂ h₃ h₄ =>
    have digit : ∀ {c : Char} {d : Nat} (value count : Nat), hexDigit? c = some d → count < 3 →
        (State.code done value count).step c = (.code done (value * 16 + d) (count + 1), []) := by
      intro c d value count h below
      simp [State.step, h, Nat.ne_of_lt below]
    refine .cons (step_backslash done) (.cons (show (State.escape done).step 'u' = (.code done 0 0, []) from rfl) ?_)
    refine .cons (digit 0 0 h₁ (by decide)) (.cons (digit _ 1 h₂ (by decide)) (.cons (digit _ 2 h₃ (by decide)) ?_))
    refine runs_step ?_
    simp [State.step, h₄]

theorem runs_pieces {pieces : List Piece} {parts : List (List Char)} (h : List.Forall₂ Piece.SpelledBy pieces parts)
    (done : List Piece) : Runs (.text done) parts.flatten [] (.text (pieces.reverse ++ done)) := by
  induction h generalizing done with
  | nil => exact .refl _
  | cons first _ ih =>
    rw [List.flatten_cons, List.reverse_cons, List.append_assoc]
    exact (first.runs done).trans (ih _)

/-! ## Tokens -/

def Token.isNumber : Token → Bool
  | .number _ => true
  | _ => false

/-- A token is found where it stands; a number must be delimited. -/
theorem Token.SpelledBy.tokensFrom {t : Token} {cs : List Char} (h : t.SpelledBy cs) (found : List Token)
    {rest : List Char} (delimited : t.isNumber = true → ∀ c ∈ rest.head?, Delimits c) :
    tokensFrom .between found (cs ++ rest) = Json.tokensFrom .between (t :: found) rest := by
  cases h with
  | number h =>
    obtain ⟨s, run, finishes⟩ := h.runs
    rw [run]
    exact finishes.tokensFrom found (delimited rfl)
  | string h =>
    have run := (runs_pieces h []).trans (runs_step (s := .text (_ ++ [])) (c := '"') rfl)
    rw [List.append_nil, List.nil_append] at run
    exact Runs.cons (show State.between.step '"' = (.text [], []) from rfl) run found rest
  | _ => rfl

theorem delimits_of_isSpace {c : Char} (h : isSpace c = true) : Delimits c := by
  have cases : c = ' ' ∨ c = '\t' ∨ c = '\n' ∨ c = '\r' := by
    simpa [isSpace, or_assoc] using h
  unfold Delimits
  rcases cases with rfl | rfl | rfl | rfl <;> decide

theorem Token.SpelledBy.head_delimits {t : Token} {cs : List Char} (h : t.SpelledBy cs) (plain : t.isNumber = false) :
    ∃ c rest, cs = c :: rest ∧ Delimits c := by
  unfold Delimits
  cases h with
  | number => cases plain
  | string => exact ⟨_, _, rfl, by decide⟩
  | _ => exact ⟨_, _, rfl, by decide⟩

theorem Spelled.head_delimits {ts : List Token} {cs : List Char} (h : Spelled ts cs)
    (plain : ∀ t ∈ ts.head?, t.isNumber = false) : ∀ c ∈ cs.head?, Delimits c := by
  cases h with
  | nil => intro c hc; cases hc
  | blank hc _ =>
    rintro c ⟨rfl⟩
    exact delimits_of_isSpace hc
  | token ht _ =>
    obtain ⟨c, rest, rfl, delimits⟩ := ht.head_delimits (plain _ rfl)
    rintro c ⟨rfl⟩
    exact delimits

/-- No two numbers stand side by side. -/
def Apart (ts : List Token) : Prop :=
  ts.IsChain fun t t' => t.isNumber = true → t'.isNumber = false

theorem Spelled.tokensFrom {ts : List Token} {cs : List Char} (h : Spelled ts cs) (apart : Apart ts)
    (found : List Token) : tokensFrom .between found cs = found.reverse ++ ts := by
  induction h generalizing found with
  | nil => simp [Json.tokensFrom, State.finish]
  | @blank ts c cs hc _ ih =>
    have step : State.between.step c = (.between, []) := by
      simp [State.step, State.start, hc]
    rw [Json.tokensFrom, step]
    exact ih apart found
  | @token t ts part cs ht h ih =>
    have delimited : t.isNumber = true → ∀ c ∈ cs.head?, Delimits c := by
      intro number
      refine h.head_delimits fun t' first => ?_
      cases ts with
      | nil => cases first
      | cons t'' ts =>
        cases first
        exact (List.isChain_cons_cons.mp apart).1 number
    rw [ht.tokensFrom found delimited, ih apart.tail (t :: found), List.reverse_cons, List.append_assoc]
    rfl

theorem tokens_of_spelled {ts : List Token} {cs : List Char} (h : Spelled ts cs) (apart : Apart ts) : tokens cs = ts :=
  h.tokensFrom apart []

end ProgramGraph.Json
