import Mathlib.Tactic.Common

namespace JsonTokens

/-!
# The tokens of a JSON text

`lex text` are the tokens of a text, read character by character: punctuation, strings with their
escapes as they are written, and words, that is `true`, `false`, `null` and numbers.

* `Lexer.outside_of_step` — between strings, blanks end a word and every other character belongs
  to a token; no token starts with `/` or `#`;
* `Lexer.step_break` — a line break or a carriage return is read as the end of a word, or not at all;
* `lex_intercalate`, `lex_flatMap` — so a text can be lexed line by line (`Lexer.line`).
-/

/-- A token; a string is kept as it is written. -/
inductive Token where
  | punct (c : Char)
  | word (w : List Char)
  | string (raw : List Char)
  deriving DecidableEq, Repr

/-- What the text read so far ends in. -/
inductive Mode where
  | between
  | word (w : List Char)
  | string (raw : List Char)
  | escape (raw : List Char)
  | hex (raw : List Char) (left : Nat)
  deriving DecidableEq, Repr

/-- A lexer in the middle of a text. -/
structure Lexer where
  mode : Mode := .between
  tokens : List Token := []
  deriving DecidableEq, Repr

/-! ### Characters and words -/

/-- JSON white space. -/
def isBlank (c : Char) : Bool := c = ' ' || c = '\t' || c = '\n' || c = '\r'

/-- The characters that are tokens. -/
def isPunct (c : Char) : Bool := c ∈ ['{', '}', '[', ']', ':', ',']

/-- The characters of words. -/
def isWordChar (c : Char) : Bool := c.isAlphanum || c = '+' || c = '-' || c = '.'

/-- A hexadecimal digit. -/
def isHexDigit (c : Char) : Bool :=
  c.isDigit || ('a' ≤ c && c ≤ 'f') || ('A' ≤ c && c ≤ 'F')

/-- One digit or more. -/
def isDigits (w : List Char) : Bool := !w.isEmpty && w.all Char.isDigit

/-- Nothing, or an exponent. -/
def isExponent : List Char → Bool
  | [] => true
  | e :: w => (e = 'e' || e = 'E') &&
      match w with
      | '+' :: w => isDigits w
      | '-' :: w => isDigits w
      | w => isDigits w

/-- Nothing, or a fraction, and then nothing or an exponent. -/
def isFraction : List Char → Bool
  | '.' :: w => isDigits (w.takeWhile Char.isDigit) && isExponent (w.dropWhile Char.isDigit)
  | w => isExponent w

/-- A number without its sign: no leading zeros. -/
def isUnsigned : List Char → Bool
  | '0' :: w => isFraction w
  | w => isDigits (w.takeWhile Char.isDigit) && isFraction (w.dropWhile Char.isDigit)

/-- A number or a literal. -/
def isWord (w : List Char) : Bool :=
  w = "true".toList || w = "false".toList || w = "null".toList ||
    match w with
    | '-' :: w => isUnsigned w
    | w => isUnsigned w

/-! ### One character -/

namespace Lexer

/-- The end of a word, if the text read so far ends in one; the text may not end inside a string. -/
def flush (s : Lexer) : Option Lexer :=
  match s.mode with
  | .between => some s
  | .word w => if isWord w then some { mode := .between, tokens := s.tokens ++ [.word w] } else none
  | _ => none

/-- A character between strings that does not go on with a word. -/
def start (s : Lexer) (c : Char) : Option Lexer :=
  if isBlank c then some s
  else if isPunct c then some { s with tokens := s.tokens ++ [.punct c] }
  else if c = '"' then some { s with mode := .string [] }
  else none

/-- One more character, in the mode that the lexer is in. -/
def step (s : Lexer) (c : Char) : Option Lexer :=
  match s.mode with
  | .between => if isWordChar c then some { s with mode := .word [c] } else s.start c
  | .word w =>
      if isWordChar c then some { s with mode := .word (w ++ [c]) } else s.flush.bind fun s => s.start c
  | .string raw =>
      if c = '"' then some { mode := .between, tokens := s.tokens ++ [.string raw] }
      else if c = '\\' then some { s with mode := .escape (raw ++ [c]) }
      else if c.toNat < 0x20 then none
      else some { s with mode := .string (raw ++ [c]) }
  | .escape raw =>
      if c ∈ ['"', '\\', '/', 'b', 'f', 'n', 'r', 't'] then some { s with mode := .string (raw ++ [c]) }
      else if c = 'u' then some { s with mode := .hex (raw ++ [c]) 3 }
      else none
  | .hex raw left =>
      if isHexDigit c then
        match left with
        | 0 => some { s with mode := .string (raw ++ [c]) }
        | left + 1 => some { s with mode := .hex (raw ++ [c]) left }
      else none

/-- A stretch of text, character by character. -/
def run (s : Lexer) (text : List Char) : Option Lexer := text.foldlM step s

/-- A line: a stretch of text that nothing is left open behind. -/
def line (s : Lexer) (text : List Char) : Option Lexer := (s.run text).bind flush

end Lexer

/-- The tokens of a text. -/
def lex (text : List Char) : Option (List Token) := (Lexer.line {} text).map Lexer.tokens

example : lex "\x7b\"a//\": -1.5e3\x7d".toList
    = some [.punct '{', .string "a//".toList, .punct ':', .word "-1.5e3".toList, .punct '}'] := by
  decide

namespace Lexer

@[simp] theorem run_nil (s : Lexer) : s.run [] = some s := rfl

@[simp] theorem run_cons (s : Lexer) (c : Char) (text : List Char) :
    s.run (c :: text) = (s.step c).bind fun s => s.run text := rfl

@[simp] theorem run_append (s : Lexer) (text text' : List Char) :
    s.run (text ++ text') = (s.run text).bind fun s => s.run text' := by
  simp [run, List.foldlM_append]

/-- The lexer is behind a token or a blank. -/
def Between (s : Lexer) : Prop := s.mode = .between

theorem flush_of_between {s : Lexer} (h : s.Between) : s.flush = some s := by
  rw [flush, h]

theorem between_of_flush {s s' : Lexer} (h : s.flush = some s') : s'.Between := by
  unfold flush at h
  split at h
  · rename_i hmode
    exact Option.some.inj h ▸ hmode
  · split at h
    · exact Option.some.inj h ▸ rfl
    · cases h
  · cases h

theorem between_of_line {s s' : Lexer} {text : List Char} (h : s.line text = some s') : s'.Between := by
  obtain ⟨_, -, hflush⟩ := Option.bind_eq_some_iff.mp h
  exact between_of_flush hflush

/-- The lexer is not inside a string. -/
def Outside (s : Lexer) : Prop := s.mode = .between ∨ ∃ w, s.mode = .word w

theorem Between.outside {s : Lexer} (h : s.Between) : s.Outside := .inl h

theorem outside_of_flush {s s' : Lexer} (h : s.flush = some s') : s.Outside := by
  unfold flush at h
  split at h
  · rename_i hmode
    exact .inl hmode
  · rename_i w hmode
    exact .inr ⟨w, hmode⟩
  · cases h

/-- **Between strings**, a character goes on with a word, or ends one and starts anew. -/
theorem step_outside {s : Lexer} (h : s.Outside) (c : Char) :
    (isWordChar c = true ∧ ∃ w, s.step c = some { s with mode := .word w }) ∨
      (isWordChar c = false ∧ s.step c = s.flush.bind fun s => s.start c) := by
  rcases h with h | ⟨w, h⟩
  · by_cases hc : isWordChar c = true
    · exact .inl ⟨hc, [c], by simp [step, h, hc]⟩
    · exact .inr ⟨by simpa using hc, by simp [step, h, hc, flush_of_between (s := s) h]⟩
  · by_cases hc : isWordChar c = true
    · exact .inl ⟨hc, w ++ [c], by simp [step, h, hc]⟩
    · exact .inr ⟨by simpa using hc, by simp [step, h, hc]⟩

/-- Comments do not start like tokens. -/
theorem step_comment {s : Lexer} (h : s.Outside) {c : Char} (hc : c = '/' ∨ c = '#') :
    s.step c = none := by
  rcases step_outside h c with ⟨hword, -⟩ | ⟨-, hstep⟩
  · rcases hc with rfl | rfl <;> simp [isWordChar] at hword
  · rw [hstep]
    rcases hc with rfl | rfl <;> simp [start, isBlank, isPunct]

/-- What a character between strings leads to. -/
theorem outside_of_step {s s' : Lexer} (h : s.Outside) {c : Char} (hstep : s.step c = some s') :
    (c ≠ '"' ∧ s'.Outside) ∨ (c = '"' ∧ s'.mode = .string []) := by
  rcases step_outside h c with ⟨hword, w, heq⟩ | ⟨-, heq⟩
  · obtain rfl := Option.some.inj (heq.symm.trans hstep)
    refine .inl ⟨?_, .inr ⟨w, rfl⟩⟩
    rintro rfl
    cases hword
  · rw [heq] at hstep
    obtain ⟨mid, hflush, hstart⟩ := Option.bind_eq_some_iff.mp hstep
    have hmid := between_of_flush hflush
    unfold start at hstart
    split at hstart
    · rename_i hblank
      obtain rfl := Option.some.inj hstart
      refine .inl ⟨?_, hmid.outside⟩
      rintro rfl
      cases hblank
    · split at hstart
      · rename_i hpunct
        obtain rfl := Option.some.inj hstart
        refine .inl ⟨?_, .inl hmid⟩
        rintro rfl
        cases hpunct
      · split at hstart
        · rename_i hquote
          obtain rfl := Option.some.inj hstart
          exact .inr ⟨hquote, rfl⟩
        · cases hstart

/-- Characters that belong to no token are blanks, and leave the lexer as it was. -/
theorem run_of_noToken {s s' : Lexer} (hs : s.Between) {text : List Char} (h : s.run text = some s')
    (hno : ∀ c ∈ text, isWordChar c = false ∧ isPunct c = false ∧ c ≠ '"') : s' = s := by
  induction text with
  | nil => exact (Option.some.inj h).symm
  | cons c text ih =>
    rw [List.forall_mem_cons] at hno
    obtain ⟨⟨hword, hpunct, hquote⟩, hno⟩ := hno
    have hstep : s.step c = some s ∨ s.step c = none := by
      rcases step_outside hs.outside c with ⟨hword', -⟩ | ⟨-, heq⟩
      · simp [hword] at hword'
      · rw [heq, flush_of_between hs]
        by_cases hblank : isBlank c = true
        · exact .inl (by simp [start, hblank])
        · exact .inr (by simp [start, hblank, hpunct, hquote])
    rw [run_cons] at h
    rcases hstep with hstep | hstep
    · exact ih (by simpa [hstep] using h) hno
    · simp [hstep] at h

/-- A blank between strings ends a word. -/
theorem step_blank {s : Lexer} (h : s.Outside) {c : Char} (hc : isBlank c = true) : s.step c = s.flush := by
  have hword : isWordChar c = false := by
    simp only [isBlank, Bool.or_eq_true, decide_eq_true_eq] at hc
    rcases hc with ((rfl | rfl) | rfl) | rfl <;> rfl
  rcases step_outside h c with ⟨hc', -⟩ | ⟨-, hstep⟩
  · rw [hword] at hc'
    cases hc'
  · rw [hstep]
    simp [start, hc]

/-- **A line break** ends a word, and stands in no string. -/
theorem step_break (s : Lexer) {c : Char} (hc : c = '\n' ∨ c = '\r') : s.step c = s.flush := by
  have hblank : isBlank c = true := by rcases hc with rfl | rfl <;> rfl
  rcases hmode : s.mode with _ | w | raw | raw | ⟨raw, left⟩
  · exact step_blank (.inl hmode) hblank
  · exact step_blank (.inr ⟨w, hmode⟩) hblank
  · rcases hc with rfl | rfl <;> simp [step, flush, hmode]
  · rcases hc with rfl | rfl <;> simp [step, flush, hmode]
  · rcases hc with rfl | rfl <;> simp [step, flush, hmode, isHexDigit]

theorem flush_flush (s : Lexer) : (s.flush.bind fun s => s.flush) = s.flush := by
  rcases h : s.flush with _ | s'
  · rfl
  · exact flush_of_between (between_of_flush h)

/-- A carriage return at the end of a line makes no difference. -/
theorem line_concat_cr (s : Lexer) (text : List Char) : s.line (text ++ ['\r']) = s.line text := by
  simp [line, Option.bind_assoc, step_break, flush_flush]

theorem line_nil {s : Lexer} (h : s.Between) : s.line [] = some s := flush_of_between h

end Lexer

/-! ### Line by line -/

/-- **Terminated lines.** A document of such lines is read line by line, with the state of the lexer carried from one
    to the next. -/
theorem lex_flatMap (lines : List (List Char)) :
    lex (lines.flatMap (· ++ ['\n'])) = (lines.foldlM Lexer.line {}).map Lexer.tokens := by
  have hrun : ∀ (lines : List (List Char)) (s : Lexer), s.Between →
      s.line (lines.flatMap (· ++ ['\n'])) = lines.foldlM Lexer.line s := by
    intro lines
    induction lines with
    | nil => exact fun s hs => Lexer.line_nil hs
    | cons l lines ih =>
      intro s hs
      have hfirst : s.run (l ++ ['\n']) = s.line l := by
        simp [Lexer.line, Lexer.step_break]
      rw [List.flatMap_cons, Lexer.line, Lexer.run_append, hfirst, List.foldlM_cons]
      rcases hline : s.line l with _ | s'
      · rfl
      · exact ih s' (Lexer.between_of_line hline)
  rw [lex, hrun lines {} rfl]

/-- **Lines** with a line break between any two of them. -/
theorem lex_intercalate {lines : List (List Char)} (h : lines ≠ []) :
    lex (['\n'].intercalate lines) = (lines.foldlM Lexer.line {}).map Lexer.tokens := by
  -- another line break at the end makes no difference
  have hend : ∀ text, lex (text ++ ['\n']) = lex text := by
    intro text
    simp [lex, Lexer.line, Option.bind_assoc, Lexer.step_break, Lexer.flush_flush]
  have hjoin : ∀ lines : List (List Char), lines ≠ [] →
      ['\n'].intercalate lines ++ ['\n'] = lines.flatMap (· ++ ['\n']) := by
    intro lines hlines
    induction lines with
    | nil => exact absurd rfl hlines
    | cons l lines ih =>
      by_cases hnil : lines = []
      · subst hnil
        simp
      · rw [List.intercalate_cons_of_ne_nil hnil, List.flatMap_cons, ← ih hnil]
        simp
  rw [← hend, hjoin lines h, lex_flatMap]

end JsonTokens
