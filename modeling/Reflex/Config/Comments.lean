import Reflex.Lib.JsonTokens
import Reflex.RustStd.Str

namespace Reflex.Config

open RustStd JsonTokens

/-!
# Configuration — comments

`config/mod.rs`: a configuration file is JSON with comments.  `strip_comments` blanks the lines that
are comments and cuts the others at the first `//` that is not inside a string, which
`find_line_comment` looks for byte by byte.

* `stripComments_eq` — the scan over bytes cuts between characters, so nothing panics and the
  result is that of a scan over characters (`codeOf`);
* `codeOf_run` — on a JSON text that scan and the JSON lexer agree on what is inside a string;
* `stripsTo_of_decorates` — so a decorated document keeps its tokens;
* `stripComments_fixed_iff` — stripping twice is stripping once where no line is left with a
  carriage return at its end.
-/

/-! ### The code -/

/-- `find_line_comment`: the position of the first `//` outside strings; `i` bytes have been read. -/
def findLineComment (inStr : Bool) (i : Nat) : Bytes → Option Nat
  | [] => none
  | b :: bytes =>
      if b = 0x22 then findLineComment (!inStr) (i + 1) bytes
      -- the escaped byte is not looked at
      else if b = 0x5C ∧ inStr then findLineComment inStr (i + 2) (bytes.drop 1)
      else if b = 0x2F ∧ !inStr ∧ bytes.head? = some 0x2F then some i
      else findLineComment inStr (i + 1) bytes
termination_by bytes => bytes.length
decreasing_by all_goals (simp only [List.length_cons, List.length_drop]; omega)

/-- `trimmed.starts_with("//") || trimmed.starts_with('#')`. -/
def isCommentLine (line : Str) : Bool :=
  let trimmed := line.dropWhile isWhitespace
  "//".toList.isPrefixOf trimmed || trimmed.head? = some '#'

/-- What is left of one line; nothing where the slice `&line[..pos]` is not one of characters. -/
def stripLine (line : Str) : Option Str :=
  if isCommentLine line then some []
  else
    match findLineComment false 0 (utf8 line) with
    | some pos => fromUtf8 ((utf8 line).take pos)
    | none => some line

/-- `strip_comments`. -/
def stripComments (s : Str) : Option Str := do
  let stripped ← (lines s).mapM stripLine
  return stripped.flatMap (· ++ ['\n'])

/-! ### The scan over characters -/

/-- Whether the scan is inside a string, and behind a backslash there. -/
inductive Quote where
  | outside | inside | escaped
  deriving DecidableEq, Repr

/-- The part of a line in front of the first `//` that is not inside a string. -/
def codeOf : Quote → Str → Str
  | _, [] => []
  | .outside, c :: s =>
      if c = '"' then c :: codeOf .inside s
      else if c = '/' ∧ s.head? = some '/' then []
      else c :: codeOf .outside s
  | .inside, c :: s =>
      if c = '"' then c :: codeOf .outside s
      else if c = '\\' then c :: codeOf .escaped s
      else c :: codeOf .inside s
  | .escaped, c :: s => c :: codeOf .inside s

/-- What is left of one line. -/
def strippedLine (line : Str) : Str := if isCommentLine line then [] else codeOf .outside line

theorem codeOf_isPrefix (q : Quote) (s : Str) : codeOf q s <+: s := by
  fun_induction codeOf q s with
  | case1 => exact List.prefix_refl _
  | case2 s ih => exact (List.prefix_cons_inj _).mpr ih
  | case3 => exact List.nil_prefix
  | case4 c s _ _ ih => exact (List.prefix_cons_inj _).mpr ih
  | case5 s ih => exact (List.prefix_cons_inj _).mpr ih
  | case6 s _ ih => exact (List.prefix_cons_inj _).mpr ih
  | case7 c s _ _ ih => exact (List.prefix_cons_inj _).mpr ih
  | case8 c s ih => exact (List.prefix_cons_inj _).mpr ih

/-- The bytes `find_line_comment` looks for. -/
def IsMark (b : UInt8) : Prop := b = 0x22 ∨ b = 0x5C ∨ b = 0x2F

/-- Bytes that neither open nor close a string nor begin a comment are passed over, and only the position moves on. -/
theorem findLineComment_skip (inStr : Bool) (i : Nat) (front bytes : Bytes)
    (h : ∀ b ∈ front, ¬ IsMark b) :
    findLineComment inStr i (front ++ bytes) = findLineComment inStr (i + front.length) bytes := by
  induction front generalizing i with
  | nil => simp
  | cons b front ih =>
    simp only [List.forall_mem_cons, IsMark, not_or] at h
    obtain ⟨⟨hquote, hslash, hmark⟩, hfront⟩ := h
    rw [List.cons_append, findLineComment, if_neg hquote, if_neg (by simp [hslash]),
      if_neg (by simp [hmark]), ih _ (by simpa only [IsMark, not_or] using hfront), List.length_cons]
    congr 1
    omega

/-- An ASCII byte encodes its own character. -/
theorem eq_ofNat_of_mem {c : Char} {b : UInt8} (hb : b.toNat < 128) (h : b ∈ String.utf8EncodeChar c) :
    c = Char.ofNat b.toNat := by
  rw [← ascii_mem_utf8EncodeChar hb h, Char.ofNat_toNat]

theorem IsMark.toNat_lt {b : UInt8} (h : IsMark b) : b.toNat < 128 := by
  rcases h with rfl | rfl | rfl <;> decide

/-- Only the characters themselves are encoded with these bytes. -/
theorem not_isMark_of_mem {c : Char} (hc : c ≠ '"' ∧ c ≠ '\\' ∧ c ≠ '/') :
    ∀ b ∈ String.utf8EncodeChar c, ¬ IsMark b := by
  intro b hb hmark
  have hchar := eq_ofNat_of_mem hmark.toNat_lt hb
  rcases hmark with rfl | rfl | rfl
  · exact hc.1 hchar
  · exact hc.2.1 hchar
  · exact hc.2.2 hchar

/-- Behind the first byte of a character there are none of these bytes. -/
theorem not_isMark_of_mem_tail (c : Char) : ∀ b ∈ (String.utf8EncodeChar c).tail, ¬ IsMark b := by
  by_cases hc : c ≠ '"' ∧ c ≠ '\\' ∧ c ≠ '/'
  · exact fun b hb => not_isMark_of_mem hc b (List.mem_of_mem_tail hb)
  · have hone : c = '"' ∨ c = '\\' ∨ c = '/' := by tauto
    have hnil : (String.utf8EncodeChar c).tail = [] := by rcases hone with rfl | rfl | rfl <;> rfl
    simp [hnil]

theorem head?_utf8 (s : Str) : (utf8 s).head? = some 0x2F ↔ s.head? = some '/' := by
  rcases s with _ | ⟨c, s⟩
  · simp
  · obtain ⟨b, bytes, hbytes⟩ := List.exists_cons_of_ne_nil (String.utf8EncodeChar_ne_nil (c := c))
    rw [utf8_cons, hbytes]
    simp only [List.cons_append, List.head?_cons, Option.some.injEq]
    constructor
    · rintro rfl
      exact eq_ofNat_of_mem (b := 0x2F) (by decide) (hbytes ▸ List.mem_cons_self)
    · rintro rfl
      exact (List.cons.inj (hbytes.symm.trans rfl)).1

/-- The scan over bytes behind a piece of text. -/
def scan : Quote → Nat → Bytes → Option Nat
  | .outside, i, bytes => findLineComment false i bytes
  | .inside, i, bytes => findLineComment true i bytes
  | .escaped, i, bytes => findLineComment true (i + 1) (bytes.drop 1)

/-- A character that is no mark is passed over. -/
theorem scan_skip {q : Quote} (hq : q ≠ .escaped) {c : Char} (hc : c ≠ '"' ∧ c ≠ '\\' ∧ c ≠ '/') (i : Nat)
    (s : Str) : scan q i (utf8 (c :: s)) = scan q (i + c.utf8Size) (utf8 s) := by
  rw [utf8_cons, ← String.length_utf8EncodeChar]
  rcases q with _ | _ | _
  · exact findLineComment_skip false i _ _ (not_isMark_of_mem hc)
  · exact findLineComment_skip true i _ _ (not_isMark_of_mem hc)
  · exact absurd rfl hq

/-- An escaped character is passed over, whatever it is. -/
theorem scan_escaped (c : Char) (i : Nat) (s : Str) :
    scan .escaped i (utf8 (c :: s)) = scan .inside (i + c.utf8Size) (utf8 s) := by
  obtain ⟨b, bytes, hbytes⟩ := List.exists_cons_of_ne_nil (String.utf8EncodeChar_ne_nil (c := c))
  have htail := not_isMark_of_mem_tail c
  rw [utf8_cons, ← String.length_utf8EncodeChar, hbytes]
  rw [hbytes] at htail
  show findLineComment true (i + 1) (bytes ++ utf8 s) = findLineComment true _ (utf8 s)
  rw [findLineComment_skip true (i + 1) bytes _ htail, List.length_cons]
  congr 1
  omega

/-- **The two scans** agree: the one over bytes finds a comment exactly where the one over characters ends the
    code. -/
theorem scan_utf8 (q : Quote) (i : Nat) (s : Str) :
    (scan q i (utf8 s) = none ∧ codeOf q s = s) ∨
      scan q i (utf8 s) = some (i + (utf8 (codeOf q s)).length) := by
  -- over the characters: each is passed over with all its bytes, or starts a comment
  induction s generalizing q i with
  | nil => exact .inl ⟨by cases q <;> simp [scan, findLineComment], by cases q <;> rfl⟩
  | cons c s ih =>
    have hnext : ∀ q', scan q i (utf8 (c :: s)) = scan q' (i + c.utf8Size) (utf8 s) →
        codeOf q (c :: s) = c :: codeOf q' s →
        (scan q i (utf8 (c :: s)) = none ∧ codeOf q (c :: s) = c :: s) ∨
          scan q i (utf8 (c :: s)) = some (i + (utf8 (codeOf q (c :: s))).length) := by
      intro q' hscan hcode
      rw [hscan, hcode]
      rcases ih q' (i + c.utf8Size) with ⟨hnone, heq⟩ | hsome
      · exact .inl ⟨hnone, by rw [heq]⟩
      · refine .inr (hsome.trans ?_)
        rw [utf8_cons, List.length_append, String.length_utf8EncodeChar, Nat.add_assoc]
    rcases q with _ | _ | _
    · by_cases hquote : c = '"'
      · subst hquote
        exact hnext .inside (by simp [scan, show String.utf8EncodeChar '"' = [0x22] from rfl,
          findLineComment, show Char.utf8Size '"' = 1 from rfl]) rfl
      · by_cases hslash : c = '/'
        · subst hslash
          have hbytes : scan .outside i (utf8 ('/' :: s)) = if (utf8 s).head? = some 0x2F then some i
              else findLineComment false (i + 1) (utf8 s) := by
            simp [scan, show String.utf8EncodeChar '/' = [0x2F] from rfl, findLineComment]
          by_cases hhead : s.head? = some '/'
          · refine .inr ?_
            rw [hbytes, if_pos ((head?_utf8 s).mpr hhead)]
            simp [codeOf, hhead]
          · refine hnext .outside ?_ (by simp [codeOf, hhead])
            rw [hbytes, if_neg (by rwa [head?_utf8])]
            rfl
        · by_cases hback : c = '\\'
          · subst hback
            exact hnext .outside (by simp [scan, show String.utf8EncodeChar '\\' = [0x5C] from rfl,
              findLineComment, show Char.utf8Size '\\' = 1 from rfl]) rfl
          · exact hnext .outside (scan_skip (q := .outside) nofun ⟨hquote, hback, hslash⟩ i s)
              (by simp [codeOf, hquote, hslash])
    · by_cases hquote : c = '"'
      · subst hquote
        exact hnext .outside (by simp [scan, show String.utf8EncodeChar '"' = [0x22] from rfl,
          findLineComment, show Char.utf8Size '"' = 1 from rfl]) rfl
      · by_cases hback : c = '\\'
        · subst hback
          exact hnext .escaped (by simp [scan, show String.utf8EncodeChar '\\' = [0x5C] from rfl,
            findLineComment, show Char.utf8Size '\\' = 1 from rfl]) rfl
        · by_cases hslash : c = '/'
          · subst hslash
            exact hnext .inside (by simp [scan, show String.utf8EncodeChar '/' = [0x2F] from rfl,
              findLineComment, show Char.utf8Size '/' = 1 from rfl]) rfl
          · exact hnext .inside (scan_skip (q := .inside) nofun ⟨hquote, hback, hslash⟩ i s)
              (by simp [codeOf, hquote, hback])
    · exact hnext .inside (scan_escaped c i s) rfl

theorem stripLine_eq (line : Str) : stripLine line = some (strippedLine line) := by
  unfold stripLine strippedLine
  split
  · rfl
  · have hscan : findLineComment false 0 (utf8 line) = scan .outside 0 (utf8 line) := rfl
    rcases scan_utf8 .outside 0 line with ⟨hnone, hcode⟩ | hsome
    · rw [hscan, hnone, hcode]
    · obtain ⟨rest, hrest⟩ := codeOf_isPrefix .outside line
      rw [hscan, hsome]
      have hbytes : utf8 line = utf8 (codeOf .outside line) ++ utf8 rest := by
        rw [← utf8_append, hrest]
      show fromUtf8 ((utf8 line).take _) = _
      rw [Nat.zero_add, hbytes, List.take_left, fromUtf8_utf8]

/-- **Nothing panics**, as every comment starts at the boundary of a character; and what is left is each line without
    its comment. -/
theorem stripComments_eq (s : Str) :
    stripComments s = some ((lines s).flatMap fun l => strippedLine l ++ ['\n']) := by
  have hmap : (lines s).mapM stripLine = some ((lines s).map strippedLine) := by
    rw [show stripLine = fun l => pure (strippedLine l) from funext stripLine_eq, List.mapM_pure]
    rfl
  simp [stripComments, hmap, List.flatMap_map]

/-! ### The scan and the lexer -/

/-- Where the scan is when the lexer has read the same text. -/
def quoteOf (s : Lexer) : Quote :=
  match s.mode with
  | .between | .word _ => .outside
  | .string _ | .hex _ _ => .inside
  | .escape _ => .escaped

theorem quoteOf_of_outside {s : Lexer} (h : s.Outside) : quoteOf s = .outside := by
  rcases h with h | ⟨w, h⟩ <;> simp [quoteOf, h]

/-- **One character**: the scan keeps it and stays in step with the lexer. -/
theorem codeOf_step {s s' : Lexer} {c : Char} (h : s.step c = some s') (rest : Str) :
    codeOf (quoteOf s) (c :: rest) = c :: codeOf (quoteOf s') rest := by
  have houtside : s.Outside → codeOf (quoteOf s) (c :: rest) = c :: codeOf (quoteOf s') rest := by
    intro hs
    have hslash : c ≠ '/' := by
      rintro rfl
      simp [Lexer.step_comment hs (.inl rfl)] at h
    rw [quoteOf_of_outside hs]
    rcases Lexer.outside_of_step hs h with ⟨hquote, hs'⟩ | ⟨rfl, hmode⟩
    · simp [codeOf, hquote, hslash, quoteOf_of_outside hs']
    · simp [codeOf, quoteOf, hmode]
  rcases hmode : s.mode with _ | w | raw | raw | ⟨raw, left⟩
  · exact houtside (.inl hmode)
  · exact houtside (.inr ⟨w, hmode⟩)
  · simp only [Lexer.step, hmode] at h
    split_ifs at h with hquote hback hcontrol
    · obtain rfl := Option.some.inj h
      simp [quoteOf, hmode, codeOf, hquote]
    · obtain rfl := Option.some.inj h
      simp [quoteOf, hmode, codeOf, hback]
    · obtain rfl := Option.some.inj h
      simp [quoteOf, hmode, codeOf, hquote, hback]
  · simp only [Lexer.step, hmode] at h
    split_ifs at h with hshort hunicode
    · obtain rfl := Option.some.inj h
      simp [quoteOf, hmode, codeOf]
    · obtain rfl := Option.some.inj h
      simp [quoteOf, hmode, codeOf]
  · simp only [Lexer.step, hmode] at h
    split_ifs at h with hdigit
    -- a hexadecimal digit is neither a quote nor a backslash
    have hquote : c ≠ '"' := by
      rintro rfl
      cases hdigit
    have hback : c ≠ '\\' := by
      rintro rfl
      cases hdigit
    split at h
    · obtain rfl := Option.some.inj h
      simp [quoteOf, hmode, codeOf, hquote, hback]
    · obtain rfl := Option.some.inj h
      simp [quoteOf, hmode, codeOf, hquote, hback]

/-- **A stretch of JSON text** is kept, and the scan stays in step with the lexer. -/
theorem codeOf_run {s s' : Lexer} {text : Str} (h : s.run text = some s') (rest : Str) :
    codeOf (quoteOf s) (text ++ rest) = text ++ codeOf (quoteOf s') rest := by
  induction text generalizing s with
  | nil =>
    obtain rfl : s = s' := Option.some.inj h
    rfl
  | cons c text ih =>
    rw [Lexer.run_cons] at h
    obtain ⟨mid, hstep, hrun⟩ := Option.bind_eq_some_iff.mp h
    rw [List.cons_append, codeOf_step hstep, ih hrun]
    rfl

/-- A line of JSON is kept, whatever comment is appended. -/
theorem codeOf_line {s s' : Lexer} (hs : s.Between) {text : Str} (h : s.line text = some s') :
    codeOf .outside text = text ∧ ∀ comment, codeOf .outside (text ++ "//".toList ++ comment) = text := by
  obtain ⟨mid, hrun, hflush⟩ := Option.bind_eq_some_iff.mp h
  have hq := quoteOf_of_outside hs.outside
  have hq' := quoteOf_of_outside (Lexer.outside_of_flush hflush)
  constructor
  · simpa [hq, hq', codeOf] using codeOf_run hrun []
  · intro comment
    have hcode := codeOf_run hrun ('/' :: '/' :: comment)
    rw [hq, hq'] at hcode
    simpa [codeOf] using hcode

/-! ### Decorations -/

/-- A line of which the first characters that are not blank are `//` or `#`. -/
def IsComment (line : Str) : Prop :=
  ∃ blank body : Str, line = blank ++ body ∧ (∀ c ∈ blank, isWhitespace c = true) ∧
    (['/', '/'] <+: body ∨ ['#'] <+: body)

/-- A line with a comment appended; the carriage return of a line break may stand behind it. -/
inductive LineDecorates : Str → Str → Prop
  | keep (line : Str) : LineDecorates line line
  | comment (line : Str) {text : Str} (h : '\n' ∉ text) : LineDecorates line (line ++ '/' :: '/' :: text)
  | commentCr (line : Str) {text : Str} (h : '\n' ∉ text) :
      LineDecorates (line ++ ['\r']) (line ++ '/' :: '/' :: (text ++ ['\r']))

/-- Lines with comments appended, and with comment lines between them. -/
inductive Decorates : List Str → List Str → Prop
  | nil : Decorates [] []
  | line {l d : Str} {ls ds : List Str} (h : LineDecorates l d) (hs : Decorates ls ds) :
      Decorates (l :: ls) (d :: ds)
  | insert {l : Str} {ls ds : List Str} (h : IsComment l) (hn : '\n' ∉ l) (hs : Decorates ls ds) :
      Decorates ls (l :: ds)

theorem Decorates.refl : ∀ ls : List Str, Decorates ls ls
  | [] => .nil
  | l :: ls => .line (.keep l) (refl ls)

theorem Decorates.newline_notMem {ls ds : List Str} (h : Decorates ls ds) (hls : ∀ l ∈ ls, '\n' ∉ l) :
    ∀ d ∈ ds, '\n' ∉ d := by
  induction h with
  | nil => exact hls
  | line h _ ih =>
    rw [List.forall_mem_cons] at hls ⊢
    refine ⟨?_, ih hls.2⟩
    cases h with
    | keep => exact hls.1
    | comment l htext => simpa [htext] using hls.1
    | commentCr l htext => simpa [htext] using hls.1
  | insert _ hn _ ih => exact List.forall_mem_cons.mpr ⟨hn, ih hls⟩

/-! ### Comment lines -/

theorem isCommentLine_iff (line : Str) : isCommentLine line = true ↔ IsComment line := by
  have hcut : line.takeWhile isWhitespace ++ line.dropWhile isWhitespace = line :=
    List.takeWhile_append_dropWhile
  have hslashes : isCommentLine line = true ↔ ['/', '/'] <+: line.dropWhile isWhitespace ∨
      ['#'] <+: line.dropWhile isWhitespace := by
    have hhash : ∀ l : Str, l.head? = some '#' ↔ ['#'] <+: l := by
      intro l
      cases l <;> simp [eq_comm]
    simp [isCommentLine, hhash]
  rw [hslashes]
  constructor
  · intro h
    exact ⟨_, _, hcut.symm, fun c hc => List.mem_takeWhile_imp hc, h⟩
  · rintro ⟨blank, body, rfl, hblank, hbody⟩
    rw [List.dropWhile_append_of_pos hblank]
    -- neither character is white space, so nothing of the body is dropped
    rcases hbody with ⟨rest, rfl⟩ | ⟨rest, rfl⟩
    · exact .inl ⟨rest, by rw [List.cons_append, List.dropWhile_cons_of_neg (by decide)]⟩
    · exact .inr ⟨rest, by rw [List.cons_append, List.dropWhile_cons_of_neg (by decide)]⟩

theorem IsComment.mono {l l' : Str} (h : IsComment l) (hl : l <+: l') : IsComment l' := by
  obtain ⟨blank, body, rfl, hblank, hbody⟩ := h
  obtain ⟨rest, rfl⟩ := hl
  exact ⟨blank, body ++ rest, List.append_assoc .., hblank,
    hbody.imp (·.trans (List.prefix_append _ _)) (·.trans (List.prefix_append _ _))⟩

theorem strippedLine_of_comment {l : Str} (h : IsComment l) : strippedLine l = [] :=
  if_pos ((isCommentLine_iff l).mpr h)

theorem strippedLine_of_not_comment {l : Str} (h : ¬ IsComment l) : strippedLine l = codeOf .outside l :=
  if_neg (mt (isCommentLine_iff l).mp h)

/-- White space belongs to no token. -/
theorem noToken_of_isWhitespace {c : Char} (h : isWhitespace c = true) :
    isWordChar c = false ∧ isPunct c = false ∧ c ≠ '"' := by
  refine ⟨?_, ?_, ?_⟩
  · by_contra hword
    simp only [Bool.not_eq_false, isWordChar, Bool.or_eq_true, decide_eq_true_eq] at hword
    rcases hword with ((hword | rfl) | rfl) | rfl
    · delta Char.isAlphanum Char.isAlpha Char.isUpper Char.isLower Char.isDigit at hword
      simp only [Bool.or_eq_true, Bool.and_eq_true, decide_eq_true_eq, UInt32.le_iff_toNat_le, ge_iff_le] at hword
      simp only [isWhitespace, Bool.or_eq_true, Bool.and_eq_true, decide_eq_true_eq, beq_iff_eq] at h
      have hval : c.toNat = c.val.toNat := rfl
      have h1 : 'A'.val.toNat = 65 := rfl
      have h2 : 'Z'.val.toNat = 90 := rfl
      have h3 : 'a'.val.toNat = 97 := rfl
      have h4 : 'z'.val.toNat = 122 := rfl
      have h5 : '0'.val.toNat = 48 := rfl
      have h6 : '9'.val.toNat = 57 := rfl
      omega
    · cases h
    · cases h
    · cases h
  · by_contra hpunct
    simp only [Bool.not_eq_false, isPunct, decide_eq_true_eq, List.mem_cons, List.not_mem_nil,
      or_false] at hpunct
    rcases hpunct with rfl | rfl | rfl | rfl | rfl | rfl <;> cases h
  · rintro rfl
    cases h

/-- **A line of JSON** that becomes a comment line has no tokens. -/
theorem eq_of_isComment {s s' : Lexer} (hs : s.Between) {text tail : Str} (h : s.line text = some s')
    (hcomment : IsComment (text ++ tail)) : s' = s := by
  obtain ⟨mid, hrun, hflush⟩ := Option.bind_eq_some_iff.mp h
  have hblankRun : ∀ {front : Str} {s₁}, (∀ c ∈ front, isWhitespace c = true) → s.run front = some s₁ →
      s₁ = s := fun hfront hrun =>
    Lexer.run_of_noToken hs hrun fun c hc => noToken_of_isWhitespace (hfront c hc)
  obtain ⟨blank, body, heq, hblank, hbody⟩ := hcomment
  rcases List.append_eq_append_iff.mp heq with ⟨more, rfl, -⟩ | ⟨more, rfl, hmore⟩
  · -- all of the line is white space
    obtain rfl := hblankRun (fun c hc => hblank c (List.mem_append_left _ hc)) hrun
    exact (Option.some.inj (hflush.symm.trans (Lexer.flush_of_between hs)))
  · rw [Lexer.run_append] at hrun
    obtain ⟨s₁, hfront, hrest⟩ := Option.bind_eq_some_iff.mp hrun
    obtain rfl := hblankRun hblank hfront
    rcases more with _ | ⟨c, more⟩
    · obtain rfl : s₁ = mid := Option.some.inj hrest
      exact (Option.some.inj (hflush.symm.trans (Lexer.flush_of_between hs)))
    · -- no token starts like a comment
      have hc : c = '/' ∨ c = '#' := by
        rw [hmore] at hbody
        rcases hbody with ⟨rest, hrest⟩ | ⟨rest, hrest⟩
        · exact .inl (List.cons.inj hrest).1.symm
        · exact .inr (List.cons.inj hrest).1.symm
      simp [Lexer.step_comment hs.outside hc] at hrest

/-! ### Decorated lines -/

/-- A decorated line keeps what the lexer reads. -/
theorem line_strippedLine {s s' : Lexer} (hs : s.Between) {text : Str} (h : s.line text = some s') :
    s.line (strippedLine text) = some s' ∧
      ∀ comment, s.line (strippedLine (text ++ '/' :: '/' :: comment)) = some s' := by
  have hcode := codeOf_line hs h
  have hkeep : ∀ tail, codeOf .outside (text ++ tail) = text →
      s.line (strippedLine (text ++ tail)) = some s' := by
    intro tail htail
    by_cases hcomment : IsComment (text ++ tail)
    · rw [strippedLine_of_comment hcomment, Lexer.line_nil hs, eq_of_isComment hs h hcomment]
    · rw [strippedLine_of_not_comment hcomment, htail, h]
  exact ⟨by simpa using hkeep [] (by simpa using hcode.1),
    fun comment => hkeep _ (by simpa using hcode.2 comment)⟩

theorem line_of_lineDecorates {s s' : Lexer} (hs : s.Between) {l d : Str} (hd : LineDecorates l d)
    (h : s.line l = some s') :
    s.line (strippedLine d) = some s' ∧ s.line (strippedLine (stripCr d)) = some s' := by
  -- a carriage return behind a comment belongs to the comment
  have hcr : ∀ text comment : Str, ∃ comment',
      stripCr (text ++ '/' :: '/' :: comment) = text ++ '/' :: '/' :: comment' := by
    intro text comment
    obtain ⟨comment', hstrip⟩ := stripCr_append_cons (c := '/') (by decide) (text ++ ['/']) comment
    exact ⟨comment', by simpa using hstrip⟩
  cases hd with
  | keep =>
    refine ⟨(line_strippedLine hs h).1, ?_⟩
    unfold stripCr
    split
    · rename_i hlast
      obtain ⟨front, rfl⟩ : ∃ front, l = front ++ ['\r'] := List.getLast?_eq_some_iff.mp hlast
      rw [Lexer.line_concat_cr] at h
      rw [List.dropLast_concat]
      exact (line_strippedLine hs h).1
    · exact (line_strippedLine hs h).1
  | comment =>
    have hcomment := (line_strippedLine hs h).2
    obtain ⟨comment', hstrip⟩ := hcr l _
    exact ⟨hcomment _, hstrip ▸ hcomment comment'⟩
  | commentCr text =>
    rw [Lexer.line_concat_cr] at h
    have hcomment := (line_strippedLine hs h).2
    obtain ⟨comment', hstrip⟩ := hcr text _
    exact ⟨hcomment _, hstrip ▸ hcomment comment'⟩

/-! ### Lines -/

/-- One line of `lines`; only an empty last piece is no line. -/
theorem linesOfPieces_cons (d : Str) (ds : List Str) :
    (d = [] ∧ linesOfPieces (d :: ds) = [] ∧ ds = []) ∨
      ∃ e, (e = d ∨ e = stripCr d) ∧ linesOfPieces (d :: ds) = e :: linesOfPieces ds := by
  rcases ds with _ | ⟨d', ds⟩
  · by_cases hd : d = []
    · exact .inl ⟨hd, by simp [linesOfPieces, hd], rfl⟩
    · exact .inr ⟨d, .inl rfl, by simp [linesOfPieces, hd]⟩
  · exact .inr ⟨stripCr d, .inr rfl, rfl⟩

theorem isComment_stripCr {l : Str} (h : IsComment l) : IsComment (stripCr l) := by
  obtain ⟨blank, body, rfl, hblank, ⟨rest, rfl⟩ | ⟨rest, rfl⟩⟩ := h
  · obtain ⟨rest', hstrip⟩ := stripCr_append_cons (c := '/') (by decide) (blank ++ ['/']) rest
    exact ⟨blank, '/' :: '/' :: rest', by simpa using hstrip, hblank, .inl ⟨rest', rfl⟩⟩
  · obtain ⟨rest', hstrip⟩ := stripCr_append_cons (c := '#') (by decide) blank rest
    exact ⟨blank, '#' :: rest', hstrip, hblank, .inr ⟨rest', rfl⟩⟩

theorem strippedLine_nil : strippedLine [] = [] := rfl

/-- **Decorated lines** are read like the lines themselves. -/
theorem foldlM_line_of_decorates {ls ds : List Str} (hd : Decorates ls ds) {s s' : Lexer} (hs : s.Between)
    (h : ls.foldlM Lexer.line s = some s') :
    ((linesOfPieces ds).map strippedLine).foldlM Lexer.line s = some s' := by
  induction hd generalizing s with
  | nil => exact h
  | @line l d ls ds hline hrest ih =>
    rw [List.foldlM_cons] at h
    obtain ⟨mid, hl, hls⟩ := Option.bind_eq_some_iff.mp h
    have hread := line_of_lineDecorates hs hline hl
    rcases linesOfPieces_cons d ds with ⟨rfl, hnil, rfl⟩ | ⟨e, he, hcons⟩
    · -- an empty last piece reads nothing
      obtain rfl : s = mid := by simpa [strippedLine_nil, Lexer.line_nil hs] using hread.1
      rw [hnil]
      exact ih hs hls
    · have hmid : s.line (strippedLine e) = some mid := by
        rcases he with rfl | rfl
        · exact hread.1
        · exact hread.2
      rw [hcons, List.map_cons, List.foldlM_cons, hmid]
      exact ih (Lexer.between_of_line hl) hls
  | @insert l ls ds hcomment hn hrest ih =>
    rcases linesOfPieces_cons l ds with ⟨rfl, hnil, rfl⟩ | ⟨e, he, hcons⟩
    · rw [hnil]
      exact ih hs h
    · have hempty : strippedLine e = [] := by
        rcases he with rfl | rfl
        · exact strippedLine_of_comment hcomment
        · exact strippedLine_of_comment (isComment_stripCr hcomment)
      rw [hcons, List.map_cons, List.foldlM_cons, hempty, Lexer.line_nil hs]
      exact ih hs h

/-- The text without its comments. -/
def stripped (s : Str) : Str := (lines s).flatMap fun l => strippedLine l ++ ['\n']

/-- **Decorated documents** have the tokens of the plain one once they are stripped, whatever the comments say. -/
theorem lex_stripped {doc : Str} {tokens : List Token} (hdoc : lex doc = some tokens) {ds : List Str}
    (hd : Decorates (doc.splitOn '\n') ds) : lex (stripped (join ['\n'] ds)) = some tokens := by
  have hpieces : ∀ d ∈ ds, '\n' ∉ d := hd.newline_notMem fun l hl => not_mem_of_mem_splitOn hl
  have hne : ds ≠ [] := by
    rintro rfl
    have hnone : ∀ {ls}, Decorates ls [] → ls = [] := by
      rintro _ ⟨⟩
      rfl
    exact List.splitOn_ne_nil _ _ (hnone hd)
  have hlines : lines (join ['\n'] ds) = linesOfPieces ds := by
    rw [lines, join, List.splitOn_intercalate '\n' hpieces hne]
  have hdocLines : ['\n'].intercalate (doc.splitOn '\n') = doc := by simp
  rw [← hdocLines, lex_intercalate (List.splitOn_ne_nil _ _)] at hdoc
  obtain ⟨s', hfold, rfl⟩ := Option.map_eq_some_iff.mp hdoc
  have hstripped := foldlM_line_of_decorates hd (show Lexer.Between {} from rfl) hfold
  have hflat : stripped (join ['\n'] ds)
      = ((linesOfPieces ds).map strippedLine).flatMap (· ++ ['\n']) := by
    rw [stripped, hlines, List.flatMap_map]
  rw [hflat, lex_flatMap, hstripped]
  rfl

/-! ### Stripping twice -/

theorem codeOf_codeOf (q : Quote) (s : Str) : codeOf q (codeOf q s) = codeOf q s := by
  fun_induction codeOf q s with
  | case1 q => cases q <;> rfl
  | case2 s ih => simp [codeOf, ih]
  | case3 => rfl
  | case4 c s hquote hslash ih =>
    have hhead : ¬ (c = '/' ∧ (codeOf .outside s).head? = some '/') := by
      rintro ⟨rfl, hhead⟩
      obtain ⟨rest, hrest⟩ := codeOf_isPrefix .outside s
      refine hslash ⟨rfl, ?_⟩
      rw [← hrest, List.head?_append, hhead]
      rfl
    rw [codeOf, if_neg hquote, if_neg hhead, ih]
  | case5 s ih => simp [codeOf, ih]
  | case6 s hquote ih => simp [codeOf, ih]
  | case7 c s hquote hback ih => simp [codeOf, hquote, hback, ih]
  | case8 c s ih => simp [codeOf, ih]

theorem strippedLine_isPrefix (l : Str) : strippedLine l <+: l := by
  unfold strippedLine
  split
  · exact List.nil_prefix
  · exact codeOf_isPrefix _ _

theorem strippedLine_strippedLine (l : Str) : strippedLine (strippedLine l) = strippedLine l := by
  by_cases h : IsComment l
  · rw [strippedLine_of_comment h, strippedLine_nil]
  · have h' : ¬ IsComment (codeOf .outside l) := mt (IsComment.mono · (codeOf_isPrefix _ _)) h
    rw [strippedLine_of_not_comment h, strippedLine_of_not_comment h', codeOf_codeOf]

/-- A stripped line is stripped again to itself, unless it ends in a carriage return. -/
theorem strippedLine_stripCr_iff (l : Str) :
    strippedLine (stripCr (strippedLine l)) = strippedLine l ↔ (strippedLine l).getLast? ≠ some '\r' := by
  constructor
  · intro h hlast
    have hle := (strippedLine_isPrefix (stripCr (strippedLine l))).length_le
    obtain ⟨front, hfront⟩ := List.getLast?_eq_some_iff.mp hlast
    rw [h, stripCr, if_pos hlast, hfront, List.dropLast_concat, List.length_append] at hle
    exact absurd hle (by simp)
  · intro hlast
    rw [stripCr, if_neg hlast, strippedLine_strippedLine]

theorem newline_notMem_lines (s : Str) : ∀ l ∈ lines s, '\n' ∉ l := by
  have hpieces : ∀ ps : List Str, (∀ p ∈ ps, '\n' ∉ p) → ∀ l ∈ linesOfPieces ps, '\n' ∉ l := by
    intro ps
    induction ps with
    | nil => exact fun h => h
    | cons p ps ih =>
      intro h
      rw [List.forall_mem_cons] at h
      rcases linesOfPieces_cons p ps with ⟨-, hnil, -⟩ | ⟨e, he, hcons⟩
      · simp [hnil]
      · rw [hcons, List.forall_mem_cons]
        refine ⟨?_, ih h.2⟩
        rcases he with rfl | rfl
        · exact h.1
        · unfold stripCr
          split
          · exact fun hmem => h.1 (List.mem_of_mem_dropLast hmem)
          · exact h.1
  exact hpieces _ fun p hp => not_mem_of_mem_splitOn hp

/-- Lines that end in a line break each. -/
theorem splitOn_flatMap_concat {ls : List Str} (h : ∀ l ∈ ls, '\n' ∉ l) :
    (ls.flatMap (· ++ ['\n'])).splitOn '\n' = ls ++ [[]] := by
  induction ls with
  | nil => rfl
  | cons l ls ih =>
    rw [List.forall_mem_cons] at h
    rw [List.flatMap_cons, List.append_assoc, List.singleton_append,
      List.splitOn_append_cons_self_of_not_mem h.1, ih h.2, List.cons_append]

theorem linesOfPieces_concat_nil (ls : List Str) : linesOfPieces (ls ++ [[]]) = ls.map stripCr := by
  induction ls with
  | nil => rfl
  | cons l ls ih =>
    obtain ⟨d, ds, hds⟩ : ∃ d ds, ls ++ [[]] = d :: ds := List.exists_cons_of_ne_nil (by simp)
    rw [List.cons_append, hds, linesOfPieces, ← hds, ih, List.map_cons]
    simp

/-- **Stripping twice** gives the same text exactly when no stripped line ends in a carriage return. -/
theorem stripped_stripped_iff (s : Str) : stripped (stripped s) = stripped s ↔
    ∀ l ∈ (stripped s).splitOn '\n', l.getLast? ≠ some '\r' := by
  have hnew : ∀ ls : List Str, (∀ l ∈ ls, '\n' ∉ l) → ∀ l ∈ ls.map strippedLine, '\n' ∉ l := by
    intro ls hls l hl
    obtain ⟨l, hmem, rfl⟩ := List.mem_map.mp hl
    exact fun hn => hls l hmem ((strippedLine_isPrefix l).subset hn)
  have hflat : ∀ t, stripped t = ((lines t).map strippedLine).flatMap (· ++ ['\n']) := fun t => by
    rw [stripped, List.flatMap_map]
  have hsplit := splitOn_flatMap_concat (hnew _ (newline_notMem_lines s))
  rw [← hflat] at hsplit
  have hlines : lines (stripped s) = (lines s).map fun l => stripCr (strippedLine l) := by
    rw [lines, hsplit, linesOfPieces_concat_nil, List.map_map]
    rfl
  -- texts of terminated lines are equal if their lines are
  have hsplit' := splitOn_flatMap_concat (hnew _ (newline_notMem_lines (stripped s)))
  rw [← hflat] at hsplit'
  have heq : stripped (stripped s) = stripped s ↔
      (lines (stripped s)).map strippedLine = (lines s).map strippedLine := by
    constructor
    · intro h
      have hcongr := congrArg (List.splitOn '\n') h
      rw [hsplit', hsplit] at hcongr
      exact List.append_cancel_right hcongr
    · intro h
      rw [hflat (stripped s), h, ← hflat]
  rw [heq, hlines, hsplit, List.map_map, List.map_inj_left]
  simp only [Function.comp_apply, strippedLine_stripCr_iff, List.mem_append, List.mem_map,
    List.mem_singleton]
  constructor
  · rintro h l (⟨l, hl, rfl⟩ | rfl)
    · exact h l hl
    · simp
  · exact fun h l hl => h _ (.inl ⟨l, hl, rfl⟩)

/-! ### Comments -/

/-- Stripping the text leaves these tokens; so does stripping it twice, which gives the same text
    where no line is left with a carriage return at its end. -/
def StripsTo (text : Str) (tokens : List Token) : Prop :=
  ∃ out, stripComments text = some out ∧ lex out = some tokens ∧
    ∃ out', stripComments out = some out' ∧ lex out' = some tokens ∧
      (out' = out ↔ ∀ l ∈ out.splitOn '\n', l.getLast? ≠ some '\r')

theorem stripsTo_of_lex {text : Str} {tokens : List Token} (h : lex (stripped text) = some tokens) :
    StripsTo text tokens := by
  refine ⟨stripped text, stripComments_eq text, h, _, stripComments_eq _, ?_, stripped_stripped_iff text⟩
  have hagain := lex_stripped h (Decorates.refl _)
  rwa [join, List.intercalate_splitOn] at hagain

/-- **Comments.**  Stripping a JSON document that was decorated with comments leaves the tokens of the
    document, and so does stripping the document itself. -/
theorem stripsTo_of_decorates {doc : Str} {tokens : List Token} (hdoc : lex doc = some tokens)
    {ds : List Str} (hd : Decorates (doc.splitOn '\n') ds) :
    StripsTo (join ['\n'] ds) tokens ∧ StripsTo doc tokens := by
  refine ⟨stripsTo_of_lex (lex_stripped hdoc hd), stripsTo_of_lex ?_⟩
  have hself := lex_stripped hdoc (Decorates.refl _)
  rwa [join, List.intercalate_splitOn] at hself

/-- A URL in a string, a comment line, and a comment behind the string. -/
theorem stripsTo_of_decorates_url :
    StripsTo "# dns\n[\"https://a\\\"//\"] // \"b".toList
        [.punct '[', .string "https://a\\\"//".toList, .punct ']'] ∧
      StripsTo "[\"https://a\\\"//\"] ".toList
        [.punct '[', .string "https://a\\\"//".toList, .punct ']'] := by
  have hcomment : IsComment "# dns".toList := ⟨[], "# dns".toList, rfl, nofun, .inr ⟨" dns".toList, rfl⟩⟩
  have hline : LineDecorates "[\"https://a\\\"//\"] ".toList "[\"https://a\\\"//\"] // \"b".toList :=
    .comment "[\"https://a\\\"//\"] ".toList (show '\n' ∉ " \"b".toList by decide)
  have hd : Decorates ("[\"https://a\\\"//\"] ".toList.splitOn '\n')
      ["# dns".toList, "[\"https://a\\\"//\"] // \"b".toList] :=
    .insert hcomment (by decide) (.line hline .nil)
  exact stripsTo_of_decorates (by decide) hd

/-- The document `{}` with two carriage returns in front of the line feed: each time one is stripped. -/
theorem stripComments_not_idempotent :
    lex "\x7b\x7d\r\r\n".toList = some [.punct '{', .punct '}'] ∧
      ∃ out, stripComments "\x7b\x7d\r\r\n".toList = some out ∧ stripComments out ≠ some out := by
  refine ⟨by decide, _, stripComments_eq _, ?_⟩
  rw [stripComments_eq]
  decide

end Reflex.Config
