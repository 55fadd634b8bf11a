import Mathlib.Algebra.Ring.Nat
import Mathlib.Data.List.DropRight
import Mathlib.Data.List.Infix
import Mathlib.Tactic.Common

namespace RustStd

/-!
# Rust standard library — `str` and UTF-8

A Rust `str` is a sequence of Unicode scalar values, so it is modelled by the list of its
characters; a `[u8]` is the list of its bytes.  The operations below follow the documented
behaviour of the methods of the same name:

* `utf8` / `fromUtf8` / `fromUtf8Lossy` — the encoding of a `str`, and the strict and the
  lossy decoder (`fromUtf8_eq_some_iff`: the strict one accepts exactly the encodings);
* `trim`, `trimStartMatches`, `trimEndMatches`, `splitOnce`, `rsplitOnce`, `lines` — the
  scanners (splitting at every occurrence is `List.splitOn`);
* `toAsciiLowercase` — the ASCII case fold.
-/

/-- Rust's `str` / `String`. -/
abbrev Str := List Char

/-- Comparison of strings as the membership tests of the model use it. -/
instance instLawfulBEqStr : LawfulBEq Str := inferInstance

/-- Rust's `[u8]` / `Vec<u8>`. -/
abbrev Bytes := List UInt8

instance instLawfulBEqBytes : LawfulBEq Bytes := inferInstance

/-! ### UTF-8 -/

/-- `str::as_bytes`. -/
def utf8 (s : Str) : Bytes := s.flatMap String.utf8EncodeChar

@[simp] theorem utf8_nil : utf8 [] = [] := rfl

@[simp] theorem utf8_cons (c : Char) (s : Str) :
    utf8 (c :: s) = String.utf8EncodeChar c ++ utf8 s := rfl

@[simp] theorem utf8_append (s t : Str) : utf8 (s ++ t) = utf8 s ++ utf8 t :=
  List.flatMap_append

/-- `str::from_utf8`: the decoded text, or nothing when the bytes are not UTF-8. -/
def fromUtf8 (bs : Bytes) : Option Str :=
  (ByteArray.mk bs.toArray).utf8Decode?.map Array.toList

private theorem utf8Encode_eq (s : Str) : s.utf8Encode = ByteArray.mk (utf8 s).toArray := by
  unfold List.utf8Encode utf8
  apply ByteArray.ext
  simp

@[simp] theorem fromUtf8_utf8 (s : Str) : fromUtf8 (utf8 s) = some s := by
  rw [fromUtf8, ← utf8Encode_eq, List.utf8Decode?_utf8Encode]
  simp

/-- The strict decoder accepts exactly the encodings of texts. -/
theorem fromUtf8_eq_some_iff (bs : Bytes) (s : Str) : fromUtf8 bs = some s ↔ utf8 s = bs := by
  constructor
  · intro h
    rw [fromUtf8, Option.map_eq_some_iff] at h
    obtain ⟨cs, hcs, rfl⟩ := h
    have hsome : (ByteArray.mk bs.toArray).utf8Decode?.isSome := by rw [hcs]; rfl
    -- what decodes is the encoding of what it decodes to
    have henc := ByteArray.utf8Encode_get_utf8Decode? (b := ByteArray.mk bs.toArray) (h := hsome)
    have hget : (ByteArray.mk bs.toArray).utf8Decode?.get hsome = cs := by simp [hcs]
    rw [hget, utf8Encode_eq] at henc
    have harr : (utf8 cs.toList).toArray = bs.toArray := congrArg ByteArray.data henc
    simpa using harr
  · rintro rfl
    exact fromUtf8_utf8 s

theorem utf8_injective : Function.Injective utf8 := by
  intro s t h
  have := congrArg fromUtf8 h
  simpa using this

/-- An ASCII byte in an encoded text stands for the ASCII character. -/
theorem ascii_mem_utf8EncodeChar {c : Char} {b : UInt8} (hb : b.toNat < 128)
    (h : b ∈ String.utf8EncodeChar c) : c.toNat = b.toNat := by
  simp only [String.utf8EncodeChar] at h
  -- by the length of the encoding: in two bytes and more every byte is at least 128
  split_ifs at h <;> simp only [List.mem_cons, List.not_mem_nil, or_false] at h
  · subst h
    have hval : c.toNat = c.val.toNat := rfl
    rw [UInt8.toNat_ofNat', ← hval]
    omega
  · rcases h with rfl | rfl <;> simp at hb <;> omega
  · rcases h with rfl | rfl | rfl <;> simp at hb <;> omega
  · rcases h with rfl | rfl | rfl | rfl <;> simp at hb <;> omega

theorem ascii_mem_utf8 {s : Str} {b : UInt8} (hb : b.toNat < 128) (h : b ∈ utf8 s) :
    Char.ofNat b.toNat ∈ s := by
  obtain ⟨c, hc, hbc⟩ := List.mem_flatMap.mp h
  rw [← ascii_mem_utf8EncodeChar hb hbc, Char.ofNat_toNat]
  exact hc

/-- `utf8_char_width`: the number of bytes a character that starts with `b` takes, `0` when
    no character starts with `b`. -/
def utf8CharWidth (b : UInt8) : Nat :=
  if b < 0x80 then 1
  else if b < 0xC2 then 0
  else if b < 0xE0 then 2
  else if b < 0xF0 then 3
  else if b < 0xF5 then 4
  else 0

/-- May `next` follow the lead byte `b` of a three- or four-byte character?  Overlong forms,
    surrogates and values above `0x10FFFF` are cut off here. -/
def utf8SecondOk (b next : UInt8) : Bool :=
  if b = 0xE0 then 0xA0 ≤ next && next ≤ 0xBF
  else if b = 0xED then 0x80 ≤ next && next ≤ 0x9F
  else if b = 0xF0 then 0x90 ≤ next && next ≤ 0xBF
  else if b = 0xF4 then 0x80 ≤ next && next ≤ 0x8F
  else 0x80 ≤ next && next ≤ 0xBF

/-- The length of the maximal ill-formed piece at the head of `bs` that one replacement
    character stands for. -/
def utf8InvalidLen (bs : Bytes) : Nat :=
  match bs with
  | b :: next :: rest =>
      if 3 ≤ utf8CharWidth b && utf8SecondOk b next then
        match rest with
        | third :: _ => if utf8CharWidth b = 4 && 0x80 ≤ third && third ≤ 0xBF then 3 else 2
        | [] => 2
      else 1
  | _ => 1

/-- One pass of the lossy decoder; `fuel` bounds the number of pieces, and every piece takes
    at least one byte. -/
def fromUtf8LossyGo : Nat → Bytes → Str
  | 0, _ => []
  | _, [] => []
  | fuel + 1, b :: bs =>
      match fromUtf8 ((b :: bs).take (utf8CharWidth b)) with
      -- a width of 0 takes nothing, decodes to the empty text and so falls through
      | some [c] => c :: fromUtf8LossyGo fuel ((b :: bs).drop (utf8CharWidth b))
      | _ => Char.ofNat 0xFFFD :: fromUtf8LossyGo fuel ((b :: bs).drop (utf8InvalidLen (b :: bs)))

/-- `String::from_utf8_lossy`: valid input is borrowed unchanged, otherwise every maximal
    ill-formed piece becomes `U+FFFD`. -/
def fromUtf8Lossy (bs : Bytes) : Str :=
  match fromUtf8 bs with
  | some s => s
  | none => fromUtf8LossyGo bs.length bs

@[simp] theorem fromUtf8Lossy_utf8 (s : Str) : fromUtf8Lossy (utf8 s) = s := by
  rw [fromUtf8Lossy, fromUtf8_utf8]

example : fromUtf8Lossy [0x61, 0xE2, 0x82, 0x62, 0xFF] = ['a', '\uFFFD', 'b', '\uFFFD'] := by
  decide

theorem fromUtf8Lossy_ne_nil {bs : Bytes} (h : bs ≠ []) : fromUtf8Lossy bs ≠ [] := by
  unfold fromUtf8Lossy
  split
  · rename_i s hs
    rintro rfl
    exact h ((fromUtf8_eq_some_iff bs []).mp hs).symm
  · cases bs with
    | nil => exact absurd rfl h
    | cons b bs =>
      rw [List.length_cons, fromUtf8LossyGo]
      split <;> simp

/-! ### Lossy decoding, character by character -/

/-- The first byte of an encoded character says how many bytes it takes. -/
theorem utf8CharWidth_utf8EncodeChar (c : Char) :
    ∃ b rest, String.utf8EncodeChar c = b :: rest ∧ utf8CharWidth b = rest.length + 1 := by
  have hval : c.toNat < 1114112 := by
    have := c.valid
    have h2 : c.toNat = c.val.toNat := rfl
    unfold UInt32.isValidChar Nat.isValidChar at this
    omega
  have hchar : c.val.toNat = c.toNat := rfl
  simp only [String.utf8EncodeChar, hchar]
  split_ifs with h1 h2 h3
  all_goals
    refine ⟨_, _, rfl, ?_⟩
    simp only [utf8CharWidth, UInt8.lt_iff_toNat_lt, UInt8.toNat_ofNat', List.length_cons,
      List.length_nil, UInt8.reduceToNat]
    split_ifs <;> omega

/-- Characters are told apart by their encodings, whatever follows. -/
theorem utf8EncodeChar_append_inj {c d : Char} {s t : Bytes}
    (h : String.utf8EncodeChar c ++ s = String.utf8EncodeChar d ++ t) : c = d ∧ s = t := by
  obtain ⟨b, cs, hc, hwc⟩ := utf8CharWidth_utf8EncodeChar c
  obtain ⟨b', ds, hd, hwd⟩ := utf8CharWidth_utf8EncodeChar d
  have hhead : b = b' := by
    rw [hc, hd, List.cons_append, List.cons_append] at h
    exact (List.cons.inj h).1
  subst hhead
  have hlen : (String.utf8EncodeChar c).length = (String.utf8EncodeChar d).length := by
    rw [hc, hd, List.length_cons, List.length_cons, ← hwc, hwd]
  obtain ⟨henc, hst⟩ := List.append_inj h hlen
  have hutf8 : utf8 [c] = utf8 [d] := by
    rw [utf8_cons, utf8_cons, henc]
  exact ⟨List.cons.inj (utf8_injective hutf8) |>.1, hst⟩

theorem fromUtf8_append_char (c : Char) (bs : Bytes) :
    fromUtf8 (String.utf8EncodeChar c ++ bs) = (fromUtf8 bs).map (c :: ·) := by
  cases hbs : fromUtf8 bs with
  | some s =>
    rw [← (fromUtf8_eq_some_iff bs s).mp hbs]
    exact fromUtf8_utf8 (c :: s)
  | none =>
    rw [Option.map_none, Option.eq_none_iff_forall_ne_some]
    intro t ht
    have ht := (fromUtf8_eq_some_iff _ t).mp ht
    cases t with
    | nil => simp [String.utf8EncodeChar_ne_nil] at ht
    | cons d t =>
      rw [utf8_cons] at ht
      obtain ⟨-, hrest⟩ := utf8EncodeChar_append_inj ht
      rw [← hrest, fromUtf8_utf8] at hbs
      cases hbs

/-- The pieces have at least one byte. -/
theorem utf8InvalidLen_pos (bs : Bytes) : 0 < utf8InvalidLen bs := by
  unfold utf8InvalidLen
  split
  · split
    · split
      · split <;> omega
      · omega
    · omega
  · omega

theorem utf8InvalidLen_le (bs : Bytes) : utf8InvalidLen bs ≤ 3 := by
  unfold utf8InvalidLen
  split
  · split
    · split
      · split <;> omega
      · omega
    · omega
  · omega

theorem fromUtf8LossyGo_nil (fuel : Nat) : fromUtf8LossyGo fuel [] = [] := by
  cases fuel <;> rfl

/-- Fuel for every byte is enough, and more makes no difference. -/
theorem fromUtf8LossyGo_eq {fuel fuel' : Nat} {bs : Bytes} (h : bs.length ≤ fuel)
    (h' : bs.length ≤ fuel') : fromUtf8LossyGo fuel bs = fromUtf8LossyGo fuel' bs := by
  induction fuel generalizing fuel' bs with
  | zero =>
    obtain rfl : bs = [] := List.eq_nil_of_length_eq_zero (by omega)
    rw [fromUtf8LossyGo_nil, fromUtf8LossyGo_nil]
  | succ fuel ih =>
    cases bs with
    | nil => rw [fromUtf8LossyGo_nil, fromUtf8LossyGo_nil]
    | cons b bs =>
      rw [List.length_cons] at h h'
      obtain ⟨fuel', rfl⟩ : ∃ n, fuel' = n + 1 := ⟨fuel' - 1, by omega⟩
      have hdrop : ∀ n, 0 < n → fromUtf8LossyGo fuel ((b :: bs).drop n)
          = fromUtf8LossyGo fuel' ((b :: bs).drop n) := fun n hn =>
        ih (by rw [List.length_drop, List.length_cons]; omega)
          (by rw [List.length_drop, List.length_cons]; omega)
      rw [fromUtf8LossyGo, fromUtf8LossyGo, hdrop _ (utf8InvalidLen_pos _)]
      split
      · rename_i c hc
        have hwidth : 0 < utf8CharWidth b := by
          rw [Nat.pos_iff_ne_zero]
          intro hzero
          rw [hzero, List.take_zero, show ([] : Bytes) = utf8 [] from rfl, fromUtf8_utf8] at hc
          cases hc
        rw [hdrop _ hwidth]
      · rfl

/-- A character at the front is decoded on its own. -/
theorem fromUtf8Lossy_append_char (c : Char) (bs : Bytes) :
    fromUtf8Lossy (String.utf8EncodeChar c ++ bs) = c :: fromUtf8Lossy bs := by
  rw [fromUtf8Lossy, fromUtf8Lossy, fromUtf8_append_char]
  cases fromUtf8 bs with
  | some s => rfl
  | none =>
    obtain ⟨b, rest, henc, hwidth⟩ := utf8CharWidth_utf8EncodeChar c
    have hlen : utf8CharWidth b = (String.utf8EncodeChar c).length := by
      rw [henc, hwidth, List.length_cons]
    have hchar : fromUtf8 (String.utf8EncodeChar c) = some [c] := by
      have := fromUtf8_utf8 [c]
      rwa [utf8_cons, utf8_nil, List.append_nil] at this
    show fromUtf8LossyGo (String.utf8EncodeChar c ++ bs).length (String.utf8EncodeChar c ++ bs) = _
    rw [List.length_append, show (String.utf8EncodeChar c).length + bs.length
      = rest.length + bs.length + 1 by rw [henc, List.length_cons]; omega]
    rw [show String.utf8EncodeChar c ++ bs = b :: (rest ++ bs) by rw [henc, List.cons_append],
      fromUtf8LossyGo, ← List.cons_append, ← henc, hlen, List.take_left, hchar, List.drop_left]
    rw [fromUtf8LossyGo_eq (Nat.le_add_left _ _) (le_refl _)]

theorem length_fromUtf8LossyGo_le (fuel : Nat) (bs : Bytes) :
    (fromUtf8LossyGo fuel bs).length ≤ fuel := by
  induction fuel generalizing bs with
  | zero => exact le_refl _
  | succ fuel ih =>
    cases bs with
    | nil => exact Nat.zero_le _
    | cons b bs =>
      rw [fromUtf8LossyGo]
      split
      · exact Nat.succ_le_succ (ih _)
      · exact Nat.succ_le_succ (ih _)

/-- Every character has at least one byte. -/
theorem length_le_length_utf8 (s : Str) : s.length ≤ (utf8 s).length := by
  induction s with
  | nil => exact le_refl _
  | cons c s ih =>
    have hpos := List.length_pos_iff.mpr (String.utf8EncodeChar_ne_nil (c := c))
    rw [utf8_cons, List.length_append, List.length_cons]
    omega

theorem length_fromUtf8Lossy_le (bs : Bytes) : (fromUtf8Lossy bs).length ≤ bs.length := by
  unfold fromUtf8Lossy
  split
  · rename_i s hs
    rw [← (fromUtf8_eq_some_iff bs s).mp hs]
    exact length_le_length_utf8 s
  · exact length_fromUtf8LossyGo_le _ _

theorem mem_fromUtf8LossyGo {fuel : Nat} {bs : Bytes} {c : Char}
    (h : c ∈ fromUtf8LossyGo fuel bs) :
    c = Char.ofNat 0xFFFD ∨ ∀ b ∈ String.utf8EncodeChar c, b ∈ bs := by
  induction fuel generalizing bs with
  | zero => cases h
  | succ fuel ih =>
    cases bs with
    | nil => cases h
    | cons b bs =>
      rw [fromUtf8LossyGo] at h
      split at h
      · rename_i d hd
        rcases List.mem_cons.mp h with rfl | h
        · have hd := (fromUtf8_eq_some_iff _ _).mp hd
          rw [utf8_cons, utf8_nil, List.append_nil] at hd
          exact .inr fun x hx => List.mem_of_mem_take (hd ▸ hx)
        · exact (ih h).imp_right fun hall x hx => List.mem_of_mem_drop (hall x hx)
      · rcases List.mem_cons.mp h with rfl | h
        · exact .inl rfl
        · exact (ih h).imp_right fun hall x hx => List.mem_of_mem_drop (hall x hx)

/-- What lossy decoding yields stands in the bytes, apart from the replacement character. -/
theorem mem_fromUtf8Lossy {bs : Bytes} {c : Char} (h : c ∈ fromUtf8Lossy bs) :
    c = Char.ofNat 0xFFFD ∨ ∀ b ∈ String.utf8EncodeChar c, b ∈ bs := by
  unfold fromUtf8Lossy at h
  split at h
  · rename_i s hs
    rw [← (fromUtf8_eq_some_iff bs s).mp hs]
    exact .inr fun b hb => List.mem_flatMap.mpr ⟨c, h, hb⟩
  · exact mem_fromUtf8LossyGo h

theorem length_utf8_le (s : Str) : (utf8 s).length ≤ 4 * s.length := by
  induction s with
  | nil => exact le_refl _
  | cons c s ih =>
    have hsize := c.utf8Size_le_four
    rw [utf8_cons, List.length_append, String.length_utf8EncodeChar, List.length_cons]
    omega

/-- A text that loses more than a few bytes at its end is not decoded to itself. -/
theorem fromUtf8Lossy_take_ne {s : Str} {k : Nat} (h : k + 13 ≤ (utf8 s).length) :
    fromUtf8Lossy ((utf8 s).take k) ≠ s := by
  induction s generalizing k with
  | nil =>
    rw [utf8_nil, List.length_nil] at h
    omega
  | cons c s ih =>
    intro heq
    rw [utf8_cons, List.length_append] at h
    by_cases hk : (String.utf8EncodeChar c).length ≤ k
    · rw [utf8_cons, List.take_append, List.take_of_length_le hk, fromUtf8Lossy_append_char] at heq
      exact ih (by omega) (List.cons.inj heq).2
    · -- not even the first character is whole, and at most four bytes make up a character
      have hsize := c.utf8Size_le_four
      have hbytes := length_utf8_le s
      have hlen := length_fromUtf8Lossy_le ((utf8 (c :: s)).take k)
      rw [heq, List.length_take, List.length_cons] at hlen
      rw [String.length_utf8EncodeChar] at h hk
      omega

/-- A piece that is replaced has no ASCII byte behind the first. -/
theorem not_ascii_of_mem_utf8InvalidLen {b : UInt8} {bs : Bytes} {x : UInt8}
    (h : x ∈ bs.take (utf8InvalidLen (b :: bs) - 1)) : 128 ≤ x.toNat := by
  have hsecond : ∀ y, utf8SecondOk b y = true → 128 ≤ y.toNat := by
    intro y hy
    unfold utf8SecondOk at hy
    split_ifs at hy <;>
      simp only [Bool.and_eq_true, decide_eq_true_eq, UInt8.le_iff_toNat_le, UInt8.reduceToNat] at hy <;>
      omega
  unfold utf8InvalidLen at h
  split at h
  · rename_i b' next rest heq
    obtain ⟨rfl, rfl⟩ := List.cons.inj heq
    split at h
    · rename_i hok
      have hnext := hsecond next (Bool.and_eq_true_iff.mp hok).2
      split at h
      · split at h
        · rename_i hthird
          simp only [Bool.and_eq_true, decide_eq_true_eq, UInt8.le_iff_toNat_le,
            UInt8.reduceToNat] at hthird
          rcases List.mem_cons.mp h with rfl | h
          · exact hnext
          · obtain rfl := List.mem_singleton.mp h
            omega
        · obtain rfl := List.mem_singleton.mp h
          exact hnext
      · obtain rfl := List.mem_singleton.mp h
        exact hnext
    · cases h
  · cases h

theorem fromUtf8_ascii {b : UInt8} (hb : b.toNat < 128) : fromUtf8 [b] = some [Char.ofNat b.toNat] := by
  have hval : (Char.ofNat b.toNat).toNat = b.toNat := by
    rw [Char.ofNat, dif_pos (.inl (by omega))]
    rfl
  have hchar : (Char.ofNat b.toNat).val.toNat = (Char.ofNat b.toNat).toNat := rfl
  rw [fromUtf8_eq_some_iff, utf8_cons, utf8_nil, List.append_nil, String.utf8EncodeChar]
  rw [hchar, hval, if_pos (by omega), UInt8.ofNat_toNat]

/-- Nothing that is replaced gets shorter. -/
theorem length_le_length_utf8_fromUtf8LossyGo {fuel : Nat} {bs : Bytes} (h : bs.length ≤ fuel) :
    bs.length ≤ (utf8 (fromUtf8LossyGo fuel bs)).length := by
  induction fuel generalizing bs with
  | zero => omega
  | succ fuel ih =>
    cases bs with
    | nil => exact Nat.zero_le _
    | cons b bs =>
      rw [List.length_cons] at h
      have hdrop : ∀ n, 0 < n → (b :: bs).length - n
          ≤ (utf8 (fromUtf8LossyGo fuel ((b :: bs).drop n))).length := fun n hn => by
        have hlen : ((b :: bs).drop n).length = (b :: bs).length - n := List.length_drop
        rw [← hlen]
        exact ih (by rw [hlen, List.length_cons]; omega)
      rw [fromUtf8LossyGo]
      split
      · rename_i c hc
        have henc := (fromUtf8_eq_some_iff _ _).mp hc
        have hlen := congrArg List.length henc
        rw [utf8_cons, utf8_nil, List.append_nil, List.length_take, String.length_utf8EncodeChar] at hlen
        have hpos := c.utf8Size_pos
        have hrest := hdrop (utf8CharWidth b) (by omega)
        rw [utf8_cons, List.length_append, String.length_utf8EncodeChar]
        omega
      · have hle := utf8InvalidLen_le (b :: bs)
        have hrest := hdrop _ (utf8InvalidLen_pos (b :: bs))
        have hsize : (String.utf8EncodeChar (Char.ofNat 0xFFFD)).length = 3 := rfl
        rw [utf8_cons, List.length_append, hsize]
        omega

theorem length_le_length_utf8_fromUtf8Lossy (bs : Bytes) :
    bs.length ≤ (utf8 (fromUtf8Lossy bs)).length := by
  unfold fromUtf8Lossy
  split
  · rename_i s hs
    rw [(fromUtf8_eq_some_iff bs s).mp hs]
  · exact length_le_length_utf8_fromUtf8LossyGo le_rfl

theorem ofNat_mem_fromUtf8LossyGo {fuel : Nat} {bs : Bytes} (hfuel : bs.length ≤ fuel) {x : UInt8}
    (hx : x.toNat < 128) (h : x ∈ bs) : Char.ofNat x.toNat ∈ fromUtf8LossyGo fuel bs := by
  induction fuel generalizing bs with
  | zero =>
    obtain rfl : bs = [] := List.eq_nil_of_length_eq_zero (by omega)
    cases h
  | succ fuel ih =>
    cases bs with
    | nil => cases h
    | cons b bs =>
      rw [List.length_cons] at hfuel
      have hdrop : ∀ n, 0 < n → x ∈ (b :: bs).drop n →
          Char.ofNat x.toNat ∈ fromUtf8LossyGo fuel ((b :: bs).drop n) := fun n hn =>
        ih (by rw [List.length_drop, List.length_cons]; omega)
      rw [fromUtf8LossyGo]
      split
      · -- a character is decoded: the byte is in it, and then it is that character, or behind it
        rename_i c hc
        have henc := (fromUtf8_eq_some_iff _ _).mp hc
        rw [utf8_cons, utf8_nil, List.append_nil] at henc
        have hpos : 0 < utf8CharWidth b := by
          by_contra hzero
          rw [Nat.eq_zero_of_not_pos hzero, List.take_zero] at henc
          exact String.utf8EncodeChar_ne_nil henc
        rw [← List.take_append_drop (utf8CharWidth b) (b :: bs)] at h
        rcases List.mem_append.mp h with h | h
        · rw [← henc] at h
          rw [← ascii_mem_utf8EncodeChar hx h, Char.ofNat_toNat]
          exact List.mem_cons_self
        · exact List.mem_cons_of_mem _ (hdrop _ hpos h)
      · -- an invalid sequence is replaced: it has no ASCII byte in it, as the first byte would be a character
        rename_i hbad
        have hfirst : x ≠ b := by
          rintro rfl
          have hwidth : utf8CharWidth x = 1 := if_pos (by rw [UInt8.lt_iff_toNat_lt]; exact hx)
          refine hbad (Char.ofNat x.toNat) ?_
          rw [hwidth, List.take_succ_cons, List.take_zero, fromUtf8_ascii hx]
        have hpos := utf8InvalidLen_pos (b :: bs)
        rw [← List.take_append_drop (utf8InvalidLen (b :: bs)) (b :: bs)] at h
        rcases List.mem_append.mp h with h | h
        · obtain ⟨n, hn⟩ := Nat.exists_eq_add_of_lt hpos
          rw [hn, Nat.zero_add, List.take_succ_cons] at h
          rcases List.mem_cons.mp h with rfl | h
          · exact absurd rfl hfirst
          · have hmem : x ∈ bs.take (utf8InvalidLen (b :: bs) - 1) := by
              rw [hn, Nat.zero_add, Nat.add_sub_cancel]
              exact h
            have hhigh := not_ascii_of_mem_utf8InvalidLen hmem
            omega
        · exact List.mem_cons_of_mem _ (hdrop _ hpos h)

/-- ASCII bytes are decoded, whatever stands around them. -/
theorem ofNat_mem_fromUtf8Lossy {bs : Bytes} {x : UInt8} (hx : x.toNat < 128) (h : x ∈ bs) :
    Char.ofNat x.toNat ∈ fromUtf8Lossy bs := by
  unfold fromUtf8Lossy
  split
  · rename_i s hs
    rw [← (fromUtf8_eq_some_iff bs s).mp hs] at h
    exact ascii_mem_utf8 hx h
  · exact ofNat_mem_fromUtf8LossyGo le_rfl hx h

/-! ### Trimming and splitting -/

/-- `char::is_whitespace`: the Unicode `White_Space` property. -/
def isWhitespace (c : Char) : Bool :=
  let n := c.toNat
  (9 ≤ n && n ≤ 13) || n == 0x20 || n == 0x85 || n == 0xA0 || n == 0x1680
    || (0x2000 ≤ n && n ≤ 0x200A) || n == 0x2028 || n == 0x2029 || n == 0x202F
    || n == 0x205F || n == 0x3000

/-- `str::trim`. -/
def trim (s : Str) : Str := (s.dropWhile isWhitespace).rdropWhile isWhitespace

/-- White space at the end does not matter to `trim`. -/
theorem trim_concat (s : Str) {c : Char} (h : isWhitespace c = true) : trim (s ++ [c]) = trim s := by
  rw [trim, trim, List.dropWhile_append]
  split
  · rename_i hnil
    -- everything before `c` is white space already
    rw [List.isEmpty_iff.mp hnil, List.dropWhile_cons_of_pos h]
    rfl
  · rw [List.rdropWhile_concat_pos _ _ _ h]

/-- White space at the start does not matter to `trim`. -/
theorem trim_cons (s : Str) {c : Char} (h : isWhitespace c = true) : trim (c :: s) = trim s := by
  rw [trim, List.dropWhile_cons_of_pos h, trim]

theorem trim_rdropWhile (s : Str) : trim (s.rdropWhile isWhitespace) = trim s := by
  -- from the end, as `rdropWhile` works
  induction s using List.reverseRecOn with
  | nil => rfl
  | append_singleton s c ih =>
    rcases hc : isWhitespace c with _ | _
    · rw [List.rdropWhile_concat_neg _ _ _ (by simp [hc])]
    · rw [List.rdropWhile_concat_pos _ _ _ hc, ih, trim_concat s hc]

/-- A text without white space is its own `trim`. -/
theorem trim_eq_self {s : Str} (h : ∀ c ∈ s, isWhitespace c = false) : trim s = s := by
  have hdrop : s.dropWhile isWhitespace = s := by
    cases s with
    | nil => rfl
    | cons c s => rw [List.dropWhile_cons_of_neg (by simp [h c (by simp)])]
  rw [trim, hdrop, List.rdropWhile_eq_self_iff]
  intro hne
  simp [h _ (List.getLast_mem hne)]

/-- `trim` takes nothing but white space away. -/
theorem mem_trim_iff {s : Str} {c : Char} (h : isWhitespace c = false) : c ∈ trim s ↔ c ∈ s := by
  -- what `dropWhile` takes away satisfies the predicate
  have hdrop : ∀ l : Str, c ∈ l.dropWhile isWhitespace ↔ c ∈ l := by
    intro l
    induction l with
    | nil => rfl
    | cons d l ih =>
      rcases hd : isWhitespace d with _ | _
      · rw [List.dropWhile_cons_of_neg (by simp [hd])]
      · have hne : c ≠ d := by
          rintro rfl
          simp [h] at hd
        rw [List.dropWhile_cons_of_pos hd, ih, List.mem_cons, or_iff_right hne]
  rw [trim, List.rdropWhile, List.mem_reverse, hdrop, List.mem_reverse, hdrop]

/-- `str::trim_start_matches` for one character. -/
def trimStartMatches (c : Char) (s : Str) : Str := s.dropWhile (· == c)

/-- `str::trim_end_matches` for one character. -/
def trimEndMatches (c : Char) (s : Str) : Str := s.rdropWhile (· == c)

/-- `str::split_once` for one character: the parts around its first occurrence. -/
def splitOnce (c : Char) : Str → Option (Str × Str)
  | [] => none
  | x :: xs => if x = c then some ([], xs) else (splitOnce c xs).map fun p => (x :: p.1, p.2)

theorem splitOnce_append {c : Char} {s : Str} (h : c ∉ s) (t : Str) :
    splitOnce c (s ++ c :: t) = some (s, t) := by
  induction s with
  | nil => simp [splitOnce]
  | cons x s ih =>
    obtain ⟨hx, hs⟩ : ¬ c = x ∧ c ∉ s := by simpa using h
    rw [List.cons_append, splitOnce, if_neg (Ne.symm hx), ih hs]
    rfl

theorem splitOnce_of_notMem {c : Char} {s : Str} (h : c ∉ s) : splitOnce c s = none := by
  induction s with
  | nil => rfl
  | cons x s ih =>
    obtain ⟨hx, hs⟩ : ¬ c = x ∧ c ∉ s := by simpa using h
    rw [splitOnce, if_neg (Ne.symm hx), ih hs]
    rfl

/-- `str::rsplit_once` for one character: the parts around its last occurrence. -/
def rsplitOnce (c : Char) (s : Str) : Option (Str × Str) :=
  (splitOnce c s.reverse).map fun p => (p.2.reverse, p.1.reverse)

theorem rsplitOnce_append {c : Char} {t : Str} (h : c ∉ t) (s : Str) :
    rsplitOnce c (s ++ c :: t) = some (s, t) := by
  have hrev : (s ++ c :: t).reverse = t.reverse ++ c :: s.reverse := by simp
  rw [rsplitOnce, hrev, splitOnce_append (by simpa using h)]
  simp

/-- The pieces between separators do not contain the separator. -/
theorem not_mem_of_mem_splitOn {α : Type*} [DecidableEq α] {a : α} {l xs : List α}
    (h : l ∈ xs.splitOn a) : a ∉ l := by
  induction xs generalizing l with
  | nil => simp_all
  | cons x xs ih =>
    rw [List.splitOn_cons_eq_if_modifyHead] at h
    split at h
    · rcases List.mem_cons.mp h with rfl | h
      · simp
      · exact ih h
    · rename_i hx
      rcases hsplit : xs.splitOn a with _ | ⟨m, ms⟩
      · exact absurd hsplit (List.splitOn_ne_nil _ _)
      · rw [hsplit, List.modifyHead_cons, List.mem_cons] at h
        rcases h with rfl | h
        · rw [List.mem_cons, not_or]
          exact ⟨fun h => hx (by simp [h]), ih (by simp [hsplit])⟩
        · exact ih (by simp [hsplit, h])

/-- `str::split_whitespace`. -/
def splitWhitespace (s : Str) : List Str := (s.splitOnP isWhitespace).filter (· ≠ [])

/-- A word, and what comes behind the white space. -/
theorem splitWhitespace_append_cons {w : Str} (hw : ∀ c ∈ w, isWhitespace c = false) (hne : w ≠ [])
    {c : Char} (hc : isWhitespace c = true) (s : Str) :
    splitWhitespace (w ++ c :: s) = w :: splitWhitespace s := by
  rw [splitWhitespace, List.splitOnP_append_cons_of_forall_mem hw c hc]
  exact List.filter_cons_of_pos (by simpa using hne)

/-- A word without white space in it is its own list of words. -/
theorem splitWhitespace_eq_singleton {w : Str} (hw : ∀ c ∈ w, isWhitespace c = false)
    (hne : w ≠ []) : splitWhitespace w = [w] := by
  rw [splitWhitespace, List.splitOnP_eq_singleton hw]
  exact List.filter_cons_of_pos (by simpa using hne)

/-- Drop the carriage return in front of a line feed. -/
def stripCr (l : Str) : Str := if l.getLast? = some '\r' then l.dropLast else l

/-- The lines among the pieces between line feeds: the last piece was not terminated, so it
    keeps its carriage return and is no line at all when empty. -/
def linesOfPieces : List Str → List Str
  | [] => []
  | [last] => if last = [] then [] else [last]
  | piece :: pieces => stripCr piece :: linesOfPieces pieces

/-- `str::lines`. -/
def lines (s : Str) : List Str := linesOfPieces (s.splitOn '\n')

/-- What stands in front of the first separator is the start of the first piece. -/
theorem splitOn_append_of_notMem {c : Char} {s : Str} (h : c ∉ s) (t : Str) :
    (s ++ t).splitOn c = (t.splitOn c).modifyHead (s ++ ·) := by
  induction s with
  | nil =>
      rcases hsplit : t.splitOn c with _ | ⟨m, ms⟩
      · exact absurd hsplit (List.splitOn_ne_nil _ _)
      · rw [List.nil_append, hsplit]
        rfl
  | cons x s ih =>
      obtain ⟨hx, hs⟩ : ¬ c = x ∧ c ∉ s := by simpa using h
      rw [List.cons_append, List.splitOn_cons_eq_if_modifyHead, if_neg (by simpa using Ne.symm hx),
        ih hs]
      rcases t.splitOn c with _ | ⟨m, ms⟩
      · rfl
      · rfl

theorem stripCr_append_cons {c : Char} (hc : c ≠ '\r') (s t : Str) :
    ∃ t', stripCr (s ++ c :: t) = s ++ c :: t' := by
  unfold stripCr
  split
  · rcases List.eq_nil_or_concat t with rfl | ⟨t', x, rfl⟩
    · rename_i hlast
      simp only [List.getLast?_append, List.getLast?_singleton, Option.some_or,
        Option.some.injEq] at hlast
      exact absurd hlast hc
    · exact ⟨t', by rw [List.concat_eq_append, ← List.cons_append, ← List.append_assoc,
        List.dropLast_concat]⟩
  · exact ⟨t, rfl⟩

/-- The first line of a text starts with what stands in front of its line feeds. -/
theorem headD_lines_append {s : Str} (h : '\n' ∉ s) (t : Str) :
    ∃ t', (lines (s ++ ' ' :: t)).headD [] = s ++ ' ' :: t' := by
  have hs : '\n' ∉ s ++ [' '] := by simpa using h
  have hsplit := splitOn_append_of_notMem hs t
  rw [List.append_assoc, List.singleton_append] at hsplit
  rw [lines, hsplit]
  rcases hpieces : t.splitOn '\n' with _ | ⟨m, _ | ⟨m', ms⟩⟩
  · exact absurd hpieces (List.splitOn_ne_nil _ _)
  · refine ⟨m, ?_⟩
    simp [linesOfPieces]
  · obtain ⟨t', ht'⟩ := stripCr_append_cons (c := ' ') (by decide) s m
    refine ⟨t', ?_⟩
    rw [← ht']
    simp [linesOfPieces]

/-- `str::to_ascii_lowercase`. -/
def toAsciiLowercase (s : Str) : Str := s.map Char.toLower

theorem toLower_of_not_isUpper {c : Char} (h : c.isUpper = false) : c.toLower = c := by
  have hrange : ¬ (c.val ≥ 'A'.val ∧ c.val ≤ 'Z'.val) := of_decide_eq_false h
  exact dif_neg hrange

theorem toAsciiLowercase_eq_self {s : Str} (h : s.any Char.isUpper = false) :
    toAsciiLowercase s = s := by
  have hid : ∀ c ∈ s, c.toLower = id c := fun c hc =>
    toLower_of_not_isUpper (by simpa using List.any_eq_false.mp h c hc)
  rw [toAsciiLowercase, List.map_congr_left hid, List.map_id]

theorem isUpper_toLower (c : Char) : c.toLower.isUpper = false := by
  by_cases h : c.isUpper = true
  · have hrange : c.val ≥ 'A'.val ∧ c.val ≤ 'Z'.val := of_decide_eq_true h
    refine decide_eq_false ?_
    delta Char.toLower
    rw [dif_pos hrange]
    have h1 := hrange.1
    have h2 := hrange.2
    simp only [ge_iff_le, UInt32.le_iff_toNat_le] at h1 h2 ⊢
    have h3 : 'A'.val.toNat = 65 := rfl
    have h4 : 'Z'.val.toNat = 90 := rfl
    have h5 : ('a'.val - 'A'.val).toNat = 32 := rfl
    rw [UInt32.toNat_add, h5]
    omega
  · rw [toLower_of_not_isUpper (by simpa using h)]
    simpa using h

@[simp] theorem toAsciiLowercase_toAsciiLowercase (s : Str) :
    toAsciiLowercase (toAsciiLowercase s) = toAsciiLowercase s := by
  refine toAsciiLowercase_eq_self (List.any_eq_false.mpr fun c hc => ?_)
  obtain ⟨c', -, rfl⟩ := List.mem_map.mp hc
  rw [isUpper_toLower]
  decide

theorem utf8Size_toLower (c : Char) : c.toLower.utf8Size = c.utf8Size := by
  by_cases h : c.isUpper = true
  · have hrange : c.val ≥ 'A'.val ∧ c.val ≤ 'Z'.val := of_decide_eq_true h
    have h1 : c.toLower.utf8Size = 1 := by
      -- `Char.toLower` adds 32 to the code of an upper-case letter, which stays below 128
      delta Char.toLower
      rw [Char.utf8Size_eq_one_iff, dif_pos hrange]
      have h2 := hrange.1
      have h3 := hrange.2
      simp only [ge_iff_le, UInt32.le_iff_toNat_le] at h2 h3 ⊢
      have h4 : 'A'.val.toNat = 65 := rfl
      have h5 : 'Z'.val.toNat = 90 := rfl
      have h6 : ('a'.val - 'A'.val).toNat = 32 := rfl
      rw [UInt32.toNat_add, h6]
      have h7 : (127 : UInt32).toNat = 127 := rfl
      omega
    have h2 : c.utf8Size = 1 := by
      rw [Char.utf8Size_eq_one_iff]
      exact UInt32.le_trans hrange.2 (by decide)
    rw [h1, h2]
  · rw [toLower_of_not_isUpper (by simpa using h)]

@[simp] theorem length_utf8_toAsciiLowercase (s : Str) :
    (utf8 (toAsciiLowercase s)).length = (utf8 s).length := by
  induction s with
  | nil => rfl
  | cons c s ih =>
    have hcons : toAsciiLowercase (c :: s) = c.toLower :: toAsciiLowercase s := rfl
    rw [hcons, utf8_cons, utf8_cons, List.length_append, List.length_append, ih,
      String.length_utf8EncodeChar, String.length_utf8EncodeChar, utf8Size_toLower]

/-- `[str]::join`. -/
def join (sep : Str) (parts : List Str) : Str := sep.intercalate parts

theorem join_append_singleton (sep : Str) {parts : List Str} (h : parts ≠ []) (part : Str) :
    join sep (parts ++ [part]) = join sep parts ++ sep ++ part := by
  induction parts with
  | nil => exact absurd rfl h
  | cons p parts ih =>
    by_cases hparts : parts = []
    · subst hparts
      simp [join]
    · have := ih hparts
      simp only [join] at this ⊢
      rw [List.cons_append, List.intercalate_cons_of_ne_nil (by simp), this,
        List.intercalate_cons_of_ne_nil hparts]
      simp

/-- Cutting a joined text at the separator cuts its parts. -/
theorem splitOn_join (c : Char) {parts : List Str} (h : parts ≠ []) :
    (join [c] parts).splitOn c = parts.flatMap (List.splitOn c) := by
  induction parts with
  | nil => exact absurd rfl h
  | cons part parts ih =>
    by_cases hparts : parts = []
    · subst hparts
      simp [join]
    · have hcons : join [c] (part :: parts) = part ++ c :: join [c] parts := by
        rw [join, List.intercalate_cons_of_ne_nil hparts, List.append_assoc]
        rfl
      rw [hcons, List.splitOn_append_cons_self, ih hparts, List.flatMap_cons]

/-- Only the cuts decide a joined text. -/
theorem join_flatMap_splitOn (c : Char) (parts : List Str) :
    join [c] (parts.flatMap (List.splitOn c)) = join [c] parts := by
  by_cases h : parts = []
  · subst h
    rfl
  · rw [← splitOn_join c h]
    exact List.intercalate_splitOn c

theorem join_ne_nil (sep : Str) {parts : List Str} (h : parts ≠ []) (hparts : [] ∉ parts) :
    join sep parts ≠ [] := by
  cases parts with
  | nil => exact absurd rfl h
  | cons part parts =>
    have hpart : part ≠ [] := fun hnil => hparts (by simp [hnil])
    cases parts with
    | nil => simpa [join] using hpart
    | cons next parts => simp [join, hpart]

/-- Texts joined of nonempty parts are equal when the parts, cut at the separator, are. -/
theorem join_eq_join_iff (c : Char) {xs ys : List Str} (hxs : [] ∉ xs) (hys : [] ∉ ys) :
    join [c] xs = join [c] ys ↔ xs.flatMap (List.splitOn c) = ys.flatMap (List.splitOn c) := by
  constructor
  · intro h
    by_cases hx : xs = []
    · by_cases hy : ys = []
      · rw [hx, hy]
      · exact absurd (h.symm.trans (by rw [hx]; rfl)) (join_ne_nil [c] hy hys)
    · by_cases hy : ys = []
      · exact absurd (h.trans (by rw [hy]; rfl)) (join_ne_nil [c] hx hxs)
      · rw [← splitOn_join c hx, ← splitOn_join c hy, h]
  · intro h
    rw [← join_flatMap_splitOn c xs, ← join_flatMap_splitOn c ys, h]

theorem toAsciiLowercase_join (sep : Str) (parts : List Str) :
    toAsciiLowercase (join sep parts)
      = join (toAsciiLowercase sep) (parts.map toAsciiLowercase) := by
  induction parts with
  | nil => rfl
  | cons part parts ih =>
    cases parts with
    | nil => simp [join, toAsciiLowercase]
    | cons next parts =>
      simp only [join, toAsciiLowercase, List.map_cons, List.intercalate_cons_cons,
        List.map_append] at ih ⊢
      rw [ih]

end RustStd
