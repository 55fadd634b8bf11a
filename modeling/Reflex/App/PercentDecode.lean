import Reflex.Lib.Machine
import Reflex.RustStd.NetDisplay
import Reflex.RustStd.Slice

namespace Reflex.App

open RustStd Machine

/-!
# The Clash API — percent-encoded names

`percent_decode` of `app/clash_api.rs` goes through the bytes of a text, and takes a text of two bytes behind
a `%` by their positions: where these are not the ends of characters, that is a fault.

* `defined_percentDecode_iff` — exactly the texts without such a `%` are decoded;
* `percentDecode_of_encodes` — every percent-encoding of a text is decoded to the text.
-/

/-! ### The code -/

/-- `str::is_char_boundary`: not in front of a continuation byte. -/
def isCharBoundary (s : Str) (i : Nat) : Bool :=
  let bytes := utf8 s
  i = 0 || i = bytes.length || bytes[i]?.any fun b => b < 0x80 || 0xC0 ≤ b

/-- `&s[lo..hi]`. -/
def strRange (s : Str) (lo hi : Nat) : Checked Str :=
  if lo ≤ hi ∧ isCharBoundary s lo ∧ isCharBoundary s hi then
    .ok ((fromUtf8 (slice (utf8 s) lo (hi - lo))).getD [])
  else .error .bounds

/-- One digit of `u8::from_str_radix`. -/
def pushRadixDigit (radix acc : Nat) (c : Char) : Option Nat :=
  match toDigit radix c with
  | some d => if acc * radix + d ≤ 255 then some (acc * radix + d) else none
  | none => none

/-- `u8::from_str_radix`. -/
def fromStrRadix (s : Str) (radix : Nat) : Option UInt8 :=
  let digits := match s with
    | '+' :: rest => rest
    | _ => s
  if digits = [] then none else (digits.foldlM (pushRadixDigit radix) 0).map UInt8.ofNat

/-- The loop of `percent_decode`. -/
def percentDecodeGo (s : Str) (i : Nat) (out : Bytes) : Checked Bytes :=
  if i < (utf8 s).length then do
    let b ← index (utf8 s) i
    if b = 0x25 ∧ i + 2 < (utf8 s).length then
      let text ← strRange s (i + 1) (i + 3)
      match fromStrRadix text 16 with
      | some hex => percentDecodeGo s (i + 3) (out ++ [hex])
      | none => percentDecodeGo s (i + 1) (out ++ [b])
    else percentDecodeGo s (i + 1) (out ++ [b])
  else return out
termination_by (utf8 s).length - i

/-- `percent_decode`. -/
def percentDecode (s : Str) : Checked Str := do
  let out ← percentDecodeGo s 0 []
  return fromUtf8Lossy out

/-! ### The ends of characters -/

/-- A first byte of a character is no continuation byte, the others are. -/
theorem utf8EncodeChar_bytes (c : Char) :
    ∃ b rest, String.utf8EncodeChar c = b :: rest ∧ (b < 0x80 ∨ 0xC0 ≤ b) ∧
      ∀ b' ∈ rest, 0x80 ≤ b' ∧ b' < 0xC0 := by
  have hval : c.toNat < 1114112 := by
    have hvalid := c.valid
    have hval : c.toNat = c.val.toNat := rfl
    unfold UInt32.isValidChar Nat.isValidChar at hvalid
    omega
  have hchar : c.val.toNat = c.toNat := rfl
  simp only [String.utf8EncodeChar, hchar]
  split_ifs with h1 h2 h3
  all_goals
    refine ⟨_, _, rfl, ?_, ?_⟩
    · simp only [UInt8.lt_iff_toNat_lt, UInt8.le_iff_toNat_le, UInt8.toNat_ofNat', UInt8.reduceToNat]
      omega
    · simp only [List.forall_mem_cons, List.not_mem_nil, false_imp_iff, forall_const, and_true,
        UInt8.lt_iff_toNat_lt, UInt8.le_iff_toNat_le, UInt8.toNat_ofNat', UInt8.reduceToNat]
      try omega

/-- Between two parts of a text there is an end of a character. -/
theorem isCharBoundary_append (a b : Str) : isCharBoundary (a ++ b) (utf8 a).length = true := by
  unfold isCharBoundary
  dsimp only
  rw [utf8_append]
  cases b with
  | nil => simp
  | cons c b =>
    obtain ⟨first, rest, hc, hfirst, -⟩ := utf8EncodeChar_bytes c
    rw [utf8_cons, hc, List.cons_append, List.getElem?_append_right (Nat.le_refl _), Nat.sub_self]
    simp only [List.getElem?_cons_zero, Option.any_some, Bool.or_eq_true, decide_eq_true_eq]
    exact Or.inr hfirst

theorem isCharBoundary_iff {s : Str} {i : Nat} :
    isCharBoundary s i = true ↔
      i = 0 ∨ i = (utf8 s).length ∨ ∃ b, (utf8 s)[i]? = some b ∧ (b < 0x80 ∨ 0xC0 ≤ b) := by
  simp only [isCharBoundary, Bool.or_eq_true, decide_eq_true_eq, Option.any_eq_true, or_assoc]

/-- Ends of characters are between two parts of the text. -/
theorem exists_append_of_isCharBoundary {s : Str} {i : Nat} (hi : i ≤ (utf8 s).length)
    (h : isCharBoundary s i = true) : ∃ a b, s = a ++ b ∧ (utf8 a).length = i := by
  induction s generalizing i with
  | nil => exact ⟨[], [], rfl, (Nat.le_zero.mp hi).symm⟩
  | cons c s ih =>
    obtain ⟨first, rest, hc, -, hrest⟩ := utf8EncodeChar_bytes c
    rw [isCharBoundary_iff, utf8_cons] at h
    rw [utf8_cons] at hi
    rw [List.length_append] at hi h
    by_cases hzero : i = 0
    · exact ⟨[], c :: s, rfl, hzero.symm⟩
    by_cases hlt : i < (String.utf8EncodeChar c).length
    · -- inside of the first character there are continuation bytes
      rcases h with h | h | ⟨b, hb, hrange⟩
      · exact absurd h hzero
      · omega
      · rw [List.getElem?_append_left hlt, hc] at hb
        obtain ⟨i, rfl⟩ : ∃ k, i = k + 1 := ⟨i - 1, by omega⟩
        rw [List.getElem?_cons_succ] at hb
        obtain ⟨hlow, hhigh⟩ := hrest b (List.mem_of_getElem? hb)
        rcases hrange with hrange | hrange
        · exact absurd hrange (UInt8.not_lt.mpr hlow)
        · exact absurd hhigh (UInt8.not_lt.mpr hrange)
    · have hle := Nat.not_lt.mp hlt
      have hbehind : isCharBoundary s (i - (String.utf8EncodeChar c).length) = true := by
        rw [isCharBoundary_iff]
        rcases h with h | h | ⟨b, hb, hrange⟩
        · exact absurd h hzero
        · exact Or.inr (Or.inl (by omega))
        · rw [List.getElem?_append_right hle] at hb
          exact Or.inr (Or.inr ⟨b, hb, hrange⟩)
      obtain ⟨a, b, rfl, ha⟩ := ih (by omega) hbehind
      refine ⟨c :: a, b, rfl, ?_⟩
      rw [utf8_cons, List.length_append, ha]
      omega

/-- **A range of a text** between ends of characters is the part between them. -/
theorem strRange_middle (a b c : Str) :
    strRange (a ++ (b ++ c)) (utf8 a).length ((utf8 a).length + (utf8 b).length) = .ok b := by
  have hend : isCharBoundary (a ++ (b ++ c)) ((utf8 a).length + (utf8 b).length) = true := by
    have hboundary := isCharBoundary_append (a ++ b) c
    rwa [List.append_assoc, utf8_append, List.length_append] at hboundary
  rw [strRange, if_pos ⟨Nat.le_add_right _ _, isCharBoundary_append a (b ++ c), hend⟩,
    Nat.add_sub_cancel_left, utf8_append, utf8_append, slice_middle rfl rfl, fromUtf8_utf8]
  rfl

/-- **A `%` that cuts a character**: there are two bytes behind it, and they are not whole characters. -/
def Cuts (behind : Str) : Prop :=
  2 ≤ (utf8 behind).length ∧ ∀ c d, behind = c ++ d → (utf8 c).length ≠ 2

/-- The two bytes behind a `%` that cuts a character are no text. -/
theorem strRange_cuts (a : Str) {b : Str} (h : Cuts b) :
    strRange (a ++ b) (utf8 a).length ((utf8 a).length + 2) = .error .bounds := by
  rw [strRange, if_neg]
  rintro ⟨-, -, hend⟩
  have hle : (utf8 a).length + 2 ≤ (utf8 (a ++ b)).length := by
    rw [utf8_append, List.length_append]
    exact Nat.add_le_add_left h.1 _
  obtain ⟨front, back, hsplit, hfront⟩ := exists_append_of_isCharBoundary hle hend
  rcases List.append_eq_append_iff.mp hsplit with ⟨mid, rfl, hb⟩ | ⟨mid, rfl, -⟩
  · rw [utf8_append, List.length_append] at hfront
    exact h.2 mid back hb (by omega)
  · rw [utf8_append, List.length_append] at hfront
    omega

/-! ### The loop -/

section Loop

variable (a : Str) (out : Bytes)

theorem percentDecodeGo_end : percentDecodeGo a (utf8 a).length out = .ok out := by
  rw [percentDecodeGo, if_neg (Nat.lt_irrefl _)]
  rfl

/-- The byte at a position of the loop. -/
theorem index_utf8_append {b : Str} {byte : UInt8} {rest : Bytes} (h : utf8 b = byte :: rest) :
    (utf8 a).length < (utf8 (a ++ b)).length ∧ index (utf8 (a ++ b)) (utf8 a).length = .ok byte := by
  rw [utf8_append, h]
  refine ⟨?_, index_of_drop List.drop_left⟩
  rw [List.length_append, List.length_cons]
  omega

/-- Bytes that are no `%` are taken over. -/
theorem percentDecodeGo_bytes {s : Str} {front mid back : Bytes} (hs : utf8 s = front ++ (mid ++ back))
    (hmid : 0x25 ∉ mid) :
    percentDecodeGo s front.length out = percentDecodeGo s (front.length + mid.length) (out ++ mid) := by
  induction mid generalizing front out with
  | nil => rw [List.length_nil, Nat.add_zero, List.append_nil]
  | cons b mid ih =>
    rw [List.mem_cons, not_or] at hmid
    have hlt : front.length < (utf8 s).length := by
      rw [hs, List.length_append, List.length_append, List.length_cons]
      omega
    have hb : index (utf8 s) front.length = .ok b := by
      rw [hs]
      exact index_of_drop List.drop_left
    have hs' : utf8 s = (front ++ [b]) ++ (mid ++ back) := by
      rw [hs, List.append_assoc]
      rfl
    have hnext := ih (out ++ [b]) hs' hmid.2
    rw [List.length_append, List.length_singleton] at hnext
    rw [percentDecodeGo, if_pos hlt, hb, ok_bind, if_neg fun h => hmid.1 h.1.symm, hnext, List.append_assoc,
      List.length_cons, Nat.add_assoc, Nat.add_comm 1]
    rfl

/-- A character other than `%` is passed over, and its bytes go to the result as they are. -/
theorem percentDecodeGo_char {c : Char} (hc : c ≠ '%') (b : Str) :
    percentDecodeGo (a ++ c :: b) (utf8 a).length out =
      percentDecodeGo (a ++ c :: b) (utf8 (a ++ [c])).length (out ++ String.utf8EncodeChar c) := by
  have hs : utf8 (a ++ c :: b) = utf8 a ++ (String.utf8EncodeChar c ++ utf8 b) := by
    rw [utf8_append, utf8_cons]
  have hmem : (0x25 : UInt8) ∉ String.utf8EncodeChar c := by
    intro hmem
    have hcode := ascii_mem_utf8EncodeChar (by decide) hmem
    exact hc (Char.toNat_inj.mp hcode)
  rw [percentDecodeGo_bytes out hs hmem, utf8_append, List.length_append, utf8_cons, utf8_nil,
    List.append_nil]

/-- A `%` with fewer than two bytes behind it. -/
theorem percentDecodeGo_last {b : Str} (hb : (utf8 b).length < 2) :
    percentDecodeGo (a ++ '%' :: b) (utf8 a).length out =
      percentDecodeGo (a ++ '%' :: b) (utf8 (a ++ ['%'])).length (out ++ [0x25]) := by
  have hbytes : utf8 ('%' :: b) = 0x25 :: utf8 b := rfl
  obtain ⟨hlt, hindex⟩ := index_utf8_append a hbytes
  have hshort : ¬ (utf8 a).length + 2 < (utf8 (a ++ '%' :: b)).length := by
    rw [utf8_append, utf8_cons, List.length_append, List.length_append]
    show ¬ (utf8 a).length + 2 < (utf8 a).length + (1 + (utf8 b).length)
    omega
  rw [percentDecodeGo, if_pos hlt, hindex, ok_bind, if_neg fun h => hshort h.2, utf8_append,
    List.length_append]
  rfl

/-- What the loop does at a `%` with two bytes behind it. -/
theorem percentDecodeGo_percent {b : Str} (hb : 2 ≤ (utf8 b).length) :
    percentDecodeGo (a ++ '%' :: b) (utf8 a).length out =
      strRange ((a ++ ['%']) ++ b) (utf8 (a ++ ['%'])).length ((utf8 (a ++ ['%'])).length + 2) >>= fun text =>
        match fromStrRadix text 16 with
        | some hex => percentDecodeGo (a ++ '%' :: b) ((utf8 (a ++ ['%'])).length + 2) (out ++ [hex])
        | none => percentDecodeGo (a ++ '%' :: b) (utf8 (a ++ ['%'])).length (out ++ [0x25]) := by
  have hbytes : utf8 ('%' :: b) = 0x25 :: utf8 b := rfl
  obtain ⟨hlt, hindex⟩ := index_utf8_append a hbytes
  have hlong : (utf8 a).length + 2 < (utf8 (a ++ '%' :: b)).length := by
    rw [utf8_append, utf8_cons, List.length_append, List.length_append]
    show (utf8 a).length + 2 < (utf8 a).length + (1 + (utf8 b).length)
    omega
  have hnext : (utf8 (a ++ ['%'])).length = (utf8 a).length + 1 := by
    rw [utf8_append, List.length_append]
    rfl
  rw [percentDecodeGo, if_pos hlt, hindex, ok_bind, if_pos ⟨rfl, hlong⟩, hnext, List.append_assoc]
  rfl

/-- A `%` with a text of two bytes behind it. -/
theorem percentDecodeGo_text {c : Str} (hc : (utf8 c).length = 2) (d : Str) :
    percentDecodeGo (a ++ '%' :: (c ++ d)) (utf8 a).length out =
      match fromStrRadix c 16 with
      | some hex => percentDecodeGo (a ++ '%' :: (c ++ d)) (utf8 (a ++ '%' :: c)).length (out ++ [hex])
      | none => percentDecodeGo (a ++ '%' :: (c ++ d)) (utf8 (a ++ ['%'])).length (out ++ [0x25]) := by
  have hle : 2 ≤ (utf8 (c ++ d)).length := by
    rw [utf8_append, List.length_append]
    omega
  have hend : (utf8 (a ++ '%' :: c)).length = (utf8 (a ++ ['%'])).length + 2 := by
    rw [← List.singleton_append, ← List.append_assoc, utf8_append (a ++ ['%']), List.length_append, hc]
  have hrange := strRange_middle (a ++ ['%']) c d
  rw [hc] at hrange
  rw [percentDecodeGo_percent a out hle, hrange, ok_bind, hend]

/-- At a `%` whose two characters end inside a character, the code panics. -/
theorem percentDecodeGo_cuts {b : Str} (hb : Cuts b) :
    percentDecodeGo (a ++ '%' :: b) (utf8 a).length out = .error .bounds := by
  rw [percentDecodeGo_percent a out hb.1, strRange_cuts (a ++ ['%']) hb, error_bind]

end Loop

/-! ### Faults -/

theorem mem_of_foldlM_pushRadixDigit {radix : Nat} {digits : Str} {acc n : Nat}
    (h : digits.foldlM (pushRadixDigit radix) acc = some n) {c : Char} (hc : c ∈ digits) :
    toDigit radix c ≠ none := by
  induction digits generalizing acc with
  | nil => exact absurd hc List.not_mem_nil
  | cons d digits ih =>
    rw [List.foldlM_cons] at h
    obtain ⟨v, hv, hrest⟩ := Option.bind_eq_some_iff.mp h
    rcases List.mem_cons.mp hc with rfl | hmem
    · intro hnone
      rw [pushRadixDigit, hnone] at hv
      cases hv
    · exact ih hrest hmem

/-- What is read as a number in base 16 does not contain a `%`, so that the two characters behind one never begin
    another escape. -/
theorem percent_notMem_of_fromStrRadix {s : Str} {hex : UInt8} (h : fromStrRadix s 16 = some hex) :
    '%' ∉ s := by
  intro hmem
  have hdigits : '%' ∈ (match s with
      | '+' :: rest => rest
      | _ => s) := by
    split
    · rename_i rest
      rcases List.mem_cons.mp hmem with hplus | hrest
      · exact absurd hplus (by decide)
      · exact hrest
    · exact hmem
  unfold fromStrRadix at h
  generalize (match s with
    | '+' :: rest => rest
    | _ => s) = digits at hdigits h
  dsimp only at h
  split at h
  · cases h
  · obtain ⟨n, hn, -⟩ := Option.map_eq_some_iff.mp h
    exact mem_of_foldlM_pushRadixDigit hn hdigits (by decide)

/-- A text with a `%` that cuts a character. -/
def HasCut (s : Str) : Prop := ∃ a b, s = a ++ '%' :: b ∧ Cuts b

theorem hasCut_append_of_notMem {c : Str} (hc : '%' ∉ c) (d : Str) : HasCut (c ++ d) ↔ HasCut d := by
  constructor
  · rintro ⟨a, b, hsplit, hcut⟩
    rcases List.append_eq_append_iff.mp hsplit with ⟨mid, rfl, hd⟩ | ⟨mid, rfl, hb⟩
    · exact ⟨mid, b, hd, hcut⟩
    · cases mid with
      | nil => exact ⟨[], b, hb.symm, hcut⟩
      | cons x mid =>
        obtain ⟨rfl, -⟩ := List.cons.inj hb
        exact absurd (List.mem_append_right a List.mem_cons_self) hc
  · rintro ⟨a, b, rfl, hcut⟩
    exact ⟨c ++ a, b, (List.append_assoc ..).symm, hcut⟩

theorem hasCut_percent_cons (b : Str) : HasCut ('%' :: b) ↔ Cuts b ∨ HasCut b := by
  constructor
  · rintro ⟨a, b', hsplit, hcut⟩
    rcases List.cons_eq_append_iff.mp hsplit with ⟨rfl, hb⟩ | ⟨a', rfl, hb⟩
    · obtain ⟨-, rfl⟩ := List.cons.inj hb
      exact Or.inl hcut
    · exact Or.inr ⟨a', b', hb, hcut⟩
  · rintro (hcut | ⟨a, b', rfl, hcut⟩)
    · exact ⟨[], b, rfl, hcut⟩
    · exact ⟨'%' :: a, b', rfl, hcut⟩

/-- **The loop** faults in texts with such a `%`, and only in these. -/
theorem defined_percentDecodeGo_iff (a b : Str) (out : Bytes) :
    Defined (percentDecodeGo (a ++ b) (utf8 a).length out) ↔ ¬ HasCut b := by
  induction hn : b.length using Nat.strong_induction_on generalizing a b out with
  | _ n ih =>
    subst hn
    cases b with
    | nil =>
      rw [List.append_nil, percentDecodeGo_end]
      refine iff_of_true defined_ok ?_
      rintro ⟨a', b', hsplit, -⟩
      exact List.append_ne_nil_of_right_ne_nil a' (List.cons_ne_nil _ _) hsplit.symm
    | cons c b =>
      -- what is left behind the bytes that one round takes
      have hnext (front back : Str) (hlen : back.length < (c :: b).length)
          (hsplit : a ++ c :: b = front ++ back) (out : Bytes) :
          Defined (percentDecodeGo (a ++ c :: b) (utf8 front).length out) ↔ ¬ HasCut back := by
        rw [hsplit]
        exact ih back.length hlen front back out rfl
      have hbehind : a ++ c :: b = (a ++ [c]) ++ b := by rw [List.append_assoc, List.singleton_append]
      by_cases hc : c = '%'
      · subst hc
        rw [hasCut_percent_cons]
        by_cases hlast : (utf8 b).length < 2
        · have hcuts : ¬ Cuts b := fun hcuts => absurd hcuts.1 (Nat.not_le.mpr hlast)
          rw [percentDecodeGo_last a out hlast, hnext (a ++ ['%']) b (Nat.lt_succ_self _) hbehind,
            or_iff_right hcuts]
        · by_cases htext : ∃ c d, b = c ++ d ∧ (utf8 c).length = 2
          · obtain ⟨c, d, rfl, hc⟩ := htext
            have hcuts : ¬ Cuts (c ++ d) := fun hcuts => hcuts.2 c d rfl hc
            rw [percentDecodeGo_text a out hc, or_iff_right hcuts]
            split
            · rename_i hex hhex
              rw [hasCut_append_of_notMem (percent_notMem_of_fromStrRadix hhex)]
              refine hnext (a ++ '%' :: c) d ?_ ?_ _
              · rw [List.length_cons, List.length_append]
                omega
              · rw [List.append_assoc, List.cons_append]
            · exact hnext (a ++ ['%']) (c ++ d) (Nat.lt_succ_self _) hbehind _
          · have hcuts : Cuts b :=
              ⟨Nat.not_lt.mp hlast, fun c d hsplit hlen => htext ⟨c, d, hsplit, hlen⟩⟩
            rw [percentDecodeGo_cuts a out hcuts]
            exact iff_of_false not_defined_error fun h => h (Or.inl hcuts)
      · rw [percentDecodeGo_char a out hc, hnext (a ++ [c]) b (Nat.lt_succ_self _) hbehind,
          ← List.singleton_append, hasCut_append_of_notMem]
        exact fun hmem => hc (List.mem_singleton.mp hmem).symm

/-- **Exactly the texts** without a `%` that cuts a character are decoded. -/
theorem defined_percentDecode_iff (s : Str) : Defined (percentDecode s) ↔ ¬ HasCut s := by
  rw [← defined_percentDecodeGo_iff [] s [], List.nil_append, percentDecode]
  exact ⟨fun h => by
    obtain ⟨out, hout, -⟩ := defined_bind.mp h
    exact ⟨out, hout⟩, fun h => h.bind fun _ _ => defined_ok⟩

/-! ### Encodings -/

/-- Bytes as `%` with two digits each, in upper or lower case. -/
inductive Escapes : Bytes → Str → Prop where
  | nil : Escapes [] []
  | cons {b : UInt8} {hi lo : Char} {bs : Bytes} {es : Str} (hhi : toDigit 16 hi = some (b.toNat / 16))
      (hlo : toDigit 16 lo = some (b.toNat % 16)) (h : Escapes bs es) :
      Escapes (b :: bs) ('%' :: hi :: lo :: es)

/-- A percent-encoding of a text: every character but `%` may stand for itself, and every character may be
    written as the bytes of its encoding. -/
inductive PercentEncodes : Str → Str → Prop where
  | nil : PercentEncodes [] []
  | literal {c : Char} {s t : Str} (hc : c ≠ '%') (h : PercentEncodes s t) : PercentEncodes (c :: s) (c :: t)
  | escape {c : Char} {es s t : Str} (hes : Escapes (String.utf8EncodeChar c) es) (h : PercentEncodes s t) :
      PercentEncodes (c :: s) (es ++ t)

theorem toNat_lt_of_toDigit {radix d : Nat} {c : Char} (h : toDigit radix c = some d) : c.toNat < 128 := by
  by_contra hge
  have hle : ∀ c' : Char, c'.toNat < 128 → ¬ c ≤ c' := by
    intro c' hc' hle
    exact hge ((Nat.lt_of_le_of_lt (UInt32.le_iff_toNat_le.mp hle) hc'))
  have hnone : toDigit radix c = none := by
    rw [toDigit, if_neg fun hc => hle '9' (by decide) hc.2, if_neg fun hc => hle 'z' (by decide) hc.2,
      if_neg fun hc => hle 'Z' (by decide) hc.2]
    rfl
  rw [hnone] at h
  cases h

/-- Digits are characters of one byte, so two of them are the two bytes that the code takes. -/
theorem length_utf8_digits {hi lo : Char} {m n : Nat} (hhi : toDigit 16 hi = some m)
    (hlo : toDigit 16 lo = some n) : (utf8 [hi, lo]).length = 2 := by
  have hone : ∀ {c : Char} {d : Nat}, toDigit 16 c = some d → (String.utf8EncodeChar c).length = 1 := by
    intro c d hd
    rw [String.length_utf8EncodeChar, Char.utf8Size_eq_one_iff, UInt32.le_iff_toNat_le]
    exact Nat.le_of_lt_succ (toNat_lt_of_toDigit hd)
  rw [utf8_cons, utf8_cons, utf8_nil, List.append_nil, List.length_append, hone hhi, hone hlo]

theorem fromStrRadix_digits {hi lo : Char} {b : UInt8} (hhi : toDigit 16 hi = some (b.toNat / 16))
    (hlo : toDigit 16 lo = some (b.toNat % 16)) : fromStrRadix [hi, lo] 16 = some b := by
  have hb := b.toNat_lt
  have hplus : hi ≠ '+' := by
    rintro rfl
    have hnone : toDigit 16 '+' = none := by decide
    rw [hnone] at hhi
    cases hhi
  have hfirst : pushRadixDigit 16 0 hi = some (b.toNat / 16) := by
    rw [pushRadixDigit, hhi]
    dsimp only
    rw [Nat.zero_mul, Nat.zero_add, if_pos (by omega)]
  have hsecond : pushRadixDigit 16 (b.toNat / 16) lo = some b.toNat := by
    rw [pushRadixDigit, hlo]
    dsimp only
    rw [Nat.div_add_mod', if_pos (by omega)]
  rw [fromStrRadix, if_neg (List.cons_ne_nil _ _), List.foldlM_cons, hfirst]
  · simp only [Option.bind_eq_bind, Option.bind_some, List.foldlM_cons, List.foldlM_nil, hsecond,
      Option.pure_def, Option.map_some, UInt8.ofNat_toNat]
  · exact fun rest heq => hplus (List.cons.inj heq).1

/-- The bytes of a character that is escaped. -/
theorem percentDecodeGo_escapes {bs : Bytes} {es : Str} (h : Escapes bs es) (a b : Str) (out : Bytes) :
    percentDecodeGo (a ++ (es ++ b)) (utf8 a).length out
      = percentDecodeGo (a ++ (es ++ b)) (utf8 (a ++ es)).length (out ++ bs) := by
  induction h generalizing a out with
  | nil => rw [List.append_nil, List.append_nil]
  | @cons byte hi lo bs es hhi hlo _ ih =>
    have htext := percentDecodeGo_text a out (length_utf8_digits hhi hlo) (es ++ b)
    rw [fromStrRadix_digits hhi hlo] at htext
    have hnext := ih (a ++ '%' :: [hi, lo]) (out ++ [byte])
    simp only [List.append_assoc, List.cons_append, List.nil_append] at htext hnext ⊢
    rw [htext, hnext]

theorem percentDecodeGo_encodes {s t : Str} (h : PercentEncodes s t) (a : Str) (out : Bytes) :
    percentDecodeGo (a ++ t) (utf8 a).length out = .ok (out ++ utf8 s) := by
  induction h generalizing a out with
  | nil => rw [List.append_nil, percentDecodeGo_end, utf8_nil, List.append_nil]
  | @literal c s t hc _ ih =>
    have hnext := ih (a ++ [c]) (out ++ String.utf8EncodeChar c)
    rw [List.append_assoc, List.singleton_append] at hnext
    rw [percentDecodeGo_char a out hc, hnext, utf8_cons, List.append_assoc]
  | @escape c es s t hes _ ih =>
    have hnext := ih (a ++ es) (out ++ String.utf8EncodeChar c)
    rw [List.append_assoc] at hnext
    rw [percentDecodeGo_escapes hes, hnext, utf8_cons, List.append_assoc]

/-- **Every percent-encoding** of a text is decoded to the text. -/
theorem percentDecode_of_encodes {s t : Str} (h : PercentEncodes s t) : percentDecode t = .ok s := by
  have hgo := percentDecodeGo_encodes h [] []
  rw [List.nil_append, List.nil_append] at hgo
  rw [percentDecode]
  show percentDecodeGo t (utf8 []).length [] >>= _ = _
  rw [hgo, ok_bind, fromUtf8Lossy_utf8]
  rfl

end Reflex.App
