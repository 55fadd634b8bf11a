import Reflex.Outbound.Qpack

namespace Reflex.Hy2

open RustStd Machine

/-!
# Hysteria2 — header blocks, written and read

`put_literal_header` goes on behind the prefix of a value from 128 bytes on; the prefix of seven bits is
full at 127.

* `qpackReadInt_qpackInteger` — an integer that is written with a prefix is read;
* `qpackField_put` — a field is read as it was written, if its value does not have 127 bytes;
* `headerBlock_roundTrips_iff` — and a block, exactly if no value in it has 127 bytes.
-/

/-! ### Bits of a byte -/

private theorem byte_bits : ∀ n < 256,
    ((UInt8.ofNat n ||| 0x80) &&& 0x80 = 0 ↔ False) ∧
      ((UInt8.ofNat n ||| 0x80) &&& 0x7f).toNat = n % 128 ∧
      (UInt8.ofNat n &&& 0x80 = 0 ↔ n < 128) ∧ (UInt8.ofNat n &&& 0x7f).toNat = n % 128 := by
  decide +kernel

theorem ofNat_mod (n : Nat) : UInt8.ofNat n = UInt8.ofNat (n % 256) := by
  refine UInt8.toNat_inj.mp ?_
  rw [UInt8.toNat_ofNat', UInt8.toNat_ofNat', Nat.mod_mod]

/-- A byte with the high bit: seven bits of the integer, and the integer goes on. -/
theorem more_bits (n : Nat) :
    ¬ (UInt8.ofNat n ||| 0x80) &&& 0x80 = 0 ∧ ((UInt8.ofNat n ||| 0x80) &&& 0x7f).toNat = n % 128 := by
  obtain ⟨hhigh, hlow, -⟩ := byte_bits (n % 256) (Nat.mod_lt _ (by decide))
  rw [← ofNat_mod] at hhigh hlow
  refine ⟨hhigh.mp, hlow.trans ?_⟩
  omega

/-- A byte without it: the last seven bits. -/
theorem last_bits {n : Nat} (h : n < 128) :
    UInt8.ofNat n &&& 0x80 = 0 ∧ (UInt8.ofNat n &&& 0x7f).toNat = n := by
  obtain ⟨-, -, hhigh, hlow⟩ := byte_bits n (by omega)
  exact ⟨hhigh.mpr h, hlow.trans (Nat.mod_eq_of_lt h)⟩

/-- The first byte of a field: no index and no reference to a name, and the name is not compressed. -/
private theorem literal_bits : ∀ n < 8,
    ((0x20 ||| UInt8.ofNat n) &&& 0x80 = 0) ∧ ((0x20 ||| UInt8.ofNat n) &&& 0xc0 ≠ 0x40) ∧
      ((0x20 ||| UInt8.ofNat n) &&& 0xe0 = 0x20) ∧ ((0x20 ||| UInt8.ofNat n) &&& 0x08 = 0) ∧
      0 < (0x20 ||| UInt8.ofNat n).toNat ∧ (0x20 ||| UInt8.ofNat n).toNat < 128 := by
  decide

/-! ### Integers -/

/-- An integer behind the flags of its first byte. -/
def qpackInteger (prefixBits : Nat) (flags : UInt8) (n : Nat) : Bytes :=
  (flags ||| UInt8.ofNat (min n (2 ^ prefixBits - 1))) ::
    if n < 2 ^ prefixBits - 1 then [] else prefixRest n (n - (2 ^ prefixBits - 1))

theorem qpackReadIntGo_prefixRest {fuel rem val m i : Nat} (hfuel : rem < fuel) (hm : m < 64)
    (hsum : val + rem * 2 ^ m < 2 ^ 64) (rest : Bytes) :
    qpackReadIntGo (prefixRest fuel rem ++ rest) val m i
      = .ok (some (val + rem * 2 ^ m, i + (prefixRest fuel rem).length)) := by
  induction fuel generalizing rem val m i with
  | zero => exact absurd hfuel (Nat.not_lt_zero _)
  | succ fuel ih =>
    rw [prefixRest]
    by_cases hmore : 128 ≤ rem
    · obtain ⟨hhigh, hlow⟩ := more_bits rem
      have hsplit : rem * 2 ^ m = rem % 128 * 2 ^ m + rem / 128 * 2 ^ (m + 7) := by
        rw [Nat.pow_add, Nat.mul_comm (2 ^ m), ← Nat.mul_assoc, ← Nat.add_mul, Nat.mod_add_div']
      -- what is left is not zero, so the shift is not too wide
      have hshift : 2 ^ (m + 7) < 2 ^ 64 := by
        have hquot : 1 ≤ rem / 128 := by omega
        have := Nat.mul_le_mul_right (2 ^ (m + 7)) hquot
        omega
      have hshift := (Nat.pow_lt_pow_iff_right (by decide)).mp hshift
      rw [if_pos hmore, List.cons_append, qpackReadIntGo, shl_of_lt hm, ok_bind, hlow, Nat.shiftLeft_eq,
        Nat.mod_eq_of_lt (a := rem % 128 * 2 ^ m) (by omega), add_of_lt (by omega), ok_bind, if_neg hhigh,
        ih (by omega) hshift (by omega), hsplit, List.length_cons]
      congr 3
      · omega
      · omega
    · obtain ⟨hhigh, hlow⟩ := last_bits (not_le.mp hmore)
      rw [if_neg hmore, List.singleton_append, qpackReadIntGo, shl_of_lt hm, ok_bind, hlow,
        Nat.shiftLeft_eq, Nat.mod_eq_of_lt (a := rem * 2 ^ m) (by omega), add_of_lt hsum, ok_bind,
        if_pos hhigh]
      rfl

/-- **An integer** is read as it was written. -/
theorem qpackReadInt_qpackInteger {prefixBits n : Nat} {flags : UInt8} (hbits : prefixBits ≤ 7)
    (hpos : 0 < prefixBits) (hflags : flags.toNat % 2 ^ prefixBits = 0) (hn : n < 2 ^ 64) (rest : Bytes) :
    qpackReadInt (qpackInteger prefixBits flags n ++ rest) prefixBits
      = .ok (some (n, (qpackInteger prefixBits flags n).length)) := by
  have hpow : 2 ^ prefixBits ≤ 2 ^ 7 := Nat.pow_le_pow_right (by decide) hbits
  have hpow' : 2 ^ 1 ≤ 2 ^ prefixBits := Nat.pow_le_pow_right (by decide) hpos
  have hfirst : (flags ||| UInt8.ofNat (min n (2 ^ prefixBits - 1))).toNat &&& 2 ^ prefixBits - 1
      = min n (2 ^ prefixBits - 1) := by
    rw [Nat.and_two_pow_sub_one_eq_mod, UInt8.toNat_or, Nat.or_mod_two_pow, hflags, Nat.zero_or,
      UInt8.toNat_ofNat', Nat.mod_eq_of_lt (a := min _ _) (by omega), Nat.mod_eq_of_lt (by omega)]
  rw [qpackInteger, List.cons_append, qpackReadInt, hfirst]
  by_cases hsmall : n < 2 ^ prefixBits - 1
  · rw [if_pos hsmall, if_pos (by omega), min_eq_left hsmall.le]
    rfl
  · rw [if_neg hsmall, if_neg (by omega), min_eq_right (not_lt.mp hsmall)]
    rw [qpackReadIntGo_prefixRest (by omega) (by decide) (by omega), List.length_cons]
    congr 3
    · omega
    · omega

theorem length_qpackInteger_pos (prefixBits : Nat) (flags : UInt8) (n : Nat) :
    0 < (qpackInteger prefixBits flags n).length := Nat.succ_pos _

/-! ### Strings -/

/-- A string that is not compressed is read back, up to its end. -/
theorem qpackString_qpackInteger {payload rest : Bytes} {i prefixBits : Nat} {flags : UInt8} {s : Str}
    (hbits : prefixBits ≤ 7) (hpos : 0 < prefixBits) (hflags : flags.toNat % 2 ^ prefixBits = 0)
    (hlen : payload.length < 2 ^ 64)
    (h : payload.drop i = qpackInteger prefixBits flags (utf8 s).length ++ (utf8 s ++ rest)) :
    qpackString payload i prefixBits false = .ok (some (s,
      i + (qpackInteger prefixBits flags (utf8 s).length).length + (utf8 s).length)) := by
  have hlength := length_of_drop h (List.cons_ne_nil _ _)
  simp only [List.length_append] at hlength
  have hread := qpackReadInt_qpackInteger (n := (utf8 s).length) hbits hpos hflags (by omega)
    (utf8 s ++ rest)
  have htext := drop_add_of_drop h
  rw [qpackString, qpackInt, range_length (by omega), ok_bind, h, hread, ok_bind]
  dsimp only
  rw [add_of_lt (by omega), ok_bind]
  show (add 64 (i + _) (utf8 s).length >>= fun stop => _) = _
  rw [add_of_lt (by omega), ok_bind, if_neg (by omega), range_of_le (by omega) (by omega), ok_bind, htext,
    Nat.add_sub_cancel_left, List.take_left]
  show Except.ok (some (fromUtf8Lossy (utf8 s), _)) = _
  rw [fromUtf8Lossy_utf8]

/-! ### Fields -/

theorem putLiteralHeader_eq (name value : Bytes) :
    putLiteralHeader name value = qpackInteger 3 0x20 name.length
      ++ (name ++ ((if value.length = 127 then [0x7f] else qpackInteger 7 0 value.length) ++ value)) := by
  have hname : (if name.length < 7 then [0x20 ||| UInt8.ofNat name.length]
      else 0x27 :: prefixRest name.length (name.length - 7)) = qpackInteger 3 0x20 name.length := by
    show _ = (0x20 ||| UInt8.ofNat (min name.length 7)) ::
      if name.length < 7 then [] else prefixRest name.length (name.length - 7)
    by_cases hsmall : name.length < 7
    · rw [if_pos hsmall, if_pos hsmall, min_eq_left hsmall.le]
    · rw [if_neg hsmall, if_neg hsmall, min_eq_right (not_lt.mp hsmall)]
      rfl
  have hvalue : (if value.length < 128 then [UInt8.ofNat value.length]
      else 0x7f :: prefixRest value.length (value.length - 127))
      = if value.length = 127 then [0x7f] else qpackInteger 7 0 value.length := by
    show _ = if value.length = 127 then [0x7f] else (0 ||| UInt8.ofNat (min value.length 127)) ::
      if value.length < 127 then [] else prefixRest value.length (value.length - 127)
    by_cases hfull : value.length = 127
    · rw [if_pos (by omega), if_pos hfull, hfull]
      rfl
    rw [if_neg hfull, UInt8.zero_or]
    by_cases hsmall : value.length < 128
    · rw [if_pos hsmall, if_pos (by omega), min_eq_left (by omega)]
    · rw [if_neg hsmall, if_neg (by omega), min_eq_right (by omega)]
      rfl
  rw [putLiteralHeader, hname, hvalue]
  simp only [List.append_assoc]

/-- **A field** that is written with its name is read by this name, and by the value behind it. -/
theorem qpackField_name {payload rest : Bytes} {i : Nat} {name : Str} (hlen : payload.length < 2 ^ 64)
    (h : payload.drop i = qpackInteger 3 0x20 (utf8 name).length ++ (utf8 name ++ rest)) :
    qpackField payload i = (do
      let some (value, i) ← qpackValue payload
        (i + (qpackInteger 3 0x20 (utf8 name).length).length + (utf8 name).length) | return none
      return some (some (name, value), i)) := by
  have hb : payload[i]? = some (0x20 ||| UInt8.ofNat (min (utf8 name).length 7)) := by
    rw [← Nat.add_zero i, ← List.getElem?_drop, h]
    rfl
  obtain ⟨hindexed, hreference, hliteral, hhuffman, -⟩ :=
    literal_bits (min (utf8 name).length 7) (by omega)
  have hhuffman' : (decide ((0x20 ||| UInt8.ofNat (min (utf8 name).length 7)) &&& 0x08 ≠ 0)) = false := by
    rw [hhuffman]
    rfl
  rw [qpackField, index_of_getElem? hb, ok_bind, if_neg (not_not.mpr hindexed), if_neg hreference,
    if_pos hliteral, hhuffman', qpackString_qpackInteger (by decide) (by decide) rfl hlen h]
  rfl

theorem qpackValue_qpackInteger {payload rest : Bytes} {i : Nat} {value : Str}
    (hlen : payload.length < 2 ^ 64)
    (h : payload.drop i = qpackInteger 7 0 (utf8 value).length ++ (utf8 value ++ rest)) :
    qpackValue payload i = .ok (some (value,
      i + (qpackInteger 7 0 (utf8 value).length).length + (utf8 value).length)) := by
  have hlength := length_of_drop h (List.cons_ne_nil _ _)
  have hb : payload[i]? = some (UInt8.ofNat (min (utf8 value).length 127)) := by
    rw [← Nat.add_zero i, ← List.getElem?_drop, h, qpackInteger, UInt8.zero_or]
    rfl
  have hhuffman : decide (UInt8.ofNat (min (utf8 value).length 127) &&& 0x80 ≠ 0) = false := by
    rw [(last_bits (n := min (utf8 value).length 127) (by omega)).1]
    rfl
  simp only [List.length_append] at hlength
  have hpos := length_qpackInteger_pos 7 0 (utf8 value).length
  rw [qpackValue, if_neg (by omega), index_of_getElem? hb, ok_bind, hhuffman,
    qpackString_qpackInteger (by decide) (by decide) rfl hlen h]

/-- **A field** is read as it was written. -/
theorem qpackField_put {payload rest : Bytes} {i : Nat} {name value : Str} (hlen : payload.length < 2 ^ 64)
    (hvalue : (utf8 value).length ≠ 127)
    (h : payload.drop i = putLiteralHeader (utf8 name) (utf8 value) ++ rest) :
    qpackField payload i = .ok (some (some (name, value),
      i + (putLiteralHeader (utf8 name) (utf8 value)).length)) := by
  rw [putLiteralHeader_eq, if_neg hvalue] at h ⊢
  simp only [List.append_assoc] at h
  have hdrop := drop_add_of_drop (drop_add_of_drop h)
  rw [qpackField_name hlen h, qpackValue_qpackInteger hlen hdrop]
  simp only [List.length_append, ← Nat.add_assoc]
  rfl

/-! ### A full prefix -/

/-- What comes behind a value: nothing, or a field. -/
def FieldNext (rest : Bytes) : Prop := ∀ b ∈ rest.head?, 0 < b.toNat ∧ b.toNat < 128

private theorem low_bits_zero {n : Nat} (h : n < 256) (hlow : (UInt8.ofNat n &&& 0x7f).toNat = 0) :
    n = 0 ∨ n = 0x80 := by
  obtain ⟨-, -, -, hmod⟩ := byte_bits n h
  omega

/-- No text starts in the middle of a character. -/
theorem utf8_ne_cons_0x80 (s : Str) (w : Bytes) : utf8 s ≠ 0x80 :: w := by
  intro h
  cases s with
  | nil => cases h
  | cons c s =>
    obtain ⟨b, tail, henc, hwidth⟩ := utf8CharWidth_utf8EncodeChar c
    rw [utf8_cons, henc, List.cons_append] at h
    obtain ⟨rfl, -⟩ := List.cons.inj h
    cases hwidth

/-- A text whose first byte is zero starts with that character. -/
theorem utf8_eq_cons_zero {s : Str} {w : Bytes} (h : utf8 s = 0 :: w) :
    ∃ t, s = Char.ofNat 0 :: t ∧ w = utf8 t := by
  cases s with
  | nil => cases h
  | cons c t =>
    obtain ⟨b, tail, henc, hwidth⟩ := utf8CharWidth_utf8EncodeChar c
    have hchar := ascii_mem_utf8EncodeChar (c := c) (b := b)
    rw [utf8_cons, henc, List.cons_append] at h
    obtain ⟨rfl, rfl⟩ := List.cons.inj h
    have htail : tail = [] := List.length_eq_zero_iff.mp (Nat.succ.inj hwidth).symm
    rw [henc] at hchar
    refine ⟨t, ?_, by rw [htail]; rfl⟩
    rw [← Char.ofNat_toNat c, hchar (by decide) List.mem_cons_self]
    rfl

/-- A length that starts with a full prefix and a text stays 127 only if the text starts with zero. -/
theorem qpackReadInt_127 {s : Str} {rest : Bytes} {len n : Nat} (hs : s ≠ []) (hlen : len ≤ 127)
    (h : qpackReadInt (0x7f :: (utf8 s ++ rest)) 7 = .ok (some (len, n))) :
    len = 127 ∧ n = 2 ∧ ∃ w, utf8 s = 0 :: w := by
  obtain ⟨c, t, rfl⟩ := List.exists_cons_of_ne_nil hs
  -- the byte behind the length is the first one of the value, and is read as its continuation
  obtain ⟨b, tail, henc, -⟩ := utf8CharWidth_utf8EncodeChar c
  have hutf8 : utf8 (c :: t) = b :: (tail ++ utf8 t) := by rw [utf8_cons, henc]; rfl
  rw [hutf8] at h ⊢
  change qpackReadIntGo (b :: (tail ++ utf8 t ++ rest)) 127 0 1 = _ at h
  rw [qpackReadIntGo] at h
  obtain ⟨part, hpart, h⟩ := bind_eq_ok.mp h
  obtain ⟨val, hval, h⟩ := bind_eq_ok.mp h
  obtain rfl := add_eq_ok hval
  have hbelow : (b &&& 0x7f).toNat < 2 ^ 64 := (UInt8.toNat_lt _).trans (by decide)
  rw [shl_of_lt (by decide), Nat.shiftLeft_zero, Nat.mod_eq_of_lt hbelow] at hpart
  obtain rfl := Except.ok.inj hpart
  -- whatever follows only adds to 127, so that this byte adds nothing
  have hgrow : 127 + (b &&& 0x7f).toNat ≤ len := by
    split at h
    · exact (Prod.mk.inj (Option.some.inj (Except.ok.inj h))).1.le
    · exact (lt_of_qpackReadIntGo h).2
  have hb := low_bits_zero b.toNat_lt (by rw [UInt8.ofNat_toNat]; omega)
  -- no character begins with 0x80
  have hzero : b = 0 := by
    rcases hb with hb | hb
    · exact UInt8.toNat_inj.mp hb
    · obtain rfl : b = 0x80 := UInt8.toNat_inj.mp hb
      exact absurd hutf8 (utf8_ne_cons_0x80 _ _)
  subst hzero
  rw [if_pos (by decide)] at h
  obtain ⟨rfl, rfl⟩ := Prod.mk.inj (Option.some.inj (Except.ok.inj h))
  exact ⟨rfl, rfl, _, rfl⟩

/-- What a string that is not compressed is read from. -/
theorem qpackString_spec {payload : Bytes} {i prefixBits stop : Nat} {text : Str} (hi : i ≤ payload.length)
    (h : qpackString payload i prefixBits false = .ok (some (text, stop))) :
    ∃ len n, qpackReadInt (payload.drop i) prefixBits = .ok (some (len, n)) ∧
      i + n + len ≤ payload.length ∧ text = fromUtf8Lossy ((payload.drop (i + n)).take len) := by
  obtain ⟨found, hfound, h⟩ := bind_eq_ok.mp h
  rcases found with - | ⟨len, j⟩
  · cases h
  · rw [qpackInt, range_length hi, ok_bind] at hfound
    obtain ⟨found, hint, hfound⟩ := bind_eq_ok.mp hfound
    rcases found with - | ⟨len', n⟩
    · cases hfound
    · obtain ⟨j', hj, hfound⟩ := bind_eq_ok.mp hfound
      obtain rfl := add_eq_ok hj
      obtain ⟨rfl, rfl⟩ := Prod.mk.inj (Option.some.inj (Except.ok.inj hfound))
      obtain ⟨k, hk, h⟩ := bind_eq_ok.mp h
      obtain rfl := add_eq_ok hk
      split at h
      · cases h
      obtain ⟨bytes, hbytes, h⟩ := bind_eq_ok.mp h
      rw [range_of_le (by omega) (by omega), Nat.add_sub_cancel_left] at hbytes
      obtain rfl := Except.ok.inj hbytes
      change Except.ok (some (fromUtf8Lossy _, _)) = _ at h
      obtain ⟨htext, -⟩ := Prod.mk.inj (Option.some.inj (Except.ok.inj h))
      exact ⟨len', n, hint, by omega, htext.symm⟩

/-- One character for another: the text does not stay the same. -/
theorem rotated_ne {c d : Char} (h : d ≠ c) (t : Str) : t ++ [d] ≠ c :: t := by
  intro heq
  have hcount := congrArg (List.count c) heq
  rw [List.count_append, List.count_cons_self, List.count_singleton, if_neg (by simpa using h)] at hcount
  omega

/-- **127 bytes** behind a full prefix: the text starts with more of the length. -/
theorem qpackValue_127 {payload rest : Bytes} {i : Nat} {value : Str}
    (hvalue : (utf8 value).length = 127) (hrest : FieldNext rest)
    (h : payload.drop i = 0x7f :: (utf8 value ++ rest)) (stop : Nat) :
    qpackValue payload i ≠ .ok (some (value, stop)) := by
  intro hread
  have hlength := length_of_drop h (List.cons_ne_nil _ _)
  have hb : payload[i]? = some 0x7f := by
    rw [← Nat.add_zero i, ← List.getElem?_drop, h]
    rfl
  simp only [List.length_cons, List.length_append, hvalue] at hlength
  rw [qpackValue, if_neg (by omega), index_of_getElem? hb, ok_bind] at hread
  obtain ⟨len, n, hint, hstop, htext⟩ := qpackString_spec (by omega) hread
  -- the text is not longer than what it is read from
  have hlen : len ≤ 127 := by
    have hle := length_le_length_utf8_fromUtf8Lossy ((payload.drop (i + n)).take len)
    rw [← htext, hvalue, List.length_take, List.length_drop] at hle
    omega
  have hne : value ≠ [] := by
    rintro rfl
    cases hvalue
  rw [h] at hint
  obtain ⟨rfl, rfl, w, hw⟩ := qpackReadInt_127 hne hlen hint
  obtain ⟨t, rfl, rfl⟩ := utf8_eq_cons_zero hw
  -- a byte of the next field ends the text
  cases rest with
  | nil =>
    rw [List.length_nil] at hlength
    omega
  | cons x rest =>
    obtain ⟨hxpos, hxlt⟩ := hrest x rfl
    rw [hw, List.length_cons] at hvalue
    have hdrop : payload.drop (i + 2) = utf8 t ++ x :: rest := by
      rw [← List.drop_drop, h, hw]
      rfl
    have hx : utf8 [Char.ofNat x.toNat] = [x] := (fromUtf8_eq_some_iff _ _).mp (fromUtf8_ascii hxlt)
    have htake : (utf8 t ++ x :: rest).take 127 = utf8 (t ++ [Char.ofNat x.toNat]) := by
      rw [utf8_append, hx, List.append_cons, List.take_left' (by rw [List.length_append]; exact hvalue)]
    have hxchar : Char.ofNat x.toNat ≠ Char.ofNat 0 := by
      intro heq
      rw [heq] at hx
      obtain rfl : 0 = x := (List.cons.inj hx).1
      exact absurd hxpos (by decide)
    rw [hdrop, htake, fromUtf8Lossy_utf8] at htext
    exact rotated_ne hxchar t htext.symm

/-! ### Blocks -/

/-- The bytes that `put_literal_header` writes for a field. -/
def putField (field : Str × Str) : Bytes := putLiteralHeader (utf8 field.1) (utf8 field.2)

/-- A header block: the prefix and the fields. -/
def headerBlock (fields : List (Str × Str)) : Bytes := [0x00, 0x00] ++ fields.flatMap putField

theorem fieldNext_fields (fields : List (Str × Str)) :
    FieldNext (fields.flatMap putField) := by
  intro b hb
  cases fields with
  | nil => cases hb
  | cons field fields =>
    obtain ⟨-, -, -, -, hbounds⟩ := literal_bits (min (utf8 field.1).length 7) (by omega)
    rw [List.flatMap_cons, putField, putLiteralHeader_eq] at hb
    obtain rfl := Option.some.inj hb
    exact hbounds

theorem prefix_of_parseHeadersGo {payload : Bytes} {i : Nat} {headers out : List (Str × Str)}
    (h : parseHeadersGo payload i headers = .ok out) : headers <+: out := by
  induction i, headers using parseHeadersGo.induct payload with
  | case1 i headers hlt e hfield =>
    rw [parseHeadersGo, if_pos hlt, hfield] at h
    cases h
  | case2 i headers hlt hfield =>
    rw [parseHeadersGo, if_pos hlt, hfield] at h
    exact Except.ok.inj h ▸ List.prefix_rfl
  | case3 i headers hlt header j hfield ih =>
    rw [parseHeadersGo, if_pos hlt, hfield] at h
    exact (List.prefix_append ..).trans (ih h)
  | case4 i headers hlt =>
    rw [parseHeadersGo, if_neg hlt] at h
    exact Except.ok.inj h ▸ List.prefix_rfl

/-- **The fields** that are left are read as they were written, exactly if none has a value of 127 bytes. -/
theorem parseHeadersGo_fields {payload : Bytes} (hlen : payload.length < 2 ^ 64) {i : Nat}
    {fields : List (Str × Str)} (headers : List (Str × Str))
    (h : payload.drop i = fields.flatMap putField) :
    parseHeadersGo payload i headers = .ok (headers ++ fields) ↔
      ∀ field ∈ fields, (utf8 field.2).length ≠ 127 := by
  induction fields generalizing i headers with
  | nil =>
    rw [parseHeadersGo, if_neg (not_lt.mpr (List.drop_eq_nil_iff.mp h)), List.append_nil]
    exact iff_of_true rfl (by simp)
  | cons field fields ih =>
    obtain ⟨name, value⟩ := field
    rw [List.flatMap_cons] at h
    change payload.drop i = putLiteralHeader (utf8 name) (utf8 value) ++ fields.flatMap putField at h
    have hi : i < payload.length := by
      have hlength := length_of_drop h (by rw [putLiteralHeader_eq]; exact List.cons_ne_nil _ _)
      rw [List.length_append, putLiteralHeader_eq, List.length_append] at hlength
      have hpos := length_qpackInteger_pos 3 0x20 (utf8 name).length
      omega
    rw [List.forall_mem_cons, parseHeadersGo, if_pos hi]
    -- the length of 127 fills the prefix, and the byte that should follow is missing
    by_cases hvalue : (utf8 value).length = 127
    · refine iff_of_false (fun hgo => ?_) fun hall => hall.1 hvalue
      have hparts := h
      rw [putLiteralHeader_eq, if_pos hvalue] at hparts
      simp only [List.append_assoc] at hparts
      rw [qpackField_name hlen hparts] at hgo
      have hdrop := drop_add_of_drop (drop_add_of_drop hparts)
      have hne := qpackValue_127 hvalue (fieldNext_fields fields) hdrop
      generalize qpackValue payload _ = r at hgo hne
      rcases r with e | - | ⟨value', stop⟩
      · cases hgo
      · have hlt := congrArg List.length (Except.ok.inj hgo)
        rw [List.length_append, List.length_cons] at hlt
        omega
      · -- what was read is a front of the result, so the value would have to be the one that was written
        have hprefix := prefix_of_parseHeadersGo hgo
        obtain ⟨out, hout⟩ := hprefix
        rw [List.append_assoc] at hout
        obtain ⟨heq, -⟩ := List.cons.inj (List.append_cancel_left hout)
        obtain rfl := (Prod.mk.inj heq).2
        exact hne stop rfl
    · rw [qpackField_put hlen hvalue h]
      have hnext := ih (headers ++ [(name, value)]) (drop_add_of_drop h)
      rw [List.append_assoc, List.singleton_append] at hnext
      exact hnext.trans (and_iff_right hvalue).symm

theorem parseHeaders_headerBlock {fields : List (Str × Str)} (hlen : (headerBlock fields).length < 2 ^ 64) :
    parseHeadersFromQpack (headerBlock fields) = .ok (.ok fields) ↔
      ∀ field ∈ fields, (utf8 field.2).length ≠ 127 := by
  have hshort : ¬ (headerBlock fields).length < 2 := by
    rw [headerBlock, List.length_append, List.length_cons, List.length_singleton]
    omega
  rw [← parseHeadersGo_fields hlen (i := 2) [] rfl, List.nil_append, parseHeadersFromQpack, if_neg hshort]
  cases parseHeadersGo (headerBlock fields) 2 [] with
  | error e => exact iff_of_false (fun h => by cases h) (fun h => by cases h)
  | ok out =>
    exact ⟨fun h => congrArg Except.ok (Except.ok.inj (Except.ok.inj h)), fun h => by
      rw [Except.ok.inj h]
      rfl⟩

/-! ### The request that authenticates -/

/-- The fields of `authenticate`. -/
def authFields (password rx : Str) (padding : Bytes) : List (Str × Str) :=
  [(":method".toList, "POST".toList), (":scheme".toList, "https".toList),
    (":authority".toList, "hysteria".toList), (":path".toList, "/auth".toList),
    ("hysteria-auth".toList, password), ("hysteria-cc-rx".toList, rx),
    ("hysteria-padding".toList, fromUtf8Lossy padding)]

/-- Padding is ASCII, so it comes through the lossy conversion as it is. -/
theorem utf8_fromUtf8Lossy_randomPadding (min max seed : Nat) :
    utf8 (fromUtf8Lossy (randomPadding min max seed)) = randomPadding min max seed := by
  have hascii : ∀ b ∈ randomPadding min max seed, b.toNat < 128 := by
    intro b hb
    obtain ⟨i, -, rfl⟩ := List.mem_map.mp hb
    have hchars : ∀ b ∈ utf8 "abcdefghijklmnopqrstuvwxyzABCDEFGHIJKLMNOPQRSTUVWXYZ0123456789".toList,
        b.toNat < 128 := by
      decide +kernel
    rw [List.getD_eq_getElem?_getD]
    cases hget : (utf8 "abcdefghijklmnopqrstuvwxyzABCDEFGHIJKLMNOPQRSTUVWXYZ0123456789".toList)[
        (UInt64.ofNat seed + UInt64.ofNat i * 6364136223846793005).toNat
          % (utf8 "abcdefghijklmnopqrstuvwxyzABCDEFGHIJKLMNOPQRSTUVWXYZ0123456789".toList).length]? with
    | none => decide
    | some b => exact hchars b (List.mem_of_getElem? hget)
  have htext : ∀ bs : Bytes, (∀ b ∈ bs, b.toNat < 128) →
      utf8 (bs.map fun b => Char.ofNat b.toNat) = bs := by
    intro bs hbs
    induction bs with
    | nil => rfl
    | cons b bs ih =>
      have hb : utf8 [Char.ofNat b.toNat] = [b] :=
        (fromUtf8_eq_some_iff _ _).mp (fromUtf8_ascii (hbs b List.mem_cons_self))
      rw [List.map_cons, ← List.singleton_append, utf8_append, hb,
        ih fun b' hb' => hbs b' (List.mem_cons_of_mem b hb')]
      rfl
  rw [← htext _ hascii, fromUtf8Lossy_utf8]

theorem authHeaders_eq (password rx : Str) (min max seed : Nat) :
    authHeaders password rx (randomPadding min max seed)
      = headerBlock (authFields password rx (randomPadding min max seed)) := by
  rw [headerBlock, authFields, authHeaders]
  simp only [List.flatMap_cons, List.flatMap_nil, putField, utf8_fromUtf8Lossy_randomPadding,
    List.append_assoc, List.append_nil]

theorem length_utf8_display_lt (n : UInt64) : (utf8 (display n.toNat)).length < 127 := by
  have hdigits : (display n.toNat).length ≤ 20 :=
    (Nat.length_toDigits_le_iff (by decide) (by decide)).mpr (n.toNat_lt.trans (by decide))
  have hle := length_utf8_le (display n.toNat)
  omega

/-- **A header block** is read as it was written exactly if no value in it has 127 bytes; a password of 127
    bytes does not reach the server. -/
theorem headerBlock_roundTrips_iff (fields : List (Str × Str)) (password : Str) (rxBps : UInt64)
    (seed : Nat) :
    ((headerBlock fields).length < 2 ^ 64 →
      (parseHeadersFromQpack (headerBlock fields) = .ok (.ok fields) ↔
        ∀ field ∈ fields, (utf8 field.2).length ≠ 127)) ∧
      ((authHeaders password (display rxBps.toNat) (randomPadding 256 2048 seed)).length < 2 ^ 64 →
        (parseHeadersFromQpack (authHeaders password (display rxBps.toNat) (randomPadding 256 2048 seed))
            = .ok (.ok (authFields password (display rxBps.toNat) (randomPadding 256 2048 seed))) ↔
          (utf8 password).length ≠ 127)) := by
  refine ⟨fun hlen => parseHeaders_headerBlock hlen, fun hlen => ?_⟩
  rw [authHeaders_eq] at hlen ⊢
  rw [parseHeaders_headerBlock hlen, authFields]
  have hrx := length_utf8_display_lt rxBps
  have hpadding := length_randomPadding 256 2048 seed
  simp only [List.forall_mem_cons, List.not_mem_nil, false_imp_iff, implies_true, and_true,
    utf8_fromUtf8Lossy_randomPadding]
  constructor
  · rintro ⟨-, -, -, -, hpassword, -⟩
    exact hpassword
  · intro hpassword
    refine ⟨by decide, by decide, by decide, by decide, hpassword, by omega, by omega⟩

theorem headerBlock_roundTrips_status :
    parseHeadersFromQpack (headerBlock [(":status".toList, "200".toList)])
        = .ok (.ok [(":status".toList, "200".toList)]) ∧
      parseHeadersFromQpack (authHeaders "secret".toList (display (0 : UInt64).toNat)
          (randomPadding 256 2048 0))
        = .ok (.ok (authFields "secret".toList (display (0 : UInt64).toNat) (randomPadding 256 2048 0))) :=
  ⟨((headerBlock_roundTrips_iff _ [] 0 0).1 (by decide)).mpr (by decide),
    ((headerBlock_roundTrips_iff [] "secret".toList 0 0).2 (by decide +kernel)).mpr (by decide)⟩

/-- A password of 127 characters has a length that does not fit into the prefix of its field, and the block is not
    read back. -/
theorem headerBlock_not_roundTrips :
    ¬ ∀ fields : List (Str × Str), (∀ field ∈ fields, field.1 ≠ []) →
      parseHeadersFromQpack (headerBlock fields) = .ok (.ok fields) := by
  intro h
  have hlost : parseHeadersFromQpack (headerBlock [("hysteria-auth".toList, List.replicate 127 'a')])
      = .ok (.ok []) := by
    decide +kernel
  have hread := h [("hysteria-auth".toList, List.replicate 127 'a')] (by decide)
  rw [hlost] at hread
  cases hread

end Reflex.Hy2
