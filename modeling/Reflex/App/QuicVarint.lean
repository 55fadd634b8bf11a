import Reflex.Lib.Machine
import Reflex.Outbound.Hy2Fragments

namespace Reflex.App

open RustStd Machine ByteStream Inbound Hy2

/-!
# Sniffing — the integers of QUIC

QUIC has integers of one, two, four and eight bytes.  `write_varint` of `outbound/hy2.rs` writes them, and
`read_varint_async` and `decode_varint_slice` there and `read_varint` of `app/sniff.rs` read them, each with
masks and shifts of its own.

* `shiftOr` — bytes that are shifted and joined are the value of the bytes;
* `Bits` — two of the readers as they are written, `bits_readVarintAsync` and `bits_decodeVarintSlice`;
* `readVarint_of_drop` — what the reader of the sniffer finds at a position;
* `varint_readers` — the readers agree, and read back what was written.
-/

/-! ### The readers -/

namespace Bits

/-- `read_varint_async`. -/
def readVarintAsync : Handler ConnError Nat := do
  let first ← readByte
  let tag := first >>> 6
  let high := (first &&& 0x3f).toUInt64
  if tag = 0 then return high.toNat
  else if tag = 1 then
    let b1 ← readByte
    return (high <<< 8 ||| b1.toUInt64).toNat
  else if tag = 2 then
    let rest ← readBytes 3
    let byte (i : Nat) : UInt64 := (rest.getD i 0).toUInt64
    return (high <<< 24 ||| byte 0 <<< 16 ||| byte 1 <<< 8 ||| byte 2).toNat
  else
    let rest ← readBytes 7
    let byte (i : Nat) : UInt64 := (rest.getD i 0).toUInt64
    return (high <<< 56 ||| byte 0 <<< 48 ||| byte 1 <<< 40 ||| byte 2 <<< 32 ||| byte 3 <<< 24
      ||| byte 4 <<< 16 ||| byte 5 <<< 8 ||| byte 6).toNat

/-- `decode_varint_slice`. -/
def decodeVarintSlice (buf : Bytes) : Checked (Except Str (Nat × Nat)) := do
  if buf = [] then return .error "varint: empty buffer".toList
  let first ← index buf 0
  let tag := first >>> 6
  let high := (first &&& 0x3f).toUInt64
  let byte (i : Nat) : Checked UInt64 := do
    let b ← index buf i
    return b.toUInt64
  if tag = 0 then return .ok (high.toNat, 1)
  else if tag = 1 then
    if buf.length < 2 then return .error "varint: truncated 2-byte".toList
    let b1 ← byte 1
    return .ok ((high <<< 8 ||| b1).toNat, 2)
  else if tag = 2 then
    if buf.length < 4 then return .error "varint: truncated 4-byte".toList
    let b1 ← byte 1
    let b2 ← byte 2
    let b3 ← byte 3
    return .ok ((high <<< 24 ||| b1 <<< 16 ||| b2 <<< 8 ||| b3).toNat, 4)
  else
    if buf.length < 8 then return .error "varint: truncated 8-byte".toList
    let b1 ← byte 1
    let b2 ← byte 2
    let b3 ← byte 3
    let b4 ← byte 4
    let b5 ← byte 5
    let b6 ← byte 6
    let b7 ← byte 7
    return .ok ((high <<< 56 ||| b1 <<< 48 ||| b2 <<< 40 ||| b3 <<< 32 ||| b4 <<< 24 ||| b5 <<< 16
      ||| b6 <<< 8 ||| b7).toNat, 8)

end Bits

/-- `read_varint` of the sniffer: the value and the number of bytes. -/
def readVarint (buf : Bytes) (pos : Nat) : Checked (Option (Nat × Nat)) :=
  if buf.length ≤ pos then return none
  else do
    let first ← index buf pos
    let lead := (first &&& 0xC0) >>> 6
    let high := first &&& 0x3F
    if lead = 0 then return some (high.toNat, 1)
    else if lead = 1 then
      if buf.length < pos + 2 then return none
      let b1 ← index buf (pos + 1)
      return some (beVal [high, b1], 2)
    else if lead = 2 then
      if buf.length < pos + 4 then return none
      let b1 ← index buf (pos + 1)
      let b2 ← index buf (pos + 2)
      let b3 ← index buf (pos + 3)
      return some (beVal [high, b1, b2, b3], 4)
    else if lead = 3 then
      if buf.length < pos + 8 then return none
      let b1 ← index buf (pos + 1)
      let b2 ← index buf (pos + 2)
      let b3 ← index buf (pos + 3)
      let b4 ← index buf (pos + 4)
      let b5 ← index buf (pos + 5)
      let b6 ← index buf (pos + 6)
      let b7 ← index buf (pos + 7)
      return some (beVal [high, b1, b2, b3, b4, b5, b6, b7], 8)
    else return none

/-! ### Masks and shifts -/

/-- The two highest bits of a byte, as the code has them by a shift. -/
theorem toNat_shiftRight_six (b : UInt8) : (b >>> 6).toNat = b.toNat / 64 := by
  rw [UInt8.toNat_shiftRight]
  exact Nat.shiftRight_eq_div_pow _ _

/-- The lower six bits of a byte are its remainder by 64, as the code has them by a mask. -/
theorem and_low_six (b : UInt8) : b &&& 0x3f = UInt8.ofNat (b.toNat % 64) := by
  have hb := b.toNat_lt
  rw [← UInt8.toNat_inj, UInt8.toNat_and, UInt8.toNat_ofNat', ← Nat.and_two_pow_sub_one_eq_mod b.toNat 6,
    Nat.mod_eq_of_lt (Nat.and_le_left.trans_lt hb)]
  rfl

/-- With a mask in front of the shift. -/
theorem and_high_shiftRight (b : UInt8) : (b &&& 0xC0) >>> 6 = b >>> 6 := by
  have hb := b.toNat_lt
  rw [← UInt8.toNat_inj, toNat_shiftRight_six, toNat_shiftRight_six, UInt8.toNat_and]
  show (b.toNat &&& 192) / 2 ^ 6 = b.toNat / 2 ^ 6
  rw [Nat.and_div_two_pow, ← Nat.mod_eq_of_lt (show b.toNat / 2 ^ 6 < 2 ^ 2 by omega),
    ← Nat.and_two_pow_sub_one_eq_mod, Nat.and_assoc]
  rfl

/-- The bytes, each shifted to its place. -/
def shiftOr : Bytes → UInt64
  | [] => 0
  | b :: bs => b.toUInt64 <<< UInt64.ofNat (8 * bs.length) ||| shiftOr bs

/-- **Shifted and joined**, eight bytes are their value. -/
theorem toNat_shiftOr {bs : Bytes} (h : bs.length ≤ 8) : (shiftOr bs).toNat = beVal bs := by
  induction bs with
  | nil => rfl
  | cons b bs ih =>
    rw [List.length_cons] at h
    have hlow : beVal bs < 2 ^ (8 * bs.length) := by
      rw [Nat.pow_mul]
      exact beVal_lt bs
    have hb := b.toNat_lt
    have hhigh : b.toNat * 2 ^ (8 * bs.length) < 2 ^ 64 := by
      calc b.toNat * 2 ^ (8 * bs.length) < 2 ^ 8 * 2 ^ (8 * bs.length) :=
            Nat.mul_lt_mul_of_pos_right hb (Nat.two_pow_pos _)
        _ = 2 ^ (8 + 8 * bs.length) := (Nat.pow_add ..).symm
        _ ≤ 2 ^ 64 := Nat.pow_le_pow_right (by decide) (by omega)
    have hshift : (UInt64.ofNat (8 * bs.length)).toNat % 64 = 8 * bs.length := by
      rw [UInt64.toNat_ofNat']
      omega
    rw [shiftOr, UInt64.toNat_or, UInt64.toNat_shiftLeft, ih (by omega), UInt8.toNat_toUInt64, hshift,
      Nat.shiftLeft_eq, Nat.mod_eq_of_lt hhigh, ← Nat.shiftLeft_eq, ← Nat.shiftLeft_add_eq_or_of_lt hlow,
      Nat.shiftLeft_eq, beVal_cons, Nat.pow_mul]

/-- Two bytes that are joined by shifts are a number in big-endian order; the same holds of four and eight. -/
theorem toNat_join_two (h a : UInt8) : (h.toUInt64 <<< 8 ||| a.toUInt64).toNat = beVal [h, a] := by
  have hjoin : (shiftOr [h, a]).toNat = beVal [h, a] := toNat_shiftOr (Nat.le_add_left 2 6)
  rw [← hjoin]
  simp [shiftOr]

theorem toNat_join_four (h a b c : UInt8) :
    (h.toUInt64 <<< 24 ||| a.toUInt64 <<< 16 ||| b.toUInt64 <<< 8 ||| c.toUInt64).toNat
      = beVal [h, a, b, c] := by
  have hjoin : (shiftOr [h, a, b, c]).toNat = beVal [h, a, b, c] := toNat_shiftOr (Nat.le_add_left 4 4)
  rw [← hjoin]
  simp [shiftOr, UInt64.or_assoc]

theorem toNat_join_eight (h a b c d e f g : UInt8) :
    (h.toUInt64 <<< 56 ||| a.toUInt64 <<< 48 ||| b.toUInt64 <<< 40 ||| c.toUInt64 <<< 32 ||| d.toUInt64 <<< 24
      ||| e.toUInt64 <<< 16 ||| f.toUInt64 <<< 8 ||| g.toUInt64).toNat = beVal [h, a, b, c, d, e, f, g] := by
  have hjoin : (shiftOr [h, a, b, c, d, e, f, g]).toNat = beVal [h, a, b, c, d, e, f, g] :=
    toNat_shiftOr (Nat.le_refl 8)
  rw [← hjoin]
  simp [shiftOr, UInt64.or_assoc]

theorem beVal_singleton (b : UInt8) : beVal [b] = b.toNat := by
  rw [beVal_cons, List.length_nil, Nat.pow_zero, Nat.mul_one]
  rfl

/-- The tag of a first byte and the number of bytes behind it. -/
theorem tag_cases (first : UInt8) :
    (first >>> 6 = 0 ∧ varintRest first = 0) ∨ (first >>> 6 = 1 ∧ varintRest first = 1) ∨
      (first >>> 6 = 2 ∧ varintRest first = 3) ∨ (first >>> 6 = 3 ∧ varintRest first = 7) := by
  have hlt := first.toNat_lt
  have htag := toNat_shiftRight_six first
  have hcases : first.toNat / 64 = 0 ∨ first.toNat / 64 = 1 ∨ first.toNat / 64 = 2 ∨
      first.toNat / 64 = 3 := by
    omega
  rcases hcases with h | h | h | h
  · exact Or.inl ⟨UInt8.toNat_inj.mp (htag.trans h), by simp only [varintRest, h]⟩
  · exact Or.inr (Or.inl ⟨UInt8.toNat_inj.mp (htag.trans h), by simp only [varintRest, h]⟩)
  · exact Or.inr (Or.inr (Or.inl ⟨UInt8.toNat_inj.mp (htag.trans h), by simp only [varintRest, h]⟩))
  · exact Or.inr (Or.inr (Or.inr ⟨UInt8.toNat_inj.mp (htag.trans h), by simp only [varintRest, h]⟩))

/-! ### What the readers find -/

theorem exists_three {rest : Bytes} (h : 3 ≤ rest.length) : ∃ a b c tail, rest = a :: b :: c :: tail := by
  match rest, h with
  | a :: b :: c :: tail, _ => exact ⟨a, b, c, tail, rfl⟩

theorem exists_seven {rest : Bytes} (h : 7 ≤ rest.length) :
    ∃ a b c d e f g tail, rest = a :: b :: c :: d :: e :: f :: g :: tail := by
  match rest, h with
  | a :: b :: c :: d :: e :: f :: g :: tail, _ => exact ⟨a, b, c, d, e, f, g, tail, rfl⟩

/-- **`decode_varint_slice`** as it is written, with shifts and masks, is the reading of a number, and never indexes
    behind the end. -/
theorem bits_decodeVarintSlice (buf : Bytes) : Bits.decodeVarintSlice buf = .ok (decodeVarintSlice buf) := by
  rcases buf with _ | ⟨first, rest⟩
  · rfl
  rw [Bits.decodeVarintSlice, if_neg (List.cons_ne_nil _ _), decodeVarintSlice, ← and_low_six]
  dsimp only
  rw [index_of_getElem? (a := first) rfl, ok_bind]
  -- the two highest bits say of how many bytes the number is: one, two, four or eight
  rcases tag_cases first with ⟨htag, hrest⟩ | ⟨htag, hrest⟩ | ⟨htag, hrest⟩ | ⟨htag, hrest⟩
  · rw [htag, hrest, if_pos rfl, if_pos (Nat.zero_le _), UInt8.toNat_toUInt64, List.take_zero,
      beVal_singleton]
    rfl
  · rw [htag, hrest, if_neg (by decide), if_pos rfl]
    by_cases hlen : 1 ≤ rest.length
    · obtain ⟨a, tail, rfl⟩ := List.exists_cons_of_length_pos hlen
      have h1 : index (first :: a :: tail) 1 = .ok a := rfl
      rw [if_pos hlen, if_neg (by rw [List.length_cons]; omega), h1, ok_bind, pure_bind, toNat_join_two]
      rfl
    · rw [if_neg hlen, if_pos (by rw [List.length_cons]; omega)]
      rfl
  · rw [htag, hrest, if_neg (by decide), if_neg (by decide), if_pos rfl]
    by_cases hlen : 3 ≤ rest.length
    · obtain ⟨a, b, c, tail, rfl⟩ := exists_three hlen
      rw [if_pos hlen, if_neg (by rw [List.length_cons]; omega)]
      have h1 : index (first :: a :: b :: c :: tail) 1 = .ok a := rfl
      have h2 : index (first :: a :: b :: c :: tail) 2 = .ok b := rfl
      have h3 : index (first :: a :: b :: c :: tail) 3 = .ok c := rfl
      rw [h1, h2, h3]
      simp only [ok_bind, pure_bind, toNat_join_four]
      rfl
    · rw [if_neg hlen, if_pos (by rw [List.length_cons]; omega)]
      rfl
  · rw [htag, hrest, if_neg (by decide), if_neg (by decide), if_neg (by decide)]
    by_cases hlen : 7 ≤ rest.length
    · obtain ⟨a, b, c, d, e, f, g, tail, rfl⟩ := exists_seven hlen
      rw [if_pos hlen, if_neg (by rw [List.length_cons]; omega)]
      -- seven indices, each within the buffer
      set buf := first :: a :: b :: c :: d :: e :: f :: g :: tail
      have h1 : index buf 1 = .ok a := rfl
      have h2 : index buf 2 = .ok b := rfl
      have h3 : index buf 3 = .ok c := rfl
      have h4 : index buf 4 = .ok d := rfl
      have h5 : index buf 5 = .ok e := rfl
      have h6 : index buf 6 = .ok f := rfl
      have h7 : index buf 7 = .ok g := rfl
      rw [h1, h2, h3, h4, h5, h6, h7]
      simp only [ok_bind, pure_bind, toNat_join_eight]
      rfl
    · rw [if_neg hlen, if_pos (by rw [List.length_cons]; omega)]
      rfl

/-- What follows a read depends on bytes of the number that was read. -/
theorem bind_readBytes_congr {α : Type} {n : Nat} {f g : Bytes → Handler ConnError α}
    (h : ∀ bs : Bytes, bs.length = n → f bs = g bs) : readBytes n >>= f = readBytes n >>= g := by
  funext s
  show Handler.andThen (readBytes n) f s = Handler.andThen (readBytes n) g s
  unfold Handler.andThen readBytes readExact
  by_cases hn : n ≤ s.input.length
  · rw [if_pos hn]
    dsimp only
    rw [h _ (List.length_take_of_le hn)]
  · rw [if_neg hn]

/-- One byte or a buffer of one byte. -/
theorem bind_readByte {α : Type} (f : UInt8 → Handler ConnError α) :
    readByte >>= f = readBytes 1 >>= fun bs => f (bs.getD 0 0) := by
  funext s
  obtain ⟨buf, output⟩ := s
  cases buf with
  | nil => rfl
  | cons b rest => rfl

/-- **`read_varint_async`** as it is written, with shifts and masks, is the reading of a number from a stream. -/
theorem bits_readVarintAsync : Bits.readVarintAsync = readVarintAsync := by
  unfold Bits.readVarintAsync readVarintAsync
  congr 1
  funext first
  rw [← and_low_six]
  dsimp only
  rcases tag_cases first with ⟨htag, hrest⟩ | ⟨htag, hrest⟩ | ⟨htag, hrest⟩ | ⟨htag, hrest⟩
  · rw [htag, hrest, if_pos rfl, UInt8.toNat_toUInt64, ← beVal_singleton]
    rfl
  · rw [htag, hrest, if_neg (by decide), if_pos rfl, bind_readByte]
    refine bind_readBytes_congr fun bs hbs => ?_
    obtain ⟨a, rfl⟩ := List.length_eq_one_iff.mp hbs
    exact congrArg pure (toNat_join_two _ a)
  · rw [htag, hrest, if_neg (by decide), if_neg (by decide), if_pos rfl]
    refine bind_readBytes_congr fun bs hbs => ?_
    obtain ⟨a, b, c, rfl⟩ := List.length_eq_three.mp hbs
    exact congrArg pure (toNat_join_four _ a b c)
  · rw [htag, hrest, if_neg (by decide), if_neg (by decide), if_neg (by decide)]
    refine bind_readBytes_congr fun bs hbs => ?_
    obtain ⟨a, b, c, d, e, f, g, tail, rfl⟩ := exists_seven hbs.ge
    have hnil : tail.length + 7 = 7 := hbs
    obtain rfl : tail = [] := List.eq_nil_of_length_eq_zero (Nat.add_eq_right.mp hnil)
    exact congrArg pure (toNat_join_eight _ a b c d e f g)

/-- A byte behind a position of the buffer is the byte of what is left from there on. -/
theorem index_add_of_drop {buf front : Bytes} {pos k : Nat} {a : UInt8} (h : buf.drop pos = front)
    (ha : front[k]? = some a) : index buf (pos + k) = .ok a := by
  refine index_of_getElem? ?_
  rw [← List.getElem?_drop, h, ha]

/-- **`read_varint`** at a position finds what `decode_varint_slice` does behind it. -/
theorem readVarint_of_drop {buf front : Bytes} {pos : Nat} (h : buf.drop pos = front) :
    readVarint buf pos = .ok (decodeVarintSlice front).toOption := by
  rcases front with _ | ⟨first, rest⟩
  · rw [readVarint, if_pos (List.drop_eq_nil_iff.mp h)]
    rfl
  have hlength := length_of_drop h (List.cons_ne_nil _ _)
  rw [List.length_cons] at hlength
  -- an index behind `pos` is one into what is left from there
  have hindex : ∀ {k a}, (first :: rest)[k]? = some a → index buf (pos + k) = .ok a :=
    fun ha => index_add_of_drop h ha
  rw [readVarint, if_neg (by omega), index_of_drop h, ok_bind, and_high_shiftRight, decodeVarintSlice,
    ← and_low_six]
  dsimp only
  -- the same four lengths, where the test of what is left is on the whole buffer
  rcases tag_cases first with ⟨htag, hrest⟩ | ⟨htag, hrest⟩ | ⟨htag, hrest⟩ | ⟨htag, hrest⟩
  · rw [htag, hrest, if_pos rfl, if_pos (Nat.zero_le _), List.take_zero, beVal_singleton]
    rfl
  · rw [htag, hrest, if_neg (by decide), if_pos rfl]
    by_cases hlen : 1 ≤ rest.length
    · obtain ⟨a, tail, rfl⟩ := List.exists_cons_of_length_pos hlen
      rw [if_pos hlen, if_neg (by omega), hindex (k := 1) (a := a) rfl]
      rfl
    · rw [if_neg hlen, if_pos (by omega)]
      rfl
  · rw [htag, hrest, if_neg (by decide), if_neg (by decide), if_pos rfl]
    by_cases hlen : 3 ≤ rest.length
    · obtain ⟨a, b, c, tail, rfl⟩ := exists_three hlen
      rw [if_pos hlen, if_neg (by omega), hindex (k := 1) (a := a) rfl, hindex (k := 2) (a := b) rfl,
        hindex (k := 3) (a := c) rfl]
      rfl
    · rw [if_neg hlen, if_pos (by omega)]
      rfl
  · rw [htag, hrest, if_neg (by decide), if_neg (by decide), if_neg (by decide), if_pos rfl]
    by_cases hlen : 7 ≤ rest.length
    · obtain ⟨a, b, c, d, e, f, g, tail, rfl⟩ := exists_seven hlen
      rw [if_pos hlen, if_neg (by omega), hindex (k := 1) (a := a) rfl, hindex (k := 2) (a := b) rfl,
        hindex (k := 3) (a := c) rfl, hindex (k := 4) (a := d) rfl, hindex (k := 5) (a := e) rfl,
        hindex (k := 6) (a := f) rfl, hindex (k := 7) (a := g) rfl]
      rfl
    · rw [if_neg hlen, if_pos (by omega)]
      rfl

/-- What `decode_varint_slice` takes is what `read_varint_async` takes. -/
theorem readVarintAsync_of_decode {buf : Bytes} {v n : Nat} (h : decodeVarintSlice buf = .ok (v, n))
    (output : Bytes) : n ≤ buf.length ∧ Yields readVarintAsync ⟨buf, output⟩ v ⟨buf.drop n, output⟩ := by
  rcases buf with _ | ⟨first, rest⟩
  · cases h
  unfold decodeVarintSlice at h
  dsimp only at h
  split at h
  · rename_i hlen
    obtain ⟨rfl, rfl⟩ := Prod.mk.inj (Except.ok.inj h)
    refine ⟨Nat.succ_le_succ hlen, ?_⟩
    simp only [readVarintAsync, readByte, readBytes, yields_bind, yields_readU8, yields_readExact]
    exact ⟨first, ⟨rest, output⟩, ⟨rfl, rfl⟩, rest.take (varintRest first),
      ⟨rest.drop (varintRest first), output⟩,
      ⟨(List.take_append_drop _ _).symm, List.length_take_of_le hlen, rfl⟩, yields_pure.mpr ⟨rfl, rfl⟩⟩
  · cases h

/-- Where the bytes end early for `decode_varint_slice`, they end early for `read_varint_async`. -/
theorem readVarintAsync_of_error {buf : Bytes} {e : Str} (h : decodeVarintSlice buf = .error e)
    (output : Bytes) : ∃ s, readVarintAsync ⟨buf, output⟩ = (.error .unexpectedEof, s) := by
  rcases buf with _ | ⟨first, rest⟩
  · exact ⟨_, rfl⟩
  unfold decodeVarintSlice at h
  dsimp only at h
  split at h
  · cases h
  · rename_i hlen
    have hread : readBytes (varintRest first) ⟨rest, output⟩ = (.error .unexpectedEof, ⟨[], output⟩) :=
      if_neg hlen
    refine ⟨⟨[], output⟩, ?_⟩
    show Handler.andThen (readBytes (varintRest first)) _ ⟨rest, output⟩ = _
    rw [Handler.andThen, hread]

/-- What `write_varint` wrote is read from the stream. -/
theorem reads_readVarintAsync {v : Nat} (h : v < 2 ^ 62) : Reads readVarintAsync (writeVarint v) v := by
  intro rest output
  obtain ⟨-, hyields⟩ := readVarintAsync_of_decode (decodeVarintSlice_writeVarint h rest) output
  rwa [List.drop_left] at hyields

/-- **The readers of integers.** Of an integer below `2 ^ 62` each of them gets back what `write_varint`
    wrote, in front of any bytes, and takes just its bytes; and on any bytes they agree on the value and the
    number of bytes, or the bytes end early for each of them. -/
theorem varint_readers :
    (∀ v < 2 ^ 62,
      (∀ rest, Bits.decodeVarintSlice (writeVarint v ++ rest) = .ok (.ok (v, (writeVarint v).length))) ∧
      (∀ front rest, readVarint (front ++ (writeVarint v ++ rest)) front.length =
        .ok (some (v, (writeVarint v).length))) ∧
      Reads Bits.readVarintAsync (writeVarint v) v) ∧
    ∀ bytes : Bytes,
      (∃ v n, n ≤ bytes.length ∧ Bits.decodeVarintSlice bytes = .ok (.ok (v, n)) ∧
        (∀ buf pos, buf.drop pos = bytes → readVarint buf pos = .ok (some (v, n))) ∧
        ∀ output, Yields Bits.readVarintAsync ⟨bytes, output⟩ v ⟨bytes.drop n, output⟩) ∨
      ((∃ e, Bits.decodeVarintSlice bytes = .ok (.error e)) ∧
        (∀ buf pos, buf.drop pos = bytes → readVarint buf pos = .ok none) ∧
        ∀ output, ∃ s, Bits.readVarintAsync ⟨bytes, output⟩ = (.error .unexpectedEof, s)) := by
  rw [bits_readVarintAsync]
  simp only [bits_decodeVarintSlice]
  refine ⟨fun v hv => ⟨fun rest => ?_, fun front rest => ?_, reads_readVarintAsync hv⟩, fun bytes => ?_⟩
  · rw [decodeVarintSlice_writeVarint hv]
  · rw [readVarint_of_drop List.drop_left, decodeVarintSlice_writeVarint hv]
    rfl
  · cases h : decodeVarintSlice bytes with
    | ok found =>
      obtain ⟨v, n⟩ := found
      refine Or.inl ⟨v, n, (readVarintAsync_of_decode h []).1, rfl, fun buf pos hdrop => ?_,
        fun output => (readVarintAsync_of_decode h output).2⟩
      rw [readVarint_of_drop hdrop, h]
      rfl
    | error e =>
      refine Or.inr ⟨⟨e, rfl⟩, fun buf pos hdrop => ?_, readVarintAsync_of_error h⟩
      rw [readVarint_of_drop hdrop, h]
      rfl

end Reflex.App
