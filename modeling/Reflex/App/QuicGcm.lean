import Mathlib.Tactic.Ring
import Reflex.App.Aes
import Reflex.RustStd.Slice

namespace Reflex.App

open RustStd Gcm

/-!
# Sniffing — AES-128-GCM

`aes128_gcm_decrypt` of `app/sniff.rs`.  The tag that it compares with is the block `S` of the
standard, which has yet to be masked with the first block of the key stream.

* `ctrDecrypt_eq` — the loop over the ciphertext is counter mode;
* `gcmTag_eq` — what is compared with the tag;
* `aes128GcmDecrypt_encrypt` — decryption of what the standard encrypts;
* `opensSealed_iff` — for which keys and nonces it succeeds.
-/

/-! ### The code -/

/-- `gcm_inc32`. -/
def gcmInc32 (block : Block) : Block :=
  let n := UInt32.ofNat (beVal (block.toList.drop 12))
  blockOf (block.toList.take 12 ++ beBytes 4 (n + 1).toNat)

/-- `padded_chunks`. -/
def paddedChunks (data : Bytes) : List Block :=
  let full := data.length / 16
  let rem := data.length % 16
  ((List.range full).map fun i => blockOf (slice data (i * 16) 16))
    ++ if 0 < rem then [blockOf (data.drop (full * 16))] else []

/-- The shift of `v` in `gf128_mul`. -/
def shiftRight (v : Block) : Block :=
  Vector.ofFn fun j =>
    if j.val = 0 then v.get j >>> 1
    else (v.get j >>> 1) ||| ((v.toList.getD (j.val - 1) 0 &&& 1) <<< 7)

/-- A round of `gf128_mul`, on `z` and `v`. -/
def gf128Round (x : Block) (zv : Block × Block) (i : Nat) : Block × Block :=
  let (z, v) := zv
  let z := if (x.toList.getD (i / 8) 0 >>> UInt8.ofNat (7 - i % 8)) &&& 1 = 1 then xor z v else z
  let shifted := shiftRight v
  (z, if v.toList.getD 15 0 &&& 1 = 1 then xor shifted (blockOf [0xE1]) else shifted)

/-- `gf128_mul`. -/
def gf128Mul (x y : Block) : Block := ((List.range 128).foldl (gf128Round x) (zero, y)).1

/-- `gcm_tag`.  The key, the nonce and the round keys that it is given are not used. -/
def gcmTag (h : Block) (aad ciphertext : Bytes) : Block :=
  let absorb := fun y chunk => gf128Mul (xor y chunk) h
  let y := (paddedChunks aad).foldl absorb zero
  let y := (paddedChunks ciphertext).foldl absorb y
  let aadBits := UInt64.ofNat aad.length * 8
  let ctBits := UInt64.ofNat ciphertext.length * 8
  absorb y (blockOf (beBytes 8 aadBits.toNat ++ beBytes 8 ctBits.toNat))

/-- The loop of `aes128_gcm_decrypt` over the ciphertext, from a counter on. -/
def ctrDecrypt (roundKeys : Vector Block 11) (counter : Block) (ciphertext : Bytes) : Bytes :=
  if ciphertext = [] then []
  else
    let keystream := aes128EncryptBlock roundKeys counter
    List.zipWith (· ^^^ ·) (ciphertext.take 16) keystream.toList
      ++ ctrDecrypt roundKeys (gcmInc32 counter) (ciphertext.drop 16)
termination_by ciphertext.length
decreasing_by
  rw [List.length_drop]
  have := List.length_pos_iff.mpr ‹ciphertext ≠ []›
  omega

/-- `aes128_gcm_decrypt`. -/
def aes128GcmDecrypt (key nonce aad ciphertext tag : Bytes) : Option Bytes :=
  if key.length ≠ 16 ∨ nonce.length ≠ 12 ∨ tag.length ≠ 16 then none
  else
    let roundKeys := aes128KeySchedule key
    let j0 := blockOf (nonce ++ [0, 0, 0, 1])
    let hBlock := aes128EncryptBlock roundKeys zero
    if (gcmTag hBlock aad ciphertext).toList ≠ tag then none
    else some (ctrDecrypt roundKeys (gcmInc32 j0) ciphertext)

/-- The block function under a key, which GCM is instantiated with. -/
def cipher (key : Bytes) : Block → Block := aes128EncryptBlock (aes128KeySchedule key)

/-- What AES-128-GCM seals is opened, and with no other tag. -/
def OpensSealed (key nonce aad plaintext : Bytes) : Prop :=
  let (ciphertext, tag) := encrypt (cipher key) gf128Mul nonce aad plaintext
  aes128GcmDecrypt key nonce aad ciphertext tag.toList = some plaintext ∧
    ∀ other, other ≠ tag.toList → aes128GcmDecrypt key nonce aad ciphertext other = none

/-! ### Counter mode -/

/-- A field of `w` bytes holds a number modulo its range. -/
theorem beBytes_mod (w n : Nat) : beBytes w (n % 256 ^ w) = beBytes w n := by
  have hle : leBytes w (n % 256 ^ w) = leBytes w n := by
    have := leBytes_leVal (leBytes w n)
    rwa [length_leBytes, leVal_leBytes] at this
  rw [beBytes, beBytes, hle]

theorem gcmInc32_eq (block : Block) : gcmInc32 block = inc32 block := by
  have hnat : (UInt32.ofNat (beVal (block.toList.drop 12)) + 1).toNat
      = (beVal (block.toList.drop 12) + 1) % 256 ^ 4 := by
    rw [UInt32.toNat_add, UInt32.toNat_ofNat']
    exact Nat.mod_add_mod _ _ _
  rw [gcmInc32, inc32, hnat, beBytes_mod]

/-- **The loop over the ciphertext** is counter mode. -/
theorem ctrDecrypt_eq (roundKeys : Vector Block 11) (counter : Block) (ciphertext : Bytes) :
    ctrDecrypt roundKeys counter ciphertext
      = gctr (aes128EncryptBlock roundKeys) counter ciphertext := by
  fun_induction ctrDecrypt roundKeys counter ciphertext with
  | case1 counter => rfl
  | case2 counter ciphertext hne keystream ih =>
    rw [ih, gcmInc32_eq, gctr_split _ _ ciphertext]

/-! ### The tag -/

theorem blockOf_slice (data : Bytes) (i : Nat) : blockOf (slice data (i * 16) 16)
    = blockOf (data.drop (16 * i)) := by
  refine Vector.ext fun j hj => ?_
  rw [blockOf, blockOf, Vector.getElem_ofFn, Vector.getElem_ofFn, slice, Nat.mul_comm,
    List.getD_eq_getElem?_getD, List.getD_eq_getElem?_getD, List.getElem?_take_of_lt hj]

/-- **The chunks** are the blocks of the padded data. -/
theorem paddedChunks_eq (data : Bytes) : paddedChunks data = toBlocks (pad16 data) := by
  rw [toBlocks_pad16, paddedChunks]
  simp only [blockOf_slice]
  by_cases hrem : 0 < data.length % 16
  · have hcount : (data.length + 15) / 16 = data.length / 16 + 1 := by omega
    rw [if_pos hrem, hcount, List.range_succ, List.map_append, Nat.mul_comm]
    rfl
  · have hcount : (data.length + 15) / 16 = data.length / 16 := by omega
    rw [if_neg hrem, hcount, List.append_nil]

theorem toNat_ofNat_mul_eight (n : Nat) : (UInt64.ofNat n * 8).toNat = (8 * n) % 256 ^ 8 := by
  rw [UInt64.toNat_mul, UInt64.toNat_ofNat', Nat.mul_comm 8]
  exact Nat.mod_mul_mod _ _ _

theorem toBlocks_lengths (a c : Bytes) : toBlocks (lengths a c) = [blockOf (lengths a c)] := by
  have hlen : (lengths a c).length / 16 = 1 := by
    simp only [lengths, List.length_append, length_beBytes]
  rw [toBlocks, hlen]
  rfl

/-- **What is compared with the tag** is the block that the standard masks. -/
theorem gcmTag_eq (h : Block) (aad ciphertext : Bytes) :
    gcmTag h aad ciphertext = authBlock gf128Mul h aad ciphertext := by
  have hpadded : 16 ∣ (pad16 aad ++ pad16 ciphertext).length := by
    rw [List.length_append]
    exact Nat.dvd_add (length_pad16_dvd aad) (length_pad16_dvd ciphertext)
  rw [authBlock, ghash, toBlocks_append hpadded, toBlocks_append (length_pad16_dvd aad),
    toBlocks_lengths, List.foldl_append, List.foldl_append, ← paddedChunks_eq, ← paddedChunks_eq,
    lengths, ← beBytes_mod 8 (8 * aad.length), ← beBytes_mod 8 (8 * ciphertext.length),
    ← toNat_ofNat_mul_eight, ← toNat_ofNat_mul_eight]
  rfl

/-! ### Decryption -/

section Decrypt

variable {key nonce : Bytes}

/-- **Decryption** under a key and a nonce of the right length. -/
theorem aes128GcmDecrypt_eq (hkey : key.length = 16) (hnonce : nonce.length = 12)
    (aad ciphertext tag : Bytes) :
    aes128GcmDecrypt key nonce aad ciphertext tag
      = if (authBlock gf128Mul (cipher key zero) aad ciphertext).toList = tag then
          some (gctr (cipher key) (inc32 (counter0 nonce)) ciphertext)
        else none := by
  simp only [aes128GcmDecrypt, gcmTag_eq, ctrDecrypt_eq, gcmInc32_eq]
  by_cases htag : (authBlock gf128Mul (cipher key zero) aad ciphertext).toList = tag
  · have hlen : tag.length = 16 := by
      rw [← htag]
      exact Vector.length_toList
    rw [if_pos htag, if_neg (by simp [hkey, hnonce, hlen])]
    exact if_neg (not_not.mpr htag)
  · rw [if_neg htag]
    split
    · rfl
    · exact if_pos htag

/-- The tag of the standard is the one that is compared if its mask is zero. -/
theorem toList_xor_eq_iff (s mask : Block) : s.toList = (xor s mask).toList ↔ mask = zero := by
  rw [Vector.toList_inj, eq_comm, xor_eq_left_iff]

/-- **Opening** what the standard has sealed: the code leaves out the mask of the tag, so it gives the plaintext only
    if that block is zero. -/
theorem aes128GcmDecrypt_encrypt (hkey : key.length = 16) (hnonce : nonce.length = 12)
    (aad plaintext : Bytes) :
    aes128GcmDecrypt key nonce aad (encrypt (cipher key) gf128Mul nonce aad plaintext).1
        (encrypt (cipher key) gf128Mul nonce aad plaintext).2.toList
      = if cipher key (counter0 nonce) = zero then some plaintext else none := by
  simp only [encrypt, aes128GcmDecrypt_eq hkey hnonce, gctr_gctr, toList_xor_eq_iff]

end Decrypt

/-- A sealed packet is opened, and with no other tag, exactly if the first block of the key stream,
    which masks the tag, is zero. -/
theorem opensSealed_iff (key nonce aad plaintext : Bytes) (hkey : key.length = 16)
    (hnonce : nonce.length = 12) :
    OpensSealed key nonce aad plaintext ↔ cipher key (counter0 nonce) = zero := by
  have hopen := aes128GcmDecrypt_encrypt hkey hnonce aad plaintext
  constructor
  · rintro ⟨hsealed, -⟩
    by_contra hmask
    rw [if_neg hmask] at hopen
    cases hsealed.symm.trans hopen
  · intro hmask
    rw [if_pos hmask] at hopen
    refine ⟨hopen, fun other hother => ?_⟩
    rw [aes128GcmDecrypt_eq hkey hnonce, if_neg]
    rintro rfl
    exact hother ((toList_xor_eq_iff _ _).mpr hmask)

/-- Sixteen bytes of zeros. -/
def zeroKey : Bytes := List.replicate 16 0

/-- Twelve bytes of zeros. -/
def zeroNonce : Bytes := List.replicate 12 0

theorem opensSealed_iff_zeroKey :
    OpensSealed zeroKey zeroNonce [] [] ↔ cipher zeroKey (counter0 zeroNonce) = zero :=
  opensSealed_iff zeroKey zeroNonce [] [] (by decide) (by decide)

/-- An empty packet, sealed under a key and a nonce of zeros, is not opened. -/
theorem not_opensSealed_zeroKey :
    ¬ ∀ key nonce aad plaintext, key.length = 16 → nonce.length = 12 →
      OpensSealed key nonce aad plaintext := by
  intro h
  have hsealed := (h zeroKey zeroNonce [] [] (by decide) (by decide)).1
  have hkey : zeroKey.length = 16 := by decide
  have hnonce : zeroNonce.length = 12 := by decide
  have hopen := aes128GcmDecrypt_encrypt hkey hnonce [] []
  have hmask : cipher zeroKey (counter0 zeroNonce) ≠ zero := by decide +kernel
  rw [if_neg hmask] at hopen
  cases hsealed.symm.trans hopen

end Reflex.App
