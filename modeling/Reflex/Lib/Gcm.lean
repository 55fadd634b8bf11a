import Mathlib.Data.Nat.ModEq
import Mathlib.Logic.Function.Iterate
import Reflex.RustStd.Num

namespace Gcm

open RustStd

/-!
# Galois/Counter Mode

The mode of operation for authenticated encryption, with initialization vectors of 96 bits, tags of
128 bits and data of whole bytes, over any block cipher and any multiplication of blocks.

* `gctr`, `ghash`, `encrypt`, `decrypt` — the functions of the standard;
* `decrypt_encrypt`, `decrypt_eq_some_iff` — decryption inverts encryption;
* `gctr_gctr`, `gctr_split` — counter mode is its own inverse, and goes block by block;
* `toBlocks_append`, `toBlocks_pad16` — the blocks of padded data.
-/

/-- A block of 128 bits. -/
abbrev Block := Vector UInt8 16

/-- The numerals that are indices of a block, and of one of its words. -/
scoped instance instNeZeroBlock : NeZero 16 := ⟨by decide⟩

scoped instance instNeZeroWord : NeZero 4 := ⟨by decide⟩

/-- `0^128`. -/
def zero : Block := Vector.replicate 16 0

/-- The first sixteen bytes, with zeros for those that are missing. -/
def blockOf (bs : List UInt8) : Block := Vector.ofFn fun j => bs.getD j 0

/-- The exclusive-OR of blocks. -/
def xor (a b : Block) : Block := Vector.zipWith (· ^^^ ·) a b

theorem mod_lt (i : Nat) : i % 16 < 16 := Nat.mod_lt i (by decide)

/-! ### The functions of the standard -/

/-- The incrementing function `inc_32`. -/
def inc32 (b : Block) : Block :=
  blockOf (b.toList.take 12 ++ beBytes 4 (beVal (b.toList.drop 12) + 1))

/-- Byte `i` of the key stream that starts at a counter block. -/
def keyByte (cipher : Block → Block) (icb : Block) (i : Nat) : UInt8 :=
  (cipher (inc32^[i / 16] icb)).get ⟨i % 16, mod_lt i⟩

/-- `GCTR`. -/
def gctr (cipher : Block → Block) (icb : Block) (data : List UInt8) : List UInt8 :=
  data.mapIdx fun i b => b ^^^ keyByte cipher icb i

/-- `GHASH` with the hash subkey `h`. -/
def ghash (mul : Block → Block → Block) (h : Block) (blocks : List Block) : Block :=
  blocks.foldl (fun y x => mul (xor y x) h) zero

/-- Data with the zeros that fill its last block. -/
def pad16 (data : List UInt8) : List UInt8 :=
  data ++ List.replicate ((16 - data.length % 16) % 16) 0

/-- The blocks of data whose length is that of whole blocks. -/
def toBlocks (data : List UInt8) : List Block :=
  (List.range (data.length / 16)).map fun i => blockOf (data.drop (16 * i))

/-- The lengths of two strings in bits, in 64 bits each. -/
def lengths (a c : List UInt8) : List UInt8 := beBytes 8 (8 * a.length) ++ beBytes 8 (8 * c.length)

/-- The block that is the initialization vector and the counter 1, `J_0`. -/
def counter0 (iv : List UInt8) : Block := blockOf (iv ++ [0, 0, 0, 1])

/-- The block `S` of additional data and ciphertext. -/
def authBlock (mul : Block → Block → Block) (h : Block) (aad ciphertext : List UInt8) : Block :=
  ghash mul h (toBlocks (pad16 aad ++ pad16 ciphertext ++ lengths aad ciphertext))

/-- `GCM-AE`: the ciphertext and the tag. -/
def encrypt (cipher : Block → Block) (mul : Block → Block → Block) (iv aad plaintext : List UInt8) :
    List UInt8 × Block :=
  let ciphertext := gctr cipher (inc32 (counter0 iv)) plaintext
  -- `GCTR` of a single block
  let tag := xor (authBlock mul (cipher zero) aad ciphertext) (cipher (counter0 iv))
  (ciphertext, tag)

/-- `GCM-AD`: the plaintext, if the tag is right. -/
def decrypt (cipher : Block → Block) (mul : Block → Block → Block) (iv aad ciphertext : List UInt8)
    (tag : Block) : Option (List UInt8) :=
  if xor (authBlock mul (cipher zero) aad ciphertext) (cipher (counter0 iv)) = tag then
    some (gctr cipher (inc32 (counter0 iv)) ciphertext)
  else none

/-- The tag of a ciphertext. -/
def tagOf (cipher : Block → Block) (mul : Block → Block → Block) (iv aad ciphertext : List UInt8) : Block :=
  xor (authBlock mul (cipher zero) aad ciphertext) (cipher (counter0 iv))

theorem encrypt_snd (cipher : Block → Block) (mul : Block → Block → Block) (iv aad plaintext : List UInt8) :
    (encrypt cipher mul iv aad plaintext).2 = tagOf cipher mul iv aad (encrypt cipher mul iv aad plaintext).1 := rfl

/-! ### Counter mode -/

section Counter

variable (cipher : Block → Block) (icb : Block) (data : List UInt8)

/-- **Counter mode** twice is the data again. -/
theorem gctr_gctr : gctr cipher icb (gctr cipher icb data) = data := by
  rw [gctr, gctr, List.mapIdx_mapIdx]
  refine List.ext_getElem? fun i => ?_
  rw [List.getElem?_mapIdx]
  cases data[i]? with
  | none => rfl
  | some b =>
    show some (b ^^^ keyByte cipher icb i ^^^ keyByte cipher icb i) = some b
    rw [UInt8.xor_assoc, UInt8.xor_self, UInt8.xor_zero]

theorem length_gctr : (gctr cipher icb data).length = data.length := List.length_mapIdx

/-- **Decryption** inverts encryption, with the same key, vector and additional data. -/
theorem decrypt_encrypt (mul : Block → Block → Block) (iv aad plaintext : List UInt8) :
    decrypt cipher mul iv aad (encrypt cipher mul iv aad plaintext).1
      (encrypt cipher mul iv aad plaintext).2 = some plaintext := by
  rw [decrypt, encrypt, if_pos rfl, gctr_gctr]

/-- **What is decrypted** to a plaintext is what that plaintext is encrypted to, and nothing else. -/
theorem decrypt_eq_some_iff {mul : Block → Block → Block} {iv aad ciphertext plaintext : List UInt8}
    {tag : Block} :
    decrypt cipher mul iv aad ciphertext tag = some plaintext ↔
      encrypt cipher mul iv aad plaintext = (ciphertext, tag) := by
  constructor
  · intro h
    rw [decrypt] at h
    split at h
    · rename_i htag
      obtain rfl := Option.some.inj h
      rw [encrypt, gctr_gctr, htag]
    · cases h
  · intro h
    have hsealed := decrypt_encrypt cipher mul iv aad plaintext
    rwa [h] at hsealed

theorem keyByte_add (i : Nat) : keyByte cipher icb (i + 16) = keyByte cipher (inc32 icb) i := by
  have hdiv : (i + 16) / 16 = i / 16 + 1 := by omega
  simp only [keyByte, hdiv, Function.iterate_succ_apply, Nat.add_mod_right]

theorem keyByte_of_lt {i : Nat} (hi : i < 16) : keyByte cipher icb i = (cipher icb).get ⟨i, hi⟩ := by
  simp only [keyByte, Nat.div_eq_of_lt hi, Nat.mod_eq_of_lt hi, Function.iterate_zero, id_eq]

/-- The first block of the key stream. -/
theorem mapIdx_take : (data.take 16).mapIdx (fun i b => b ^^^ keyByte cipher icb i)
    = List.zipWith (· ^^^ ·) (data.take 16) (cipher icb).toList := by
  refine List.ext_getElem? fun i => ?_
  rw [List.getElem?_mapIdx, List.getElem?_zipWith]
  by_cases hi : i < 16
  · have hkey : (cipher icb).toList[i]? = some (keyByte cipher icb i) := by
      rw [keyByte_of_lt cipher icb hi, List.getElem?_eq_getElem (by simpa using hi)]
      simp [Vector.get]
    rw [hkey]
    cases (data.take 16)[i]? <;> rfl
  · rw [List.getElem?_eq_none (by rw [List.length_take]; omega)]
    rfl

/-- **Counter mode** goes on behind the first block with the next counter. -/
theorem gctr_split : gctr cipher icb data
    = List.zipWith (· ^^^ ·) (data.take 16) (cipher icb).toList
        ++ gctr cipher (inc32 icb) (data.drop 16) := by
  have hdata : data = data.take 16 ++ data.drop 16 := (List.take_append_drop 16 data).symm
  conv_lhs => rw [hdata]
  rw [gctr, List.mapIdx_append, mapIdx_take, gctr, List.append_cancel_left_eq]
  rcases Nat.lt_or_ge 16 data.length with hlt | hge
  · rw [List.length_take, Nat.min_eq_left (Nat.le_of_lt hlt)]
    simp only [keyByte_add]
  · rw [List.drop_of_length_le hge, List.mapIdx_nil, List.mapIdx_nil]

/-- **The first block** of counter mode is that of the data under the encrypted initial counter. -/
theorem take_gctr (h : 16 ≤ data.length) :
    (gctr cipher icb data).take 16 = List.zipWith (· ^^^ ·) (data.take 16) (cipher icb).toList := by
  rw [gctr_split, List.take_left']
  rw [List.length_zipWith, List.length_take_of_le h, Vector.length_toList, Nat.min_self]

theorem head?_gctr : (gctr cipher icb data).head? = data.head?.map (· ^^^ (cipher icb).get 0) := by
  cases data with
  | nil => rfl
  | cons b data =>
    rw [gctr, List.mapIdx_cons, List.head?_cons, List.head?_cons, Option.map_some,
      keyByte_of_lt cipher icb (by decide)]
    rfl

end Counter

/-! ### Blocks -/

theorem blockOf_toList (b : Block) : blockOf b.toList = b := by
  refine Vector.ext fun j hj => ?_
  rw [blockOf, Vector.getElem_ofFn, List.getD_eq_getElem?_getD,
    List.getElem?_eq_getElem (by simpa using hj), Option.getD_some, Vector.getElem_toList]

theorem xor_left_inj {a b mask : Block} : xor a mask = xor b mask ↔ a = b := by
  simp only [xor, Vector.ext_iff, Vector.getElem_zipWith, UInt8.xor_left_inj]

theorem xor_eq_left_iff {a b : Block} : xor a b = a ↔ b = zero := by
  have hbyte : ∀ x y : UInt8, x ^^^ y = x ↔ y = 0 := by
    intro x y
    constructor
    · intro h
      calc y = x ^^^ (x ^^^ y) := by rw [← UInt8.xor_assoc, UInt8.xor_self, UInt8.zero_xor]
        _ = 0 := by rw [h, UInt8.xor_self]
    · rintro rfl
      exact UInt8.xor_zero
  simp only [xor, zero, Vector.ext_iff, Vector.getElem_zipWith, Vector.getElem_replicate, hbyte]

/-- The blocks of two strings of whole blocks. -/
theorem toBlocks_append {a : List UInt8} (h : 16 ∣ a.length) (b : List UInt8) :
    toBlocks (a ++ b) = toBlocks a ++ toBlocks b := by
  obtain ⟨n, hn⟩ := h
  have hdiv : (16 * n + b.length) / 16 = n + b.length / 16 := by omega
  have hself : 16 * n / 16 = n := Nat.mul_div_cancel_left n (by decide)
  simp only [toBlocks, List.length_append, hn, hdiv, hself, List.range_add, List.map_append,
    List.map_map]
  refine congrArg₂ _ (List.map_congr_left fun i hi => ?_) (List.map_congr_left fun i _ => ?_)
  · -- the sixteen bytes of the block lie in `a`
    have hlt := List.mem_range.mp hi
    refine Vector.ext fun j hj => ?_
    rw [blockOf, blockOf, Vector.getElem_ofFn, Vector.getElem_ofFn, List.getD_eq_getElem?_getD,
      List.getD_eq_getElem?_getD, List.getElem?_drop, List.getElem?_drop,
      List.getElem?_append_left (by omega)]
  · rw [Function.comp, Nat.mul_add, ← hn, ← List.drop_drop, List.drop_left]

theorem length_pad16_dvd (data : List UInt8) : 16 ∣ (pad16 data).length := by
  rw [pad16, List.length_append, List.length_replicate]
  omega

/-- The zeros that fill the last block are those of `blockOf`. -/
theorem toBlocks_pad16 (data : List UInt8) : toBlocks (pad16 data)
    = (List.range ((data.length + 15) / 16)).map fun i => blockOf (data.drop (16 * i)) := by
  have hlen : (pad16 data).length / 16 = (data.length + 15) / 16 := by
    rw [pad16, List.length_append, List.length_replicate]
    omega
  rw [toBlocks, hlen]
  refine List.map_congr_left fun i _ => Vector.ext fun j hj => ?_
  rw [blockOf, blockOf, Vector.getElem_ofFn, Vector.getElem_ofFn, List.getD_eq_getElem?_getD,
    List.getD_eq_getElem?_getD, List.getElem?_drop, List.getElem?_drop, pad16]
  rcases Nat.lt_or_ge (16 * i + j) data.length with hlt | hge
  · rw [List.getElem?_append_left hlt]
  · rw [List.getElem?_append_right hge, List.getElem?_eq_none hge, List.getElem?_replicate]
    split <;> rfl

end Gcm
