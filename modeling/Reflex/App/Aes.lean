import Reflex.Lib.Gcm

namespace Reflex.App

open RustStd Gcm

/-!
# Sniffing — AES-128

The block function of `app/sniff.rs`, which it brings along for the first packets of QUIC.  Its arrays of sixteen
bytes are the blocks of `Gcm`.

* `aes128KeySchedule` — the eleven round keys, word by word;
* `subBytes`, `shiftRows`, `mixColumns` — the steps of a round, on a block that is stored column by column;
* `aes128EncryptBlock` — the ten rounds, the last one without `mixColumns`.

The substitution box is the table that stands in the source.  Nothing is assumed of the function: what depends on it
is proved for any block function, or computed with this one on fixed inputs.
-/

/-- `SBOX`. -/
def sbox : Bytes :=
  [0x63, 0x7c, 0x77, 0x7b, 0xf2, 0x6b, 0x6f, 0xc5, 0x30, 0x01, 0x67, 0x2b, 0xfe, 0xd7, 0xab, 0x76] ++
  [0xca, 0x82, 0xc9, 0x7d, 0xfa, 0x59, 0x47, 0xf0, 0xad, 0xd4, 0xa2, 0xaf, 0x9c, 0xa4, 0x72, 0xc0] ++
  [0xb7, 0xfd, 0x93, 0x26, 0x36, 0x3f, 0xf7, 0xcc, 0x34, 0xa5, 0xe5, 0xf1, 0x71, 0xd8, 0x31, 0x15] ++
  [0x04, 0xc7, 0x23, 0xc3, 0x18, 0x96, 0x05, 0x9a, 0x07, 0x12, 0x80, 0xe2, 0xeb, 0x27, 0xb2, 0x75] ++
  [0x09, 0x83, 0x2c, 0x1a, 0x1b, 0x6e, 0x5a, 0xa0, 0x52, 0x3b, 0xd6, 0xb3, 0x29, 0xe3, 0x2f, 0x84] ++
  [0x53, 0xd1, 0x00, 0xed, 0x20, 0xfc, 0xb1, 0x5b, 0x6a, 0xcb, 0xbe, 0x39, 0x4a, 0x4c, 0x58, 0xcf] ++
  [0xd0, 0xef, 0xaa, 0xfb, 0x43, 0x4d, 0x33, 0x85, 0x45, 0xf9, 0x02, 0x7f, 0x50, 0x3c, 0x9f, 0xa8] ++
  [0x51, 0xa3, 0x40, 0x8f, 0x92, 0x9d, 0x38, 0xf5, 0xbc, 0xb6, 0xda, 0x21, 0x10, 0xff, 0xf3, 0xd2] ++
  [0xcd, 0x0c, 0x13, 0xec, 0x5f, 0x97, 0x44, 0x17, 0xc4, 0xa7, 0x7e, 0x3d, 0x64, 0x5d, 0x19, 0x73] ++
  [0x60, 0x81, 0x4f, 0xdc, 0x22, 0x2a, 0x90, 0x88, 0x46, 0xee, 0xb8, 0x14, 0xde, 0x5e, 0x0b, 0xdb] ++
  [0xe0, 0x32, 0x3a, 0x0a, 0x49, 0x06, 0x24, 0x5c, 0xc2, 0xd3, 0xac, 0x62, 0x91, 0x95, 0xe4, 0x79] ++
  [0xe7, 0xc8, 0x37, 0x6d, 0x8d, 0xd5, 0x4e, 0xa9, 0x6c, 0x56, 0xf4, 0xea, 0x65, 0x7a, 0xae, 0x08] ++
  [0xba, 0x78, 0x25, 0x2e, 0x1c, 0xa6, 0xb4, 0xc6, 0xe8, 0xdd, 0x74, 0x1f, 0x4b, 0xbd, 0x8b, 0x8a] ++
  [0x70, 0x3e, 0xb5, 0x66, 0x48, 0x03, 0xf6, 0x0e, 0x61, 0x35, 0x57, 0xb9, 0x86, 0xc1, 0x1d, 0x9e] ++
  [0xe1, 0xf8, 0x98, 0x11, 0x69, 0xd9, 0x8e, 0x94, 0x9b, 0x1e, 0x87, 0xe9, 0xce, 0x55, 0x28, 0xdf] ++
  [0x8c, 0xa1, 0x89, 0x0d, 0xbf, 0xe6, 0x42, 0x68, 0x41, 0x99, 0x2d, 0x0f, 0xb0, 0x54, 0xbb, 0x16]

/-- `SBOX[b as usize]`. -/
def subByte (b : UInt8) : UInt8 := sbox.getD b.toNat 0

/-- `xtime`. -/
def xtime (x : UInt8) : UInt8 := (x <<< 1) ^^^ if x &&& 0x80 ≠ 0 then 0x1b else 0

/-- `RCON`. -/
def rcon : List UInt8 := [0x01, 0x02, 0x04, 0x08, 0x10, 0x20, 0x40, 0x80, 0x1b, 0x36]

/-- A column, four bytes. -/
abbrev Word := Vector UInt8 4

/-- `w[i]`, for an index that is in range. -/
def wordAt (w : List Word) (i : Nat) : Word := w.getD i (Vector.replicate 4 0)

/-- The rotation and substitution of every fourth word. -/
def keyCore (temp : Word) (round : UInt8) : Word :=
  #v[subByte (temp.get 1) ^^^ round, subByte (temp.get 2), subByte (temp.get 3), subByte (temp.get 0)]

/-- The loop of `aes128_key_schedule` that adds `w[i]`. -/
def scheduleWord (w : List Word) (i : Nat) : List Word :=
  let temp := wordAt w (i - 1)
  let temp := if i % 4 = 0 then keyCore temp (rcon.getD (i / 4 - 1) 0) else temp
  w ++ [Vector.zipWith (· ^^^ ·) (wordAt w (i - 4)) temp]

/-- `aes128_key_schedule` of a key of sixteen bytes. -/
def aes128KeySchedule (key : Bytes) : Vector Block 11 :=
  let keyWords := (List.range 4).map fun i => Vector.ofFn fun j : Fin 4 => key.getD (4 * i + j) 0
  let w := (List.range' 4 40).foldl scheduleWord keyWords
  Vector.ofFn fun i => Vector.ofFn fun k : Fin 16 =>
    (wordAt w (4 * i + k / 4)).get (Fin.ofNat 4 k.val)

/-- SubBytes. -/
def subBytes (s : Block) : Block := s.map subByte

/-- ShiftRows. -/
def shiftRows (s : Block) : Block :=
  #v[s.get 0, s.get 5, s.get 10, s.get 15, s.get 4, s.get 9, s.get 14, s.get 3,
    s.get 8, s.get 13, s.get 2, s.get 7, s.get 12, s.get 1, s.get 6, s.get 11]

/-- MixColumns on a column. -/
def mixColumn (s0 s1 s2 s3 : UInt8) : List UInt8 :=
  [xtime s0 ^^^ xtime s1 ^^^ s1 ^^^ s2 ^^^ s3, s0 ^^^ xtime s1 ^^^ xtime s2 ^^^ s2 ^^^ s3,
    s0 ^^^ s1 ^^^ xtime s2 ^^^ xtime s3 ^^^ s3, xtime s0 ^^^ s0 ^^^ s1 ^^^ s2 ^^^ xtime s3]

/-- MixColumns. -/
def mixColumns (s : Block) : Block :=
  blockOf (mixColumn (s.get 0) (s.get 1) (s.get 2) (s.get 3)
    ++ mixColumn (s.get 4) (s.get 5) (s.get 6) (s.get 7)
    ++ mixColumn (s.get 8) (s.get 9) (s.get 10) (s.get 11)
    ++ mixColumn (s.get 12) (s.get 13) (s.get 14) (s.get 15))

/-- One round of `aes128_encrypt_block`; the tenth does not mix the columns. -/
def aesRound (state : Block) (entry : Block × Nat) : Block :=
  let state := shiftRows (subBytes state)
  let state := if entry.2 < 10 then mixColumns state else state
  xor state entry.1

/-- `aes128_encrypt_block`. -/
def aes128EncryptBlock (roundKeys : Vector Block 11) (state : Block) : Block :=
  (roundKeys.toList.tail.zipIdx 1).foldl aesRound (xor state (roundKeys.get 0))

/-- The example in the standard of the cipher. -/
example : (aes128EncryptBlock
      (aes128KeySchedule [0, 1, 2, 3, 4, 5, 6, 7, 8, 9, 10, 11, 12, 13, 14, 15])
      (blockOf [0x00, 0x11, 0x22, 0x33, 0x44, 0x55, 0x66, 0x77, 0x88, 0x99, 0xaa, 0xbb, 0xcc, 0xdd,
        0xee, 0xff])).toList
    = [0x69, 0xc4, 0xe0, 0xd8, 0x6a, 0x7b, 0x04, 0x30, 0xd8, 0xcd, 0xb7, 0x80, 0x70, 0xb4, 0xc5,
        0x5a] := by decide +kernel

end Reflex.App
