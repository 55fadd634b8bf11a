import Mathlib.Data.Nat.Log

namespace Blake3

/-!
# BLAKE3

The hash function in its three modes, with digests of 32 bytes, over lists of bytes of any length.

* `compress` — the compression function: seven rounds over sixteen words, with the message permuted in between;
* `subtree` — the tree over the chunks: the left half has the largest power of two of chunks that leaves some for
  the right one;
* `hash`, `keyedHash`, `deriveKey` — the three modes, which differ in the key words and the flags;
* `deriveKey` derives its key words from a context string first.

The definitions follow the structure of the specification and not that of a streaming implementation, so that they
can be run on small inputs.
-/

/-! ### Compression -/

/-- Words in place of the state of the compression function. -/
abbrev Words := List UInt32

/-- `IV`. -/
def iv : Words :=
  [0x6A09E667, 0xBB67AE85, 0x3C6EF372, 0xA54FF53A, 0x510E527F, 0x9B05688C, 0x1F83D9AB, 0x5BE0CD19]

def chunkStart : UInt32 := 1
def chunkEnd : UInt32 := 2
def parent : UInt32 := 4
def root : UInt32 := 8
def keyedHashFlag : UInt32 := 16
def deriveKeyContext : UInt32 := 32
def deriveKeyMaterial : UInt32 := 64

/-- The order in which a round takes the words of the round before. -/
def permutation : List Nat := [2, 6, 3, 10, 7, 0, 4, 13, 1, 11, 12, 5, 9, 14, 15, 8]

def rotateRight (x n : UInt32) : UInt32 := (x >>> n) ||| (x <<< (32 - n))

/-- The quarter round. -/
def g (a b c d : Nat) (mx my : UInt32) (v : Words) : Words :=
  let va := v.getD a 0 + v.getD b 0 + mx
  let vd := rotateRight (v.getD d 0 ^^^ va) 16
  let vc := v.getD c 0 + vd
  let vb := rotateRight (v.getD b 0 ^^^ vc) 12
  let va := va + vb + my
  let vd := rotateRight (vd ^^^ va) 8
  let vc := vc + vd
  let vb := rotateRight (vb ^^^ vc) 7
  (((v.set a va).set b vb).set c vc).set d vd

/-- A round: the columns, then the diagonals. -/
def round (m v : Words) : Words :=
  let w (i : Nat) : UInt32 := m.getD i 0
  let v := g 3 7 11 15 (w 6) (w 7) (g 2 6 10 14 (w 4) (w 5)
    (g 1 5 9 13 (w 2) (w 3) (g 0 4 8 12 (w 0) (w 1) v)))
  g 3 4 9 14 (w 14) (w 15) (g 2 7 8 13 (w 12) (w 13)
    (g 1 6 11 12 (w 10) (w 11) (g 0 5 10 15 (w 8) (w 9) v)))

/-- So many rounds. -/
def rounds : Nat → Words → Words → Words
  | 0, _, v => v
  | n + 1, m, v => rounds n (permutation.map fun i => m.getD i 0) (round m v)

/-- A new chaining value from the old one and the words of a block. -/
def compress (cv block : Words) (counter : UInt64) (blockLen flags : UInt32) : Words :=
  let v := rounds 7 block (cv ++ iv.take 4
    ++ [counter.toUInt32, (counter >>> 32).toUInt32, blockLen, flags])
  (List.range 8).map fun i => v.getD i 0 ^^^ v.getD (i + 8) 0

/-! ### Words and bytes -/

/-- The word at four bytes; bytes that are missing are zero. -/
def wordAt (bs : List UInt8) (i : Nat) : UInt32 :=
  (bs.getD i 0).toUInt32 ||| (bs.getD (i + 1) 0).toUInt32 <<< 8
    ||| (bs.getD (i + 2) 0).toUInt32 <<< 16 ||| (bs.getD (i + 3) 0).toUInt32 <<< 24

/-- So many words. -/
def wordsOf (n : Nat) (bs : List UInt8) : Words := (List.range n).map fun i => wordAt bs (4 * i)

/-- The 32 bytes of a chaining value. -/
def bytesOf (ws : Words) : Vector UInt8 32 :=
  Vector.ofFn fun j => (ws.getD (j.val / 4) 0 >>> UInt32.ofNat (8 * (j.val % 4))).toUInt8

/-! ### Chunks and the tree above them -/

/-- The blocks of a chunk, `start` in front of the first and `last` at the last. -/
def blocks (counter : UInt64) (flags last : UInt32) : Nat → UInt32 → Words → List UInt8 → Words
  | 0, _, cv, _ => cv
  | n + 1, start, cv, bs =>
      if bs.length ≤ 64 then
        compress cv (wordsOf 16 bs) counter (UInt32.ofNat bs.length) (flags ||| start ||| chunkEnd ||| last)
      else
        blocks counter flags last n 0
          (compress cv (wordsOf 16 (bs.take 64)) counter 64 (flags ||| start)) (bs.drop 64)

/-- The chaining value of a part of the input that starts with chunk `counter`; a tree has its left
    half full. -/
def subtree (key : Words) (flags : UInt32) : Nat → UInt32 → UInt64 → List UInt8 → Words
  | 0, _, _, _ => key
  | fuel + 1, last, counter, bs =>
      if bs.length ≤ 1024 then blocks counter flags last 16 chunkStart key bs
      else
        let chunks := 2 ^ Nat.log 2 ((bs.length - 1) / 1024)
        let left := subtree key flags fuel 0 counter (bs.take (1024 * chunks))
        let right := subtree key flags fuel 0 (counter + UInt64.ofNat chunks) (bs.drop (1024 * chunks))
        compress key (left ++ right) 0 64 (flags ||| parent ||| last)

/-- The digest in the mode of a key and flags; every level of the tree has less than its bytes. -/
def digest (key : Words) (flags : UInt32) (input : List UInt8) : Vector UInt8 32 :=
  bytesOf (subtree key flags (input.length + 1) root 0 input)

/-! ### Modes -/

/-- `hash`. -/
def hash (input : List UInt8) : Vector UInt8 32 := digest iv 0 input

/-- `keyed_hash`. -/
def keyedHash (key : Vector UInt8 32) (input : List UInt8) : Vector UInt8 32 :=
  digest (wordsOf 8 key.toList) keyedHashFlag input

/-- `derive_key`, with the context in bytes. -/
def deriveKey (context material : List UInt8) : Vector UInt8 32 :=
  digest (wordsOf 8 (digest iv deriveKeyContext context).toList) deriveKeyMaterial material

example : (hash [0x61, 0x62, 0x63]).toList.take 8
    = [0x64, 0x37, 0xB3, 0xAC, 0x38, 0x46, 0x51, 0x33] := by
  decide +kernel

end Blake3
