import Reflex.App.QuicGcm
import Reflex.App.TlsSniff

namespace Reflex.App

open RustStd Gcm

/-!
# Sniffing — the keys of the first packets

The first packets of QUIC are protected with keys that anyone can derive from the connection ID in them.
`app/sniff.rs` has its own SHA-256 for it, and HMAC and HKDF over it.

* `Suite` — a hash function and a cipher; `sourceSuite` is that of the code;
* `hkdfExpandLabelSha256_eq` — the code writes the label of TLS 1.3;
* `clientKeys` — the keys of a client, after the standard.
-/

/-! ### SHA-256 -/

/-- `K`. -/
def sha256K : List UInt32 :=
  [0x428a2f98, 0x71374491, 0xb5c0fbcf, 0xe9b5dba5, 0x3956c25b, 0x59f111f1, 0x923f82a4, 0xab1c5ed5] ++
  [0xd807aa98, 0x12835b01, 0x243185be, 0x550c7dc3, 0x72be5d74, 0x80deb1fe, 0x9bdc06a7, 0xc19bf174] ++
  [0xe49b69c1, 0xefbe4786, 0x0fc19dc6, 0x240ca1cc, 0x2de92c6f, 0x4a7484aa, 0x5cb0a9dc, 0x76f988da] ++
  [0x983e5152, 0xa831c66d, 0xb00327c8, 0xbf597fc7, 0xc6e00bf3, 0xd5a79147, 0x06ca6351, 0x14292967] ++
  [0x27b70a85, 0x2e1b2138, 0x4d2c6dfc, 0x53380d13, 0x650a7354, 0x766a0abb, 0x81c2c92e, 0x92722c85] ++
  [0xa2bfe8a1, 0xa81a664b, 0xc24b8b70, 0xc76c51a3, 0xd192e819, 0xd6990624, 0xf40e3585, 0x106aa070] ++
  [0x19a4c116, 0x1e376c08, 0x2748774c, 0x34b0bcb5, 0x391c0cb3, 0x4ed8aa4a, 0x5b9cca4f, 0x682e6ff3] ++
  [0x748f82ee, 0x78a5636f, 0x84c87814, 0x8cc70208, 0x90befffa, 0xa4506ceb, 0xbef9a3f7, 0xc67178f2]

/-- The variables `a` to `hh`. -/
structure HashState where
  a : UInt32
  b : UInt32
  c : UInt32
  d : UInt32
  e : UInt32
  f : UInt32
  g : UInt32
  hh : UInt32

/-- The first value of `h`. -/
def HashState.initial : HashState :=
  ⟨0x6a09e667, 0xbb67ae85, 0x3c6ef372, 0xa54ff53a, 0x510e527f, 0x9b05688c, 0x1f83d9ab, 0x5be0cd19⟩

/-- `u32::rotate_right`. -/
def rotateRight (x n : UInt32) : UInt32 := (x >>> n) ||| (x <<< (32 - n))

/-- The loop that adds `w[i]`; the words are in reverse, so that `w[i - 1]` is at the head. -/
def scheduleStep (w : List UInt32) : List UInt32 :=
  let back (j : Nat) : UInt32 := w.getD (j - 1) 0
  let s0 := rotateRight (back 15) 7 ^^^ rotateRight (back 15) 18 ^^^ (back 15 >>> 3)
  let s1 := rotateRight (back 2) 17 ^^^ rotateRight (back 2) 19 ^^^ (back 2 >>> 10)
  (back 16 + s0 + back 7 + s1) :: w

/-- One of the 64 rounds, with `K[i]` and `w[i]`. -/
def sha256Round (s : HashState) (kw : UInt32 × UInt32) : HashState :=
  let s1 := rotateRight s.e 6 ^^^ rotateRight s.e 11 ^^^ rotateRight s.e 25
  let ch := (s.e &&& s.f) ^^^ (~~~s.e &&& s.g)
  let temp1 := s.hh + s1 + ch + kw.1 + kw.2
  let s0 := rotateRight s.a 2 ^^^ rotateRight s.a 13 ^^^ rotateRight s.a 22
  let maj := (s.a &&& s.b) ^^^ (s.a &&& s.c) ^^^ (s.b &&& s.c)
  let temp2 := s0 + maj
  ⟨temp1 + temp2, s.a, s.b, s.c, s.d + temp1, s.e, s.f, s.g⟩

/-- What a block of 64 bytes does to `h`. -/
def sha256Block (h : HashState) (chunk : Bytes) : HashState :=
  let words := (List.range 16).map fun i => UInt32.ofNat (beVal (slice chunk (4 * i) 4))
  let w := (scheduleStep^[48] words.reverse).reverse
  let s := (sha256K.zip w).foldl sha256Round h
  ⟨h.a + s.a, h.b + s.b, h.c + s.c, h.d + s.d, h.e + s.e, h.f + s.f, h.g + s.g, h.hh + s.hh⟩

/-- The message with its padding. -/
def sha256Padded (data : Bytes) : Bytes :=
  let bitLen := UInt64.ofNat data.length * 8
  let msg := data ++ [0x80]
  -- zeros as long as `msg.len() % 64 != 56`
  msg ++ List.replicate ((64 + 56 - msg.length % 64) % 64) 0 ++ beBytes 8 bitLen.toNat

/-- The bytes of `h`. -/
def HashState.bytes (h : HashState) : Bytes :=
  [h.a, h.b, h.c, h.d, h.e, h.f, h.g, h.hh].flatMap fun v => beBytes 4 v.toNat

/-- `sha256`. -/
def sha256 (data : Bytes) : Bytes :=
  let msg := sha256Padded data
  (((List.range (msg.length / 64)).map fun i => slice msg (64 * i) 64).foldl sha256Block .initial).bytes

/-- `hmac_sha256`. -/
def hmacSha256 (key data : Bytes) : Bytes :=
  let k := if 64 < key.length then sha256 key else key
  let k := k ++ List.replicate (64 - k.length) 0
  let ipad := k.map (0x36 ^^^ ·)
  let opad := k.map (0x5c ^^^ ·)
  sha256 (opad ++ sha256 (ipad ++ data))

theorem HashState.length_bytes (h : HashState) : h.bytes.length = 32 := rfl

theorem length_hmacSha256 (key data : Bytes) : (hmacSha256 key data).length = 32 := HashState.length_bytes _

/-- The example in the standard of the hash function. -/
example : sha256 (utf8 "abc".toList) =
    [0xba, 0x78, 0x16, 0xbf, 0x8f, 0x01, 0xcf, 0xea, 0x41, 0x41, 0x40, 0xde, 0x5d, 0xae, 0x22, 0x23,
      0xb0, 0x03, 0x61, 0xa3, 0x96, 0x17, 0x7a, 0x9c, 0xb4, 0x10, 0xff, 0x61, 0xf2, 0x00, 0x15, 0xad] := by
  decide +kernel

/-! ### HKDF -/

/-- The primitives that both ends of a connection use: a message authentication code for HKDF, and a block
    cipher and a multiplication of blocks for GCM. -/
structure Suite where
  hmac : (key data : Bytes) → Bytes
  cipher : (key : Bytes) → Block → Block
  mul : Block → Block → Block
  length_hmac : ∀ key data, (hmac key data).length = 32

/-- The primitives of `app/sniff.rs`. -/
def sourceSuite : Suite where
  hmac := hmacSha256
  cipher := cipher
  mul := gf128Mul
  length_hmac := length_hmacSha256

section Hkdf

variable (suite : Suite)

/-- `hkdf_extract_sha256`. -/
def hkdfExtractSha256 (salt ikm : Bytes) : Bytes := suite.hmac salt ikm

/-- `hkdf_expand_label_sha256`. -/
def hkdfExpandLabelSha256 (secret label context : Bytes) (len : Nat) : Option Bytes :=
  let tls13 := utf8 "tls13 ".toList
  let fullLabelLen := tls13.length + label.length
  let hkdfLabel := [UInt8.ofNat (len >>> 8), UInt8.ofNat len, UInt8.ofNat fullLabelLen] ++ tls13 ++ label
    ++ [UInt8.ofNat context.length] ++ context
  if 32 < len then none
  else some ((suite.hmac secret (hkdfLabel ++ [0x01])).take len)

/-- `HKDF-Expand-Label` of TLS 1.3, for a length of one block at most. -/
def expandLabel (secret : Bytes) (label : Str) (context : Bytes) (len : Nat) : Bytes :=
  let hkdfLabel := beBytes 2 len ++ vec8 (utf8 ("tls13 ".toList ++ label)) ++ vec8 context
  (suite.hmac secret (hkdfLabel ++ [0x01])).take len

/-- **The label** that the code writes is that of TLS 1.3. -/
theorem hkdfExpandLabelSha256_eq (secret : Bytes) (label : Str) (context : Bytes) {len : Nat}
    (h : len ≤ 32) : hkdfExpandLabelSha256 suite secret (utf8 label) context len
      = some (expandLabel suite secret label context len) := by
  have hlen : beBytes 2 len = [UInt8.ofNat (len >>> 8), UInt8.ofNat len] := by
    rw [Nat.shiftRight_eq_div_pow]
    rfl
  rw [hkdfExpandLabelSha256, if_neg (Nat.not_lt.mpr h), expandLabel, hlen, utf8_append, vec8, vec8,
    List.length_append]
  simp only [List.append_assoc, List.cons_append, List.nil_append]

theorem length_expandLabel (secret : Bytes) (label : Str) (context : Bytes) {len : Nat} (h : len ≤ 32) :
    (expandLabel suite secret label context len).length = len := by
  rw [expandLabel, List.length_take_of_le (by rw [suite.length_hmac]; exact h)]

/-! ### The keys of a client -/

/-- `QUIC_V1_INITIAL_SALT`. -/
def quicV1InitialSalt : Bytes :=
  [0x38, 0x76, 0x2c, 0xf7, 0xf5, 0x59, 0x34, 0xb3, 0x4d, 0x17, 0x9a, 0xe6, 0xa4, 0xc8, 0x0c, 0xad, 0xcc, 0xbb,
    0x7f, 0x0a]

/-- The keys for the payload and for the header. -/
structure PacketKeys where
  key : Bytes
  iv : Bytes
  hp : Bytes

/-- The keys of the first packets of a client, by the connection ID of the server. -/
def clientKeys (salt dcid : Bytes) : PacketKeys :=
  let initialSecret := suite.hmac salt dcid
  let clientSecret := expandLabel suite initialSecret "client in".toList [] 32
  { key := expandLabel suite clientSecret "quic key".toList [] 16
    iv := expandLabel suite clientSecret "quic iv".toList [] 12
    hp := expandLabel suite clientSecret "quic hp".toList [] 16 }

theorem length_key (salt dcid : Bytes) : (clientKeys suite salt dcid).key.length = 16 :=
  length_expandLabel suite _ _ _ (by decide)

theorem length_iv (salt dcid : Bytes) : (clientKeys suite salt dcid).iv.length = 12 :=
  length_expandLabel suite _ _ _ (by decide)

theorem length_hp (salt dcid : Bytes) : (clientKeys suite salt dcid).hp.length = 16 :=
  length_expandLabel suite _ _ _ (by decide)

end Hkdf

/-- The connection ID in the examples of the standard. -/
def exampleDcid : Bytes := [0x83, 0x94, 0xc8, 0xf0, 0x3e, 0x51, 0x57, 0x08]

/-- The keys in the examples of the standard. -/
def exampleKeys : PacketKeys where
  key := [0x1f, 0x36, 0x96, 0x13, 0xdd, 0x76, 0xd5, 0x46, 0x77, 0x30, 0xef, 0xcb, 0xe3, 0xb1, 0xa2, 0x2d]
  iv := [0xfa, 0x04, 0x4b, 0x2f, 0x42, 0xa3, 0xfd, 0x3b, 0x46, 0xfb, 0x25, 0x5c]
  hp := [0x9f, 0x50, 0x44, 0x9e, 0x04, 0xa0, 0xe8, 0x10, 0x28, 0x3a, 0x1e, 0x99, 0x33, 0xad, 0xed, 0xd2]

/-- The code derives the keys of the example, with its own SHA-256 and HMAC. -/
theorem clientKeys_exampleDcid : clientKeys sourceSuite quicV1InitialSalt exampleDcid = exampleKeys := by
  have hinitial : sourceSuite.hmac quicV1InitialSalt exampleDcid =
      [0x7d, 0xb5, 0xdf, 0x06, 0xe7, 0xa6, 0x9e, 0x43, 0x24, 0x96, 0xad, 0xed, 0xb0, 0x08, 0x51, 0x92] ++
      [0x35, 0x95, 0x22, 0x15, 0x96, 0xae, 0x2a, 0xe9, 0xfb, 0x81, 0x15, 0xc1, 0xe9, 0xed, 0x0a, 0x44] := by
    decide +kernel
  have hclient : expandLabel sourceSuite (sourceSuite.hmac quicV1InitialSalt exampleDcid)
      "client in".toList [] 32 =
      [0xc0, 0x0c, 0xf1, 0x51, 0xca, 0x5b, 0xe0, 0x75, 0xed, 0x0e, 0xbf, 0xb5, 0xc8, 0x03, 0x23, 0xc4] ++
      [0x2d, 0x6b, 0x7d, 0xb6, 0x78, 0x81, 0x28, 0x9a, 0xf4, 0x00, 0x8f, 0x1f, 0x6c, 0x35, 0x7a, 0xea] := by
    rw [hinitial]
    decide +kernel
  rw [clientKeys, hclient, exampleKeys, PacketKeys.mk.injEq]
  exact ⟨by decide +kernel, by decide +kernel, by decide +kernel⟩

end Reflex.App
