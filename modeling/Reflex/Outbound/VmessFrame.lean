import Reflex.Inbound.Types
import Reflex.RustStd.Slice

namespace Reflex.Vmess

open RustStd

/-!
# VMess — the frames of the client

`outbound/vmess/frame.rs`: the request a client sends and the response header it expects.  The hash
functions and ciphers are those of other crates and are taken as a parameter; random bytes and the
time are arguments.

* `RequestHeader` — its encoding, with padding and checksum;
* `buildHandshake` — the request, its length and the header under AES-128-GCM;
* `parseResponseHeader_of_short` — a response of less than 34 bytes is refused.
-/

/-! ### Primitives -/

/-- MD5, SHA-256, HMAC-SHA-256, CRC-32, `FnvHasher` of the `fnv` crate, AES-128 on one block and
    AES-128-GCM. -/
structure Crypto where
  md5 : Bytes → Bytes
  sha256 : Bytes → Bytes
  hmacSha256 : (key msg : Bytes) → Bytes
  crc32 : Bytes → UInt32
  fnv : Bytes → UInt64
  aesEncrypt : (key block : Bytes) → Bytes
  aesDecrypt : (key block : Bytes) → Bytes
  gcmEncrypt : (key nonce aad msg : Bytes) → Bytes
  gcmDecrypt : (key nonce aad msg : Bytes) → Option Bytes

/-- AES-GCM: decryption inverts encryption, and there is a tag of 16 bytes. -/
structure Crypto.Lawful (C : Crypto) : Prop where
  decrypt_encrypt : ∀ key nonce aad msg,
    C.gcmDecrypt key nonce aad (C.gcmEncrypt key nonce aad msg) = some msg
  decrypt_short : ∀ key nonce aad msg, msg.length < 16 → C.gcmDecrypt key nonce aad msg = none
  length_encrypt : ∀ key nonce aad msg,
    (C.gcmEncrypt key nonce aad msg).length = msg.length + 16

/-- `FnvHasher` is the 64-bit FNV-1a: it starts with the offset basis, and a byte that is written is put
    in before the multiplication with the prime. -/
structure Crypto.FnvLawful (C : Crypto) : Prop where
  fnv_nil : C.fnv [] = 0xcbf29ce484222325
  fnv_concat : ∀ bs b, C.fnv (bs ++ [b]) = (C.fnv bs ^^^ b.toUInt64) * 0x100000001b3

variable (C : Crypto)

/-- `user_key`. -/
def userKey (uuid : Bytes) : Bytes :=
  C.md5 (uuid ++ utf8 "c48619fe-8f02-49e0-b9e9-edf763e17e21".toList)

/-- `kdf`. -/
def kdf (key : Bytes) (salt : Str) (path : List Bytes) : Bytes :=
  let root := C.hmacSha256 (utf8 "VMess AEAD KDF".toList) (utf8 salt)
  C.hmacSha256 (path.foldl C.hmacSha256 root) key

/-! ### The request -/

/-- `build_auth_id` at the time `ts`. -/
def buildAuthId (key : Bytes) (ts : UInt64) (random : Bytes) : Bytes :=
  let buf := beBytes 8 ts.toNat ++ random
  let encKey := (kdf C key "AES Auth ID Encryption".toList []).take 16
  C.aesEncrypt encKey (buf ++ beBytes 4 (C.crc32 buf).toNat)

/-- `RequestHeader`. -/
structure RequestHeader where
  reqKey : Bytes
  reqNonce : Bytes
  respHeader : UInt8
  option : UInt8
  security : UInt8
  command : UInt8
  length_reqKey : reqKey.length = 16
  length_reqNonce : reqNonce.length = 16

/-- `write_target`. -/
def writeTarget : Target → Bytes
  | .domain host port =>
      beBytes 2 port.toNat ++ [0x02, UInt8.ofNat (utf8 host).length] ++ utf8 host
  | .socket addr =>
      beBytes 2 addr.port.toNat ++
        match addr.ip with
        | .v4 ip => 0x01 :: ip.octets
        | .v6 ip => 0x03 :: ip.octets

/-- The header without its checksum. -/
def RequestHeader.body (hdr : RequestHeader) (target : Target) (paddingLen : Nat) : Bytes :=
  1 :: hdr.reqNonce ++ hdr.reqKey
    ++ [hdr.respHeader, hdr.option, UInt8.ofNat paddingLen <<< 4 ||| hdr.security, 0x00, hdr.command]
    ++ writeTarget target ++ List.replicate paddingLen 0

/-- `RequestHeader::encode`; `random` is the byte the length of the padding is drawn with. -/
def RequestHeader.encode (hdr : RequestHeader) (target : Target) (random : UInt8) : Bytes :=
  let buf := hdr.body target (random % 16).toNat
  buf ++ beBytes 4 (C.fnv buf).toUInt32.toNat

/-- What a handshake draws: the time, the random bytes of the authentication id, the connection
    nonce and the byte for the padding. -/
structure Draw where
  ts : UInt64
  random : Bytes
  connNonce : Bytes
  padding : UInt8
  length_random : random.length = 4
  length_connNonce : connNonce.length = 8

/-- `build_handshake`. -/
def buildHandshake (userKey : Bytes) (hdr : RequestHeader) (target : Target) (d : Draw) : Bytes :=
  let authId := buildAuthId C userKey d.ts d.random
  let headerPlain := hdr.encode C target d.padding
  let derive (salt : String) := kdf C userKey salt.toList [authId, d.connNonce]
  let encLen :=
    C.gcmEncrypt ((derive "VMess Header AEAD Key_Length").take 16)
      ((derive "VMess Header AEAD Nonce_Length").take 12) authId
      (beBytes 2 (UInt16.ofNat headerPlain.length).toNat)
  let encHdr :=
    C.gcmEncrypt ((derive "VMess Header AEAD Key").take 16)
      ((derive "VMess Header AEAD Nonce").take 12) authId headerPlain
  authId ++ encLen ++ d.connNonce ++ encHdr

/-! ### The response -/

/-- How parsing a frame fails; reading outside of a slice is a panic. -/
inductive FrameError where
  | unexpectedEof
  | invalidUtf8
  | panic
  | message (text : Str)
  deriving DecidableEq, Repr

/-- `bs[pos]`. -/
def index (bs : Bytes) (pos : Nat) : Except FrameError UInt8 :=
  match bs[pos]? with
  | some b => .ok b
  | none => .error .panic

/-- `anyhow::ensure!`. -/
def ensure (cond : Bool) (text : String) : Except FrameError Unit :=
  if cond then .ok () else .error (.message text.toList)

/-- A decryption with `map_err`. -/
def decrypted (plain : Option Bytes) (text : String) : Except FrameError Bytes :=
  match plain with
  | some bs => .ok bs
  | none => .error (.message text.toList)

/-- `parse_response_header`: the token and the number of bytes that were used. -/
def parseResponseHeader (buf reqKey reqNonce : Bytes) : Except FrameError (UInt8 × Nat) := do
  let respKey := (C.sha256 reqKey).take 16
  let respNonce := (C.sha256 reqNonce).take 16
  ensure (2 + 16 ≤ buf.length) "vmess resp: too short for len frame"
  let decLen ← decrypted
    (C.gcmDecrypt ((kdf C respKey "AEAD Resp Header Len Key".toList []).take 16)
      ((kdf C respNonce "AEAD Resp Header Len IV".toList []).take 12) [] (buf.take 18))
    "vmess resp: decrypt len failed"
  let hi ← index decLen 0
  let lo ← index decLen 1
  let hdrCipherLen := beVal [hi, lo] + 16
  ensure (18 + hdrCipherLen ≤ buf.length) "vmess resp: too short for header payload"
  let decHdr ← decrypted
    (C.gcmDecrypt ((kdf C respKey "AEAD Resp Header Key".toList []).take 16)
      ((kdf C respNonce "AEAD Resp Header IV".toList []).take 12) []
      ((buf.drop 18).take hdrCipherLen))
    "vmess resp: decrypt header failed"
  ensure (4 ≤ decHdr.length) "vmess resp: header too short"
  let token ← index decHdr 1
  return (token, 18 + hdrCipherLen)

theorem of_ensure_eq_ok {cond : Bool} {text : String} {u : Unit} (h : ensure cond text = .ok u) :
    cond = true := by
  cases cond with
  | true => rfl
  | false => cases h

/-- **A short response** is refused: after the two frames come at least their tags. -/
theorem parseResponseHeader_of_short {C : Crypto} {buf reqKey reqNonce : Bytes}
    (hshort : buf.length < 34) (result : UInt8 × Nat) :
    parseResponseHeader C buf reqKey reqNonce ≠ .ok result := by
  intro h
  obtain ⟨_, -, h⟩ := bind_eq_ok.mp h
  obtain ⟨decLen, -, h⟩ := bind_eq_ok.mp h
  obtain ⟨hi, -, h⟩ := bind_eq_ok.mp h
  obtain ⟨lo, -, h⟩ := bind_eq_ok.mp h
  obtain ⟨_, hpayload, -⟩ := bind_eq_ok.mp h
  have hlen := of_decide_eq_true (of_ensure_eq_ok hpayload)
  omega

end Reflex.Vmess
