import Reflex.App.QuicKeys
import Reflex.App.QuicVarint

namespace Reflex.App

open RustStd Gcm Hy2

/-!
# Sniffing — the first packet of a client

The `Initial` packet of a QUIC client, version 1, as the standard has it written and protected.  The payload
is a list of frames, one of which holds the `ClientHello`.

* `varint`, `readVarint_varint` — an integer in any of the sizes that it fits in;
* `CryptoPayload`, `InitialPacket` — payloads and packets whose lengths fit;
* `InitialPacket.protect` — the bytes that are sent.
-/

/-! ### Integers -/

/-- The number of bytes behind the first one of an integer, by its tag. -/
def varintTail (size : Fin 4) : Nat := 2 ^ size.val - 1

/-- The integers that a size has room for: six bits in one byte, and eight more in each further byte. -/
def VarintFits (size : Fin 4) (v : Nat) : Prop := v < 64 * 256 ^ varintTail size

/-- An integer in a size, which need not be the least. -/
def varint (size : Fin 4) (v : Nat) : Bytes :=
  beBytes (varintTail size + 1) (v + size.val * 64 * 256 ^ varintTail size)

@[simp] theorem length_varint (size : Fin 4) (v : Nat) : (varint size v).length = varintTail size + 1 :=
  length_beBytes _ _

theorem varintRest_of_tag {size : Fin 4} {b : UInt8} (h : b.toNat / 64 = size.val) :
    varintRest b = varintTail size := by
  rw [varintRest, h]
  clear h
  revert size
  decide

/-- **An integer** is read back at its position, in whatever size it is. -/
theorem readVarint_varint {buf rest : Bytes} {pos v : Nat} {size : Fin 4} (hv : VarintFits size v)
    (h : buf.drop pos = varint size v ++ rest) :
    readVarint buf pos = .ok (some (v, (varint size v).length)) := by
  have hdecode := decodeVarintSlice_beBytes size.val hv size.isLt (fun _ => varintRest_of_tag) rest
  rw [readVarint_of_drop h, varint, hdecode, length_beBytes]
  rfl

/-! ### The payload -/

/-- A frame that can come with the handshake of a client.  What an `ACK` and a `CONNECTION_CLOSE` hold is any
    bytes here. -/
inductive Frame where
  | padding
  | ping
  | ack (ecn : Bool) (body : Bytes)
  | connectionClose (body : Bytes)
  deriving DecidableEq

/-- The bytes of a frame. -/
def Frame.bytes : Frame → Bytes
  | padding => [0x00]
  | ping => [0x01]
  | ack ecn body => (if ecn then 0x03 else 0x02) :: body
  | connectionClose body => 0x1c :: body

/-- The handshake message of a `ClientHello`. -/
def ClientHello.message (hello : ClientHello) : Bytes :=
  0x01 :: (beBytes 3 hello.body.length ++ hello.body)

/-- A payload: frames, a `CRYPTO` frame with a whole `ClientHello` that has a name, and what comes behind. -/
structure CryptoPayload where
  before : List Frame
  offsetSize : Fin 4
  lengthSize : Fin 4
  hello : ClientHello
  name : Str
  behind : Bytes
  serverNames : hello.serverNames = [name]
  length_message : VarintFits lengthSize hello.message.length

namespace CryptoPayload

/-- The `CRYPTO` frame, at the offset 0 of the handshake. -/
def crypto (payload : CryptoPayload) : Bytes :=
  0x06 :: (varint payload.offsetSize 0 ++
    (varint payload.lengthSize payload.hello.message.length ++ payload.hello.message))

/-- The bytes of the payload. -/
def bytes (payload : CryptoPayload) : Bytes :=
  payload.before.flatMap Frame.bytes ++ (payload.crypto ++ payload.behind)

end CryptoPayload

/-! ### The packet -/

/-- A packet before it is protected.  The number of the packet is `pn`, of which the last `pnLen + 1` bytes
    are sent. -/
structure InitialPacket where
  dcid : Bytes
  scid : Bytes
  token : Bytes
  tokenSize : Fin 4
  lengthSize : Fin 4
  pnLen : Fin 4
  pn : Nat
  payload : CryptoPayload
  length_dcid : dcid.length ≤ 20
  length_scid : scid.length ≤ 20
  length_token : VarintFits tokenSize token.length
  length_protected : VarintFits lengthSize (pnLen.val + 1 + payload.bytes.length + 16)
  pn_lt : pn < 2 ^ 62

namespace InitialPacket

variable (suite : Suite) (pkt : InitialPacket)

/-- The packet number, in the bytes that are sent of it. -/
def pnBytes : Bytes := beBytes (pkt.pnLen.val + 1) pkt.pn

/-- The first byte: a long header of the type `Initial`. -/
def firstByte : UInt8 := 0xC0 ||| UInt8.ofNat pkt.pnLen.val

/-- The number of bytes from the packet number on. -/
def protectedLength : Nat := pkt.pnLen.val + 1 + pkt.payload.bytes.length + 16

/-- The header between the first byte and the packet number. -/
def fields : Bytes :=
  beBytes 4 0x00000001 ++ (vec8 pkt.dcid ++ (vec8 pkt.scid ++ (varint pkt.tokenSize pkt.token.length ++
    (pkt.token ++ varint pkt.lengthSize pkt.protectedLength))))

/-- The header, which is the additional data. -/
def header : Bytes := pkt.firstByte :: (pkt.fields ++ pkt.pnBytes)

/-- The keys of the client, which come from the destination connection ID. -/
def keys : PacketKeys := clientKeys suite quicV1InitialSalt pkt.dcid

/-- The nonce: the packet number over the end of the initialization vector. -/
def nonce : Bytes := List.zipWith (· ^^^ ·) (pkt.keys suite).iv (beBytes 12 pkt.pn)

/-- The ciphertext of the payload and its tag, with the header as additional data. -/
def encrypted : Bytes × Block :=
  encrypt (suite.cipher (pkt.keys suite).key) suite.mul (pkt.nonce suite) pkt.header pkt.payload.bytes

/-- The bytes behind the packet number: ciphertext and tag. -/
def encryptedBytes : Bytes := (pkt.encrypted suite).1 ++ (pkt.encrypted suite).2.toList

/-- The mask of the header, from a sample that starts four bytes behind the start of the packet number. -/
def mask : Block :=
  suite.cipher (pkt.keys suite).hp (blockOf (slice (pkt.pnBytes ++ pkt.encryptedBytes suite) 4 16))

/-- The packet number under the mask. -/
def maskedPn : Bytes := List.zipWith (· ^^^ ·) pkt.pnBytes (pkt.mask suite).toList.tail

/-- What is sent from the packet number on. -/
def protectedBytes : Bytes := pkt.maskedPn suite ++ pkt.encryptedBytes suite

/-- The packet that is sent: the lower bits of its first byte and the packet number are masked. -/
def protect : Bytes :=
  (pkt.firstByte ^^^ ((pkt.mask suite).get 0 &&& 0x0F)) :: (pkt.fields ++ pkt.protectedBytes suite)

/-- The ciphertext is the payload under the key stream. -/
theorem ciphertext_eq : (pkt.encrypted suite).1 =
    gctr (suite.cipher (pkt.keys suite).key) (inc32 (counter0 (pkt.nonce suite))) pkt.payload.bytes := rfl

/-! ### Lengths -/

theorem length_pnBytes : pkt.pnBytes.length = pkt.pnLen.val + 1 := length_beBytes _ _

theorem length_maskedPn : (pkt.maskedPn suite).length = pkt.pnLen.val + 1 := by
  have hlt := pkt.pnLen.isLt
  rw [maskedPn, List.length_zipWith, length_pnBytes, List.length_tail, Vector.length_toList]
  omega

theorem length_ciphertext : (pkt.encrypted suite).1.length = pkt.payload.bytes.length := length_gctr _ _ _

theorem length_encryptedBytes : (pkt.encryptedBytes suite).length = pkt.payload.bytes.length + 16 := by
  rw [encryptedBytes, List.length_append, length_ciphertext, Vector.length_toList]

theorem length_protectedBytes : (pkt.protectedBytes suite).length = pkt.protectedLength := by
  rw [protectedBytes, List.length_append, length_maskedPn, length_encryptedBytes, protectedLength]
  omega

end InitialPacket

/-- A payload is of 43 bytes at least. -/
theorem CryptoPayload.length_bytes (payload : CryptoPayload) : 43 ≤ payload.bytes.length := by
  have hrandom := payload.hello.length_random
  simp only [CryptoPayload.bytes, CryptoPayload.crypto, ClientHello.message, ClientHello.body,
    List.length_append, List.length_cons, length_beBytes, length_varint, vec8, vec16]
  omega

end Reflex.App
