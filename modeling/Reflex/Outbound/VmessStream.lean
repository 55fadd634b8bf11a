import Reflex.Lib.Receiver
import Reflex.Outbound.VmessFrame

namespace Reflex.Vmess

open RustStd Receiver

/-!
# VMess — the data behind the handshake

`VmessEncoder` and `VmessDecoder` of `outbound/vmess/aead.rs`.  Each chunk goes behind its length of
two bytes; the length is masked with the output of SHAKE128, and the chunk is sealed under a nonce
that counts the chunks.  Without a cipher and without `OPT_CHUNK_STREAM` the bytes go as they are.
The ciphers and hash functions of other crates are a parameter.

* `VmessEncoder.encode`, `VmessDecoder.tryDecode` — as in the source;
* `Lockstep.encode` — one chunk, sealed and opened, leaves the two sides in step;
* `tryDecode_encodeAll` — the decoder gives out what was encoded, however it comes.
-/

/-! ### Primitives -/

/-- An authenticated cipher of another crate, used without associated data. -/
structure Aead (keyLen : Nat) where
  encrypt (key : Vector UInt8 keyLen) (nonce : Vector UInt8 12) (plaintext : Bytes) : Option Bytes
  decrypt (key : Vector UInt8 keyLen) (nonce : Vector UInt8 12) (ciphertext : Bytes) : Option Bytes

/-- Short messages are encrypted, with a tag of 16 bytes, and decryption inverts that. -/
structure Aead.Lawful {keyLen : Nat} (A : Aead keyLen) : Prop where
  exists_encrypt : ∀ key nonce msg, msg.length < 2 ^ 16 → ∃ ct, A.encrypt key nonce msg = some ct ∧
    ct.length = msg.length + 16 ∧ A.decrypt key nonce ct = some msg

/-- AES-128-GCM and ChaCha20-Poly1305, MD5, and the bytes that SHAKE128 puts out. -/
structure DataCrypto where
  aes128Gcm : Aead 16
  chacha20Poly1305 : Aead 32
  md5 : Bytes → Vector UInt8 16
  shake128 : (seed : Bytes) → Nat → UInt8

structure DataCrypto.Lawful (C : DataCrypto) : Prop where
  aes128Gcm : C.aes128Gcm.Lawful
  chacha20Poly1305 : C.chacha20Poly1305.Lawful

/-- `SECURITY_NONE`. -/
def securityNone : UInt8 := 5

/-- `SECURITY_AES128_GCM`. -/
def securityAes128Gcm : UInt8 := 3

/-- `SECURITY_CHACHA20_POLY1305`. -/
def securityChacha20Poly1305 : UInt8 := 4

/-- `OPT_CHUNK_STREAM`. -/
def optChunkStream : UInt8 := 1

/-- `OPT_CHUNK_MASKING`. -/
def optChunkMasking : UInt8 := 4

/-- `CMD_UDP`. -/
def cmdUdp : UInt8 := 2

/-- `RequestHeader::new`, from what it draws. -/
def RequestHeader.new (security command : UInt8) (reqKey reqNonce : Vector UInt8 16)
    (respHeader : UInt8) : RequestHeader where
  reqKey := reqKey.toList
  reqNonce := reqNonce.toList
  respHeader
  option :=
    if security = securityNone then
      if command = cmdUdp then optChunkStream else 0
    else if security = securityAes128Gcm ∨ security = securityChacha20Poly1305 then
      optChunkStream ||| optChunkMasking
    else 0
  security
  command
  length_reqKey := reqKey.length_toList
  length_reqNonce := reqNonce.length_toList

/-! ### The ciphers -/

/-- `VmessAeadCipher`. -/
inductive VmessAeadCipher where
  | aes128Gcm (key : Vector UInt8 16)
  | chacha20Poly1305 (key : Vector UInt8 32)

variable (C : DataCrypto)

/-- `chacha20_key`. -/
def chacha20Key (key : Vector UInt8 16) : Vector UInt8 32 :=
  let h1 := C.md5 key.toList
  h1 ++ C.md5 h1.toList

namespace VmessAeadCipher

/-- `VmessAeadCipher::new`; `none` is its panic. -/
def new (security : UInt8) (key : Vector UInt8 16) : Option VmessAeadCipher :=
  if security = securityAes128Gcm then some (.aes128Gcm key)
  else if security = securityChacha20Poly1305 then some (.chacha20Poly1305 (chacha20Key C key))
  else none

/-- `VmessAeadCipher::encrypt`. -/
def encrypt (cipher : VmessAeadCipher) (nonce : Vector UInt8 12) (plaintext : Bytes) : Option Bytes :=
  match cipher with
  | .aes128Gcm key => C.aes128Gcm.encrypt key nonce plaintext
  | .chacha20Poly1305 key => C.chacha20Poly1305.encrypt key nonce plaintext

/-- `VmessAeadCipher::decrypt`. -/
def decrypt (cipher : VmessAeadCipher) (nonce : Vector UInt8 12) (ciphertext : Bytes) :
    Option Bytes :=
  match cipher with
  | .aes128Gcm key => C.aes128Gcm.decrypt key nonce ciphertext
  | .chacha20Poly1305 key => C.chacha20Poly1305.decrypt key nonce ciphertext

end VmessAeadCipher

/-- The reader of `make_shake128_reader`, by its seed and the number of bytes that were read. -/
structure ShakeReader where
  seed : Bytes
  pos : Nat := 0
  deriving DecidableEq, Repr

/-- `next_mask_u16`. -/
def nextMaskU16 (reader : ShakeReader) : UInt16 × ShakeReader :=
  (UInt16.ofNat (beVal [C.shake128 reader.seed reader.pos, C.shake128 reader.seed (reader.pos + 1)]),
    { reader with pos := reader.pos + 2 })

/-- `make_nonce`. -/
def makeNonce (count : UInt16) (base : Vector UInt8 16) : Vector UInt8 12 :=
  #v[(count >>> 8).toUInt8, count.toUInt8] ++ base.extract 2 12

/-- How encoding and decoding fail. -/
inductive DataError where
  | other (text : Str)
  | invalidData (text : Str)
  | panic
  deriving DecidableEq, Repr

/-- No cipher and no chunks: the bytes go as they are. -/
def unframed (security option : UInt8) : Bool :=
  security = securityNone ∧ option &&& optChunkStream = 0

/-- The cipher of a new encoder or decoder; `none` is the panic of `VmessAeadCipher::new`. -/
def cipherFor (security : UInt8) (key : Vector UInt8 16) : Option (Option VmessAeadCipher) :=
  if security = securityNone then some none else (VmessAeadCipher.new C security key).map some

/-- The masks of a new encoder or decoder. -/
def maskingFor (option : UInt8) (nonce : Vector UInt8 16) : Option ShakeReader :=
  if option &&& optChunkMasking ≠ 0 then some { seed := nonce.toList } else none

/-! ### The encoder -/

/-- `VmessEncoder`. -/
structure VmessEncoder where
  cipher : Option VmessAeadCipher
  baseNonce : Vector UInt8 16
  count : UInt16
  masking : Option ShakeReader
  security : UInt8
  option : UInt8

namespace VmessEncoder

/-- `VmessEncoder::new`; `none` is its panic. -/
def new (security option : UInt8) (key nonce : Vector UInt8 16) : Option VmessEncoder :=
  (cipherFor C security key).map fun cipher =>
    { cipher, baseNonce := nonce, count := 0, masking := maskingFor option nonce, security, option }

/-- The length of a chunk, masked. -/
def maskLen (masking : Option ShakeReader) (len : UInt16) : UInt16 × Option ShakeReader :=
  match masking with
  | some reader =>
      let (mask, reader) := nextMaskU16 C reader
      (len ^^^ mask, some reader)
  | none => (len, none)

/-- `VmessEncoder::encode`.

    The counter of the chunks is a `u16` and wraps around after 65536 chunks.  `self.count += 1` does so in a build
    without overflow checks, such as a release build; with the checks the encoder panics there instead. -/
def encode (e : VmessEncoder) (plaintext : Bytes) : Except DataError Bytes × VmessEncoder :=
  if unframed e.security e.option then (.ok plaintext, e)
  else if e.security = securityNone then
    let (len, masking) := maskLen C e.masking (UInt16.ofNat plaintext.length)
    (.ok (beBytes 2 len.toNat ++ plaintext), { e with masking })
  else
    let nonce := makeNonce e.count e.baseNonce
    let e := { e with count := e.count + 1 }
    match e.cipher with
    | none => (.error .panic, e)
    | some cipher =>
        match cipher.encrypt C nonce plaintext with
        | none => (.error (.other "vmess encrypt: Error".toList), e)
        | some ct =>
            let (chunkLen, masking) := maskLen C e.masking (UInt16.ofNat ct.length)
            (.ok (beBytes 2 chunkLen.toNat ++ ct), { e with masking })

/-- The frames of chunks that are encoded one after another. -/
def encodeAll (e : VmessEncoder) : List Bytes → Except DataError (List Bytes)
  | [] => .ok []
  | chunk :: chunks => do
      let frame ← (e.encode C chunk).1
      let frames ← (e.encode C chunk).2.encodeAll chunks
      return frame :: frames

end VmessEncoder

/-! ### The decoder -/

/-- `DecodeState`. -/
inductive DecodeState where
  | needLen
  | needData (expected : Nat)
  deriving DecidableEq, Repr

/-- `VmessDecoder`. -/
structure VmessDecoder where
  cipher : Option VmessAeadCipher
  baseNonce : Vector UInt8 16
  count : UInt16
  masking : Option ShakeReader
  state : DecodeState
  security : UInt8
  option : UInt8

namespace VmessDecoder

/-- `VmessDecoder::new`; `none` is its panic. -/
def new (security option : UInt8) (key nonce : Vector UInt8 16) : Option VmessDecoder :=
  (cipherFor C security key).map fun cipher =>
    { cipher, baseNonce := nonce, count := 0, masking := maskingFor option nonce, state := .needLen,
      security, option }

/-- The length of a chunk, without its mask. -/
def unmaskLen (masking : Option ShakeReader) (rawLen : Nat) : Nat × Option ShakeReader :=
  match masking with
  | some reader =>
      let (mask, reader) := nextMaskU16 C reader
      (rawLen ^^^ mask.toNat, some reader)
  | none => (rawLen, none)

/-- The round of the loop of `try_decode` in the state `NeedData`; what is left of `raw` is returned
    as well.  As in the encoder, the counter wraps around in a build without overflow checks. -/
def needData (d : VmessDecoder) (expected : Nat) (raw : Bytes) :
    Except DataError (Option Bytes) × VmessDecoder × Bytes :=
  if raw.length < expected then (.ok none, d, raw)
  else
    let chunk := raw.take expected
    let raw := raw.drop expected
    let d := { d with state := .needLen }
    if d.security = securityNone then (.ok (some chunk), d, raw)
    else
      let nonce := makeNonce d.count d.baseNonce
      let d := { d with count := d.count + 1 }
      match d.cipher with
      | none => (.error .panic, d, raw)
      | some cipher =>
          match cipher.decrypt C nonce chunk with
          | none => (.error (.invalidData "vmess decrypt: Error".toList), d, raw)
          | some pt => (.ok (some pt), d, raw)

/-- `VmessDecoder::try_decode`.  The loop is done after a round in the state `NeedData`. -/
def tryDecode (d : VmessDecoder) (raw : Bytes) :
    Except DataError (Option Bytes) × VmessDecoder × Bytes :=
  if unframed d.security d.option then
    if raw = [] then (.ok none, d, raw) else (.ok (some raw), d, [])
  else
    match d.state with
    | .needLen =>
        match raw with
        | b0 :: b1 :: raw =>
            let (rawLen, masking) := unmaskLen C d.masking (beVal [b0, b1])
            let d := { d with masking }
            -- the end of the stream
            if rawLen = 0 then (.ok (some []), d, raw)
            else needData C { d with state := .needData rawLen } rawLen raw
        | _ => (.ok none, d, raw)
    | .needData expected => needData C d expected raw

end VmessDecoder

/-- The decoder with its buffer, which is fed what was read from the connection. -/
def decoding : Receiver (VmessDecoder × Bytes) UInt8 (Except DataError (Option Bytes)) where
  feed s piece := (s.1, s.2 ++ piece)
  poll s := s.1.tryDecode C s.2

/-! ### One chunk -/

variable {C}

theorem VmessAeadCipher.exists_encrypt (hC : C.Lawful) (cipher : VmessAeadCipher)
    (nonce : Vector UInt8 12) {msg : Bytes} (h : msg.length < 2 ^ 16) :
    ∃ ct, cipher.encrypt C nonce msg = some ct ∧ ct.length = msg.length + 16 ∧
      cipher.decrypt C nonce ct = some msg := by
  cases cipher with
  | aes128Gcm key => exact hC.aes128Gcm.exists_encrypt key nonce msg h
  | chacha20Poly1305 key => exact hC.chacha20Poly1305.exists_encrypt key nonce msg h

/-- The mask that is put on a length is taken off again. -/
theorem unmaskLen_of_maskLen {masking masking' : Option ShakeReader} {len masked : UInt16}
    (h : VmessEncoder.maskLen C masking len = (masked, masking')) :
    VmessDecoder.unmaskLen C masking (beVal (beBytes 2 masked.toNat)) = (len.toNat, masking') := by
  rw [beVal_beBytes_of_lt (UInt16.toNat_lt _)]
  cases masking with
  | none =>
      obtain ⟨rfl, rfl⟩ := Prod.mk.inj h
      rfl
  | some reader =>
      have hmask : (len ^^^ (nextMaskU16 C reader).1, some (nextMaskU16 C reader).2)
        = (masked, masking') := h
      obtain ⟨rfl, rfl⟩ := Prod.mk.inj hmask
      simp only [VmessDecoder.unmaskLen, UInt16.toNat_xor, Nat.xor_assoc, Nat.xor_self, Nat.xor_zero]

/-- Chunks are framed, the encoder has the cipher it needs, and the decoder is between two chunks and
    has come as far as the encoder. -/
structure Lockstep (e : VmessEncoder) (d : VmessDecoder) : Prop where
  framed : unframed e.security e.option = false
  hasCipher : e.security = securityNone ∨ ∃ cipher, e.cipher = some cipher
  cipher : d.cipher = e.cipher
  baseNonce : d.baseNonce = e.baseNonce
  count : d.count = e.count
  masking : d.masking = e.masking
  security : d.security = e.security
  option : d.option = e.option
  state : d.state = .needLen

/-- The decoder waits for `body`, and is `d'` behind it. -/
structure Waits (C : DataCrypto) (mid : VmessDecoder) (chunk body : Bytes) (d' : VmessDecoder) :
    Prop where
  framed : unframed mid.security mid.option = false
  state : mid.state = .needData body.length
  needData : ∀ rest, mid.needData C body.length (body ++ rest) = (.ok (some chunk), d', rest)

/-- The decoder takes in the frame of a chunk, and is `d'` behind it. -/
structure Opens (C : DataCrypto) (d : VmessDecoder) (chunk frame : Bytes) (d' : VmessDecoder) :
    Prop where
  framed : unframed d.security d.option = false
  state : d.state = .needLen
  exists_waits : ∃ b0 b1 body mid, frame = b0 :: b1 :: body ∧ Waits C mid chunk body d' ∧
    ∀ raw, d.tryDecode C (b0 :: b1 :: raw) = mid.needData C body.length raw

/-- A masked length and a body of that length. -/
theorem opens_of_needData {d d' : VmessDecoder} {masking : Option ShakeReader} {len : UInt16}
    {chunk body : Bytes} (hframed : unframed d.security d.option = false)
    (hstate : d.state = .needLen)
    (hmask : VmessEncoder.maskLen C d.masking (UInt16.ofNat body.length) = (len, masking))
    (hne : body ≠ []) (hlen : body.length < 2 ^ 16)
    (hdata : ∀ rest, ({ d with masking, state := .needData body.length } : VmessDecoder).needData C
      body.length (body ++ rest) = (.ok (some chunk), d', rest)) :
    Opens C d chunk (beBytes 2 len.toNat ++ body) d' := by
  refine ⟨hframed, hstate, ?_⟩
  obtain ⟨b0, b1, hbytes⟩ := List.length_eq_two.mp (length_beBytes 2 len.toNat)
  have hunmask := unmaskLen_of_maskLen hmask
  rw [hbytes, UInt16.toNat_ofNat_of_lt' hlen] at hunmask
  refine ⟨b0, b1, body, { d with masking, state := .needData body.length }, by rw [hbytes]; rfl,
    ⟨hframed, rfl, hdata⟩, fun raw => ?_⟩
  rw [VmessDecoder.tryDecode, hframed, if_neg Bool.false_ne_true, hstate]
  simp only [hunmask]
  rw [if_neg (fun h => hne (List.length_eq_zero_iff.mp h))]

/-- **One chunk.** What the encoder makes of it the decoder opens, and they are in step again. -/
theorem Lockstep.encode (hC : C.Lawful) {e : VmessEncoder} {d : VmessDecoder} (h : Lockstep e d)
    {chunk : Bytes} (hne : chunk ≠ []) (hlen : chunk.length ≤ 15000) :
    ∃ frame e' d', e.encode C chunk = (.ok frame, e') ∧ Opens C d chunk frame d' ∧
      Lockstep e' d' := by
  have hframed : unframed d.security d.option = false := by rw [h.security, h.option, h.framed]
  by_cases hnone : e.security = securityNone
  · -- no cipher: the body is the chunk
    rcases hmask : VmessEncoder.maskLen C e.masking (UInt16.ofNat chunk.length) with ⟨len, masking⟩
    refine ⟨beBytes 2 len.toNat ++ chunk, { e with masking }, { d with masking, state := .needLen },
      ?_, ?_, ?_⟩
    · rw [VmessEncoder.encode, h.framed, if_neg Bool.false_ne_true, if_pos hnone]
      simp only [hmask]
    · refine opens_of_needData hframed h.state (h.masking ▸ hmask) hne (by omega) fun rest => ?_
      rw [VmessDecoder.needData, if_neg (by simp), List.take_left, List.drop_left,
        if_pos (h.security.trans hnone)]
    · exact ⟨h.framed, h.hasCipher, h.cipher, h.baseNonce, h.count, rfl, h.security, h.option, rfl⟩
  · obtain ⟨cipher, hcipher⟩ := h.hasCipher.resolve_left hnone
    have hmsg : chunk.length < 2 ^ 16 := by omega
    obtain ⟨ct, henc, hct, hdec⟩ :=
      cipher.exists_encrypt hC (makeNonce e.count e.baseNonce) hmsg
    have hctne : ct ≠ [] := List.ne_nil_of_length_pos (by omega)
    -- the body is sealed, and both have counted it
    rcases hmask : VmessEncoder.maskLen C e.masking (UInt16.ofNat ct.length) with ⟨len, masking⟩
    refine ⟨beBytes 2 len.toNat ++ ct, { e with count := e.count + 1, masking },
      { d with count := d.count + 1, masking, state := .needLen }, ?_, ?_, ?_⟩
    · rw [VmessEncoder.encode, h.framed, if_neg Bool.false_ne_true, if_neg hnone]
      simp only [hcipher, henc, hmask]
    · refine opens_of_needData hframed h.state (h.masking ▸ hmask) hctne (by omega) fun rest => ?_
      rw [VmessDecoder.needData, if_neg (by simp), List.take_left, List.drop_left,
        if_neg (fun hd => hnone (h.security.symm.trans hd))]
      simp only [h.cipher, hcipher, h.count, h.baseNonce, hdec]
    · exact ⟨h.framed, h.hasCipher, h.cipher, h.baseNonce, congrArg (· + 1) h.count, rfl, h.security,
        h.option, rfl⟩

theorem VmessDecoder.tryDecode_of_needData {d : VmessDecoder} {expected : Nat}
    (hframed : unframed d.security d.option = false) (hstate : d.state = .needData expected)
    (raw : Bytes) : d.tryDecode C raw = d.needData C expected raw := by
  rw [tryDecode.eq_def, hframed, hstate, if_neg Bool.false_ne_true]

/-- Less than a length is waited for. -/
theorem VmessDecoder.tryDecode_of_short {d : VmessDecoder}
    (hframed : unframed d.security d.option = false) (hstate : d.state = .needLen) {raw : Bytes}
    (hshort : raw.length < 2) : d.tryDecode C raw = (.ok none, d, raw) := by
  rw [tryDecode.eq_def, hframed, hstate, if_neg Bool.false_ne_true]
  match raw, hshort with
  | [], _ => rfl
  | [b], _ => rfl

/-! ### All chunks -/

/-- The decoder is between two chunks, and takes in the frames that are due one after another. -/
inductive Awaits (C : DataCrypto) : VmessDecoder → List (Bytes × Bytes) → Prop
  | nil {d : VmessDecoder} (framed : unframed d.security d.option = false)
      (state : d.state = .needLen) : Awaits C d []
  | cons {d d' : VmessDecoder} {chunk frame : Bytes} {due : List (Bytes × Bytes)}
      (opens : Opens C d chunk frame d') (rest : Awaits C d' due) : Awaits C d ((chunk, frame) :: due)

theorem Lockstep.encodeAll (hC : C.Lawful) {e : VmessEncoder} {d : VmessDecoder} (h : Lockstep e d)
    {chunks : List Bytes} (hchunks : ∀ chunk ∈ chunks, chunk ≠ [] ∧ chunk.length ≤ 15000) :
    ∃ due : List (Bytes × Bytes), e.encodeAll C chunks = .ok (due.map Prod.snd) ∧
      due.map Prod.fst = chunks ∧ Awaits C d due := by
  induction chunks generalizing e d with
  | nil => exact ⟨[], rfl, rfl, .nil (by rw [h.security, h.option, h.framed]) h.state⟩
  | cons chunk chunks ih =>
      obtain ⟨⟨hne, hlen⟩, hrest⟩ := List.forall_mem_cons.mp hchunks
      obtain ⟨frame, e', d', henc, hopens, hlock⟩ := h.encode hC hne hlen
      obtain ⟨due, hall, hfst, hawaits⟩ := ih hlock hrest
      refine ⟨(chunk, frame) :: due, ?_, by rw [List.map_cons, hfst], .cons hopens hawaits⟩
      rw [VmessEncoder.encodeAll, henc]
      simp only [hall]
      rfl

/-! ### The decoder as a mailbox -/

/-- What is buffered and what is to come are the frames that are due; of the first one the length may
    have been taken in. -/
inductive InStep (C : DataCrypto) (rest : Bytes) :
    List (Bytes × Bytes) × Nat → VmessDecoder × Bytes → Prop
  | betweenChunks {d : VmessDecoder} {raw : Bytes} {due : List (Bytes × Bytes)} {n : Nat}
      (awaits : Awaits C d due) (bytes : raw ++ rest = stream due) (arrived : n = raw.length) :
      InStep C rest (due, n) (d, raw)
  | inChunk {mid d' : VmessDecoder} {raw chunk body : Bytes} {b0 b1 : UInt8}
      {due : List (Bytes × Bytes)} {n : Nat} (waits : Waits C mid chunk body d')
      (awaits : Awaits C d' due) (bytes : raw ++ rest = body ++ stream due)
      (arrived : n = raw.length + 2) :
      InStep C rest ((chunk, b0 :: b1 :: body) :: due, n) (mid, raw)

theorem InStep.feed {piece rest : Bytes} {s : List (Bytes × Bytes) × Nat} {t : VmessDecoder × Bytes}
    (h : InStep C (piece ++ rest) s t) :
    InStep C rest (mailbox.feed s piece) ((decoding C).feed t piece) := by
  cases h with
  | betweenChunks awaits bytes arrived =>
      refine .betweenChunks awaits (by rw [← bytes, List.append_assoc]) ?_
      rw [arrived, List.length_append]
  | inChunk waits awaits bytes arrived =>
      refine .inChunk waits awaits (by rw [← bytes, List.append_assoc]) ?_
      rw [arrived, List.length_append]
      exact Nat.add_right_comm _ _ _

/-- A poll that waits for the body of a chunk. -/
theorem InStep.needData {mid d' : VmessDecoder} {raw rest chunk body : Bytes} {b0 b1 : UInt8}
    {due : List (Bytes × Bytes)} (hwaits : Waits C mid chunk body d') (hawaits : Awaits C d' due)
    (hbytes : raw ++ rest = body ++ stream due) :
    (mid.needData C body.length raw).1
        = .ok (mailbox.poll ((chunk, b0 :: b1 :: body) :: due, raw.length + 2)).1 ∧
      InStep C rest (mailbox.poll ((chunk, b0 :: b1 :: body) :: due, raw.length + 2)).2
        (mid.needData C body.length raw).2 := by
  have hframe : (b0 :: b1 :: body).length = body.length + 2 := rfl
  by_cases hlt : raw.length < body.length
  · have hpoll : mailbox.poll ((chunk, b0 :: b1 :: body) :: due, raw.length + 2)
        = (none, ((chunk, b0 :: b1 :: body) :: due, raw.length + 2)) := if_neg (by omega)
    rw [hpoll, VmessDecoder.needData, if_pos hlt]
    exact ⟨rfl, .inChunk hwaits hawaits hbytes rfl⟩
  · -- the whole body has come
    obtain ⟨after, rfl⟩ : body <+: raw :=
      List.prefix_of_prefix_length_le (hbytes ▸ List.prefix_append body (stream due))
        (List.prefix_append raw rest) (by omega)
    have hpoll : mailbox.poll ((chunk, b0 :: b1 :: body) :: due, (body ++ after).length + 2)
        = (some chunk, (due, (body ++ after).length + 2 - (b0 :: b1 :: body).length)) :=
      if_pos (by omega)
    rw [hpoll, hwaits.needData after]
    rw [List.append_assoc] at hbytes
    refine ⟨rfl, .betweenChunks hawaits (List.append_cancel_left hbytes) ?_⟩
    rw [hframe, List.length_append]
    omega

theorem InStep.poll {rest : Bytes} {s : List (Bytes × Bytes) × Nat} {t : VmessDecoder × Bytes}
    (h : InStep C rest s t) : ((decoding C).poll t).1 = .ok (mailbox.poll s).1 ∧
      InStep C rest (mailbox.poll s).2 ((decoding C).poll t).2 := by
  cases h with
  | @inChunk mid d' raw chunk body b0 b1 due n waits awaits bytes arrived =>
      have hpoll : (decoding C).poll (mid, raw) = mid.needData C body.length raw := by
        exact VmessDecoder.tryDecode_of_needData waits.framed waits.state raw
      rw [hpoll, arrived]
      exact InStep.needData waits awaits bytes
  | @betweenChunks d raw due n awaits bytes arrived =>
      rw [arrived]
      -- between two chunks nothing more comes, or the next frame has begun or not
      cases awaits with
      | nil framed state =>
          obtain ⟨rfl, -⟩ := List.append_eq_nil_iff.mp bytes
          have hshort : ([] : Bytes).length < 2 := Nat.zero_lt_two
          have hpoll : (decoding C).poll (d, []) = (.ok none, d, []) :=
            VmessDecoder.tryDecode_of_short framed state hshort
          rw [hpoll]
          exact ⟨rfl, .betweenChunks (.nil framed state) bytes rfl⟩
      | @cons d d' chunk frame due opens awaits =>
          obtain ⟨b0, b1, body, mid, rfl, hwaits, hdecode⟩ := opens.exists_waits
          by_cases hshort : raw.length < 2
          · have hpoll : (decoding C).poll (d, raw) = (.ok none, d, raw) :=
              VmessDecoder.tryDecode_of_short opens.framed opens.state hshort
            have hbox : mailbox.poll ((chunk, b0 :: b1 :: body) :: due, raw.length)
                = (none, ((chunk, b0 :: b1 :: body) :: due, raw.length)) :=
              if_neg (by simp only [List.length_cons]; omega)
            rw [hpoll, hbox]
            exact ⟨rfl, .betweenChunks (.cons opens awaits) bytes rfl⟩
          · -- the length is taken in, and the rest is waited for
            have htwo : 2 ≤ raw.length := Nat.not_lt.mp hshort
            obtain ⟨c0, tail, rfl⟩ := List.exists_cons_of_length_pos (Nat.zero_lt_of_lt htwo)
            obtain ⟨c1, raw, rfl⟩ := List.exists_cons_of_length_pos (Nat.le_of_succ_le_succ htwo)
            obtain ⟨rfl, htail⟩ := List.cons.inj bytes
            obtain ⟨rfl, hbody⟩ := List.cons.inj htail
            have hpoll : (decoding C).poll (d, c0 :: c1 :: raw) = mid.needData C body.length raw :=
              hdecode raw
            rw [hpoll]
            exact InStep.needData hwaits awaits hbody

/-! ### The whole stream -/

theorem cipherFor_eq_some {security : UInt8} {key : Vector UInt8 16}
    {cipher : Option VmessAeadCipher} (h : cipherFor C security key = some cipher) :
    security = securityNone ∨ ∃ c, cipher = some c := by
  by_cases hnone : security = securityNone
  · exact .inl hnone
  · rw [cipherFor, if_neg hnone] at h
    obtain ⟨c, -, rfl⟩ := Option.map_eq_some_iff.mp h
    exact .inr ⟨c, rfl⟩

variable {security option : UInt8} {key nonce : Vector UInt8 16} {e : VmessEncoder} {d : VmessDecoder}

/-- A new encoder and a new decoder are in step where chunks are framed. -/
theorem lockstep_new (he : VmessEncoder.new C security option key nonce = some e)
    (hd : VmessDecoder.new C security option key nonce = some d)
    (hframed : unframed security option = false) : Lockstep e d := by
  obtain ⟨cipher, hcipher, rfl⟩ := Option.map_eq_some_iff.mp he
  obtain ⟨cipher', hcipher', rfl⟩ := Option.map_eq_some_iff.mp hd
  obtain rfl := Option.some.inj (hcipher.symm.trans hcipher')
  exact ⟨hframed, cipherFor_eq_some hcipher, rfl, rfl, rfl, rfl, rfl, rfl, rfl⟩

theorem encoder_new_mode (he : VmessEncoder.new C security option key nonce = some e) :
    unframed e.security e.option = unframed security option := by
  obtain ⟨_, -, rfl⟩ := Option.map_eq_some_iff.mp he
  rfl

theorem decoder_new_mode (hd : VmessDecoder.new C security option key nonce = some d) :
    unframed d.security d.option = unframed security option := by
  obtain ⟨_, -, rfl⟩ := Option.map_eq_some_iff.mp hd
  rfl

/-- Without frames and encryption the chunks go as they are. -/
theorem encodeAll_of_unframed (h : unframed e.security e.option = true) (chunks : List Bytes) :
    e.encodeAll C chunks = .ok chunks := by
  have hencode : ∀ chunk, e.encode C chunk = (.ok chunk, e) := by
    intro chunk
    rw [VmessEncoder.encode, h, if_pos rfl]
  induction chunks with
  | nil => rfl
  | cons chunk chunks ih =>
      rw [VmessEncoder.encodeAll, hencode]
      simp only [ih]
      rfl

theorem poll_of_unframed (h : unframed d.security d.option = true) (raw : Bytes) :
    (decoding C).poll (d, raw) = (.ok (pipe.poll raw).1, (d, (pipe.poll raw).2)) := by
  show d.tryDecode C raw = _
  rw [VmessDecoder.tryDecode.eq_def, h, if_pos rfl]
  cases raw with
  | nil => rfl
  | cons b bs => rfl

/-- The decoder gives out the chunks: where they are framed one by one, each as soon as its frame has
    come whole and not earlier, and otherwise the bytes as they come; and when all has come and
    enough calls follow, it has given out everything. -/
structure Delivers (C : DataCrypto) (d : VmessDecoder) (chunks frames : List Bytes) : Prop where
  always : ∀ calls : List (Call UInt8), fed calls <+: frames.flatten →
    ∃ (answers : List (Option Bytes)) (next : Option Bytes),
    (decoding C).answers (d, []) calls = answers.map .ok ∧
      ((decoding C).poll ((decoding C).after (d, []) calls)).1 = .ok next ∧
      if unframed d.security d.option then AsItComes (fed calls) answers.reduceOption next
      else OneByOne chunks frames (fed calls).length answers.reduceOption next
  complete : ∀ (calls : List (Call UInt8)) (m : Nat), fed calls = frames.flatten →
    chunks.length ≤ m → ∃ answers : List (Option Bytes),
      (decoding C).answers (d, []) (calls ++ List.replicate m .poll) = answers.map .ok ∧
        answers.reduceOption.flatten = chunks.flatten

/-- Bytes that go as they are come as they are. -/
theorem delivers_of_unframed (h : unframed d.security d.option = true) (chunks : List Bytes) :
    Delivers C d chunks chunks := by
  have hsim : ∀ calls : List (Call UInt8),
      (decoding C).answers (d, []) calls = (pipe.answers [] calls).map .ok ∧
        (decoding C).after (d, []) calls = (d, pipe.after [] calls) := by
    intro calls
    refine answers_of_simulation pipe (decoding C) .ok (fun _ s t => t = (d, s)) ?_ ?_ calls [] rfl
    · rintro piece rest s t rfl
      rfl
    · rintro rest s t rfl
      rw [poll_of_unframed h]
      exact ⟨rfl, rfl⟩
  refine ⟨fun calls _ => ?_, fun calls m hfed hm => ?_⟩
  · obtain ⟨hans, hafter⟩ := hsim calls
    refine ⟨_, (pipe.poll (pipe.after [] calls)).1, hans, ?_, ?_⟩
    · rw [hafter, poll_of_unframed h]
    · rw [h, if_pos rfl]
      exact pipe_asItComes calls
  · refine ⟨_, (hsim _).1, ?_⟩
    rw [pipe_complete calls, hfed]
    intro hne
    refine Nat.lt_of_lt_of_le (List.length_pos_of_ne_nil ?_) hm
    rintro rfl
    exact hne hfed

/-- What the decoder waits for it gives out. -/
theorem Awaits.delivers {due : List (Bytes × Bytes)} (h : Awaits C d due)
    (hframed : unframed d.security d.option = false) :
    Delivers C d (due.map Prod.fst) (due.map Prod.snd) := by
  have hsim : ∀ calls : List (Call UInt8), ∀ rest, fed calls ++ rest = stream due →
      (decoding C).answers (d, []) calls = (mailbox.answers (due, 0) calls).map .ok ∧
        InStep C rest (mailbox.after (due, 0) calls) ((decoding C).after (d, []) calls) := by
    intro calls rest hrest
    refine answers_of_simulation mailbox (decoding C) .ok (InStep C) ?_ ?_ calls rest ?_
    · exact fun piece rest s t => InStep.feed
    · exact fun rest s t => InStep.poll
    · exact .betweenChunks h hrest rfl
  refine ⟨fun calls hpre => ?_, fun calls m hfed hm => ?_⟩
  · obtain ⟨rest, hrest⟩ := hpre
    obtain ⟨hans, hstep⟩ := hsim calls rest hrest
    refine ⟨_, _, hans, hstep.poll.1, ?_⟩
    rw [hframed, if_neg Bool.false_ne_true]
    exact mailbox_oneByOne due calls
  · rw [List.length_map] at hm
    have hall : fed (calls ++ List.replicate m .poll) ++ [] = stream due := by
      rw [List.append_nil, fed_append, fed_replicate_poll, List.append_nil]
      exact hfed
    refine ⟨_, (hsim _ _ hall).1, ?_⟩
    rw [mailbox_complete due hfed hm]

/-- **The stream.** For every cipher and option that a request chooses, and however the encoding of
    the chunks is cut into pieces and the decoder is called, it gives out the chunks. -/
theorem tryDecode_encodeAll (hC : C.Lawful) (security command respHeader : UInt8)
    (reqKey reqNonce key nonce : Vector UInt8 16) {e : VmessEncoder} {d : VmessDecoder}
    (he : VmessEncoder.new C security
      (RequestHeader.new security command reqKey reqNonce respHeader).option key nonce = some e)
    (hd : VmessDecoder.new C security
      (RequestHeader.new security command reqKey reqNonce respHeader).option key nonce = some d)
    {chunks : List Bytes} (hchunks : ∀ chunk ∈ chunks, chunk ≠ [] ∧ chunk.length ≤ 15000) :
    ∃ frames, e.encodeAll C chunks = .ok frames ∧ frames.length = chunks.length ∧
      Delivers C d chunks frames := by
  cases hmode : unframed security
      (RequestHeader.new security command reqKey reqNonce respHeader).option with
  | true =>
      have hemode := (encoder_new_mode he).trans hmode
      exact ⟨chunks, encodeAll_of_unframed hemode chunks, rfl,
        delivers_of_unframed ((decoder_new_mode hd).trans hmode) chunks⟩
  | false =>
      obtain ⟨due, hall, rfl, hawaits⟩ := (lockstep_new he hd hmode).encodeAll hC hchunks
      refine ⟨due.map Prod.snd, hall, ?_, hawaits.delivers ((decoder_new_mode hd).trans hmode)⟩
      rw [List.length_map, List.length_map]

/-- A cipher that hides nothing and puts a tag of zeroes behind. -/
def plainAead (keyLen : Nat) : Aead keyLen where
  encrypt _ _ msg := some (msg ++ List.replicate 16 0)
  decrypt _ _ ct :=
    if ct.drop (ct.length - 16) = List.replicate 16 0 then some (ct.take (ct.length - 16)) else none

theorem plainAead_lawful (keyLen : Nat) : (plainAead keyLen).Lawful where
  exists_encrypt key nonce msg _ := by
    refine ⟨msg ++ List.replicate 16 0, rfl, ?_, ?_⟩
    · rw [List.length_append, List.length_replicate]
    · show (if _ then _ else _) = _
      rw [List.length_append, List.length_replicate, Nat.add_sub_cancel, List.drop_left,
        List.take_left, if_pos rfl]

/-- Ciphers that hide nothing, and masks of zeroes. -/
def plainData : DataCrypto where
  aes128Gcm := plainAead 16
  chacha20Poly1305 := plainAead 32
  md5 bs := Vector.ofFn fun i => bs.getD i 0
  shake128 _ _ := 0

theorem plainData_lawful : plainData.Lawful := ⟨plainAead_lawful 16, plainAead_lawful 32⟩

/-- A key of zeroes. -/
def zeroKey : Vector UInt8 16 := Vector.replicate 16 0

/-- Packets without a cipher: neither a cipher nor a mask is asked. -/
theorem tryDecode_encodeAll_udp : ∃ e d frames,
    VmessEncoder.new plainData securityNone optChunkStream zeroKey zeroKey = some e ∧
      VmessDecoder.new plainData securityNone optChunkStream zeroKey zeroKey = some d ∧
      e.encodeAll plainData [[1, 2, 3], [4]] = .ok frames ∧ frames.length = 2 ∧
      Delivers plainData d [[1, 2, 3], [4]] frames := by
  have he : VmessEncoder.new plainData securityNone optChunkStream zeroKey zeroKey
      = some ⟨none, zeroKey, 0, none, securityNone, optChunkStream⟩ := rfl
  have hd : VmessDecoder.new plainData securityNone optChunkStream zeroKey zeroKey
      = some ⟨none, zeroKey, 0, none, .needLen, securityNone, optChunkStream⟩ := rfl
  obtain ⟨frames, hall, hlen, hdelivers⟩ := tryDecode_encodeAll plainData_lawful securityNone cmdUdp 0
    zeroKey zeroKey zeroKey zeroKey he hd
    (show ∀ chunk ∈ [[1, 2, 3], [4]], chunk ≠ [] ∧ chunk.length ≤ 15000 by decide)
  exact ⟨_, _, frames, he, hd, hall, hlen, hdelivers⟩

end Reflex.Vmess
