import Reflex.App.QuicGcm
import Reflex.Inbound.Types

namespace Reflex.Shadowsocks

open RustStd

/-!
# Shadowsocks — chunks

The ciphers of `outbound/shadowsocks.rs` and the two halves of a connection.  A chunk is its length in
two bytes and its payload, each sealed under a nonce of its own.  The ciphers of other crates are a
parameter.

* `AeadCipher.seal`, `AeadCipher.open`, `SsWriter.writeChunk`, `SsReader.readChunk` — as in the source;
* `readChunk_sealChunk` — a sealed chunk is read back, and both sides have counted it;
* `roundTrips_iff` — the methods with which payloads are read back as they were written.
-/

/-! ### Ciphers of other crates -/

/-- An authenticated cipher that works in place, used without associated data. -/
structure AeadInPlace (keyLen : Nat) where
  encryptInPlaceDetached (key : Vector UInt8 keyLen) (nonce : Vector UInt8 12) (buf : Bytes) :
    Option (Bytes × Vector UInt8 16)
  decryptInPlace (key : Vector UInt8 keyLen) (nonce : Vector UInt8 12) (buf : Bytes) : Option Bytes
  /-- The buffer is a slice. -/
  length_encrypt : ∀ {key nonce buf ct tag},
    encryptInPlaceDetached key nonce buf = some (ct, tag) → ct.length = buf.length

/-- Short messages are encrypted, and decryption inverts that. -/
def AeadInPlace.Lawful {keyLen : Nat} (A : AeadInPlace keyLen) : Prop :=
  ∀ key nonce msg, msg.length < 2 ^ 16 → ∃ ct tag,
    A.encryptInPlaceDetached key nonce msg = some (ct, tag) ∧
      A.decryptInPlace key nonce (ct ++ tag.toList) = some msg

/-- `Aes128Gcm`, `Aes256Gcm` and `ChaCha20Poly1305`. -/
structure SsCiphers where
  aes128Gcm : AeadInPlace 16
  aes256Gcm : AeadInPlace 32
  chacha20Poly1305 : AeadInPlace 32

structure SsCiphers.Lawful (C : SsCiphers) : Prop where
  aes128Gcm : C.aes128Gcm.Lawful
  aes256Gcm : C.aes256Gcm.Lawful
  chacha20Poly1305 : C.chacha20Poly1305.Lawful

/-- How a connection fails. -/
inductive SsError where
  | unexpectedEof
  | other (text : Str)
  deriving DecidableEq, Repr

/-! ### Methods -/

/-- `Method`. -/
inductive Method where
  | aes128Gcm
  | aes256Gcm
  | chaCha20Poly1305
  | ss2022Aes128Gcm
  | ss2022Aes256Gcm
  | ss2022ChaCha20Poly1305
  | none
  deriving DecidableEq, Repr

namespace Method

/-- `Method::from_str`. -/
def fromStr (s : Str) : Except SsError Method :=
  let name := toAsciiLowercase s
  if name = "aes-128-gcm".toList then .ok .aes128Gcm
  else if name = "aes-256-gcm".toList then .ok .aes256Gcm
  else if name = "chacha20-ietf-poly1305".toList ∨ name = "chacha20-poly1305".toList then
    .ok .chaCha20Poly1305
  else if name = "2022-blake3-aes-128-gcm".toList then .ok .ss2022Aes128Gcm
  else if name = "2022-blake3-aes-256-gcm".toList then .ok .ss2022Aes256Gcm
  else if name = "2022-blake3-chacha20-poly1305".toList then .ok .ss2022ChaCha20Poly1305
  else if name = "none".toList ∨ name = "plain".toList then .ok .none
  else .error (.other ("unsupported shadowsocks method: ".toList ++ name))

/-- `key_len`. -/
def keyLen : Method → Nat
  | .aes128Gcm | .ss2022Aes128Gcm => 16
  | .aes256Gcm | .chaCha20Poly1305 | .ss2022Aes256Gcm | .ss2022ChaCha20Poly1305 => 32
  | .none => 0

/-- `salt_len`. -/
def saltLen (m : Method) : Nat := m.keyLen

/-- `is_2022`. -/
def is2022 : Method → Bool
  | .ss2022Aes128Gcm | .ss2022Aes256Gcm | .ss2022ChaCha20Poly1305 => true
  | _ => false

end Method

/-- `TAG_LEN`. -/
def tagLen : Nat := 16

/-- `MAX_PAYLOAD`. -/
def maxPayload : Nat := 0x3FFF

/-- `encode_target`. -/
def encodeTarget (target : Target) : Bytes :=
  (match target with
    | .socket ⟨.v4 ip, _⟩ => 0x01 :: ip.octets
    | .socket ⟨.v6 ip, _⟩ => 0x04 :: ip.octets
    | .domain host _ => 0x03 :: UInt8.ofNat (utf8 host).length :: utf8 host)
  ++ beBytes 2 target.port.toNat

/-! ### The cipher of one direction -/

/-- `AeadCipher`. -/
structure AeadCipher where
  method : Method
  subkey : Bytes
  counter : UInt64
  deriving DecidableEq, Repr

/-- `new_from_slice`: the key, if the slice has its length. -/
def keyFromSlice (keyLen : Nat) (bs : Bytes) : Option (Vector UInt8 keyLen) :=
  if h : bs.length = keyLen then some ⟨bs.toArray, by rw [List.size_toArray, h]⟩ else none

/-- `do_seal!`. -/
def doSeal {keyLen : Nat} (A : AeadInPlace keyLen) (subkey buf : Bytes) (nonce : Vector UInt8 12) :
    Except SsError (Bytes × Vector UInt8 16) :=
  match keyFromSlice keyLen subkey with
  | none => .error (.other "cipher init: Invalid Length".toList)
  | some key =>
      match A.encryptInPlaceDetached key nonce buf with
      | none => .error (.other "encrypt: aead::Error".toList)
      | some (ct, tag) => .ok (ct, tag)

/-- `do_open!`. -/
def doOpen {keyLen : Nat} (A : AeadInPlace keyLen) (subkey buf : Bytes) (nonce : Vector UInt8 12) :
    Except SsError Bytes :=
  match keyFromSlice keyLen subkey with
  | none => .error (.other "cipher init: Invalid Length".toList)
  | some key =>
      match A.decryptInPlace key nonce buf with
      | none => .error (.other "decrypt: aead::Error".toList)
      | some pt => .ok pt

variable (C : SsCiphers)

namespace AeadCipher

/-- `AeadCipher::new`. -/
def new (method : Method) (subkey : Bytes) : AeadCipher := { method, subkey, counter := 0 }

/-- `nonce`: the counter in eight bytes, and four zeros. -/
def nonce (c : AeadCipher) : Vector UInt8 12 :=
  ⟨(leBytes 8 c.counter.toNat ++ [0, 0, 0, 0]).toArray, by simp⟩

/-- The counter after a message; it wraps around. -/
def next (c : AeadCipher) : AeadCipher := { c with counter := c.counter + 1 }

/-- `seal_inner`: what the buffer is changed to, and the tag. -/
def sealInner (c : AeadCipher) (buf : Bytes) (nonce : Vector UInt8 12) :
    Except SsError (Bytes × Vector UInt8 16) :=
  match c.method with
  | .aes128Gcm | .ss2022Aes128Gcm => doSeal C.aes128Gcm c.subkey buf nonce
  | .aes256Gcm | .ss2022Aes256Gcm => doSeal C.aes256Gcm c.subkey buf nonce
  | .chaCha20Poly1305 | .ss2022ChaCha20Poly1305 => doSeal C.chacha20Poly1305 c.subkey buf nonce
  | .none => .ok (buf, Vector.replicate 16 0)

/-- `open_inner`. -/
def openInner (c : AeadCipher) (buf : Bytes) (nonce : Vector UInt8 12) : Except SsError Bytes :=
  match c.method with
  | .aes128Gcm | .ss2022Aes128Gcm => doOpen C.aes128Gcm c.subkey buf nonce
  | .aes256Gcm | .ss2022Aes256Gcm => doOpen C.aes256Gcm c.subkey buf nonce
  | .chaCha20Poly1305 | .ss2022ChaCha20Poly1305 => doOpen C.chacha20Poly1305 c.subkey buf nonce
  | .none => .ok buf

end AeadCipher

/-- `AeadCipher::seal`: what becomes of the buffer. -/
def AeadCipher.seal (c : AeadCipher) (buf : Bytes) : Except SsError Bytes × AeadCipher :=
  if c.method = .none then (.ok buf, c)
  else
    match c.sealInner C buf c.nonce with
    | .error e => (.error e, c)
    | .ok (buf, tag) => (.ok (buf ++ tag.toList), c.next)

/-- `AeadCipher::open`. -/
def AeadCipher.open (c : AeadCipher) (buf : Bytes) : Except SsError Bytes × AeadCipher :=
  if c.method = .none then (.ok buf, c)
  else if buf.length < tagLen then (.error (.other "ciphertext too short".toList), c)
  else
    match c.openInner C buf c.nonce with
    | .error e => (.error e, c)
    | .ok buf => (.ok buf, c.next)

/-- Which of the two parts of a chunk could not be sealed. -/
inductive SealError where
  | len (e : SsError)
  | payload (e : SsError)
  deriving DecidableEq, Repr

/-- The length of a chunk and its payload, sealed one after the other: `write_chunk`,
    `ss_wrap_xhttp` and a round of `poll_write`. -/
def AeadCipher.sealChunk (c : AeadCipher) (data : Bytes) : Except SealError Bytes × AeadCipher :=
  match c.seal C (beBytes 2 (UInt16.ofNat data.length).toNat) with
  | (.error e, c) => (.error (.len e), c)
  | (.ok lenBuf, c) =>
      match c.seal C data with
      | (.error e, c) => (.error (.payload e), c)
      | (.ok payloadBuf, c) => (.ok (lenBuf ++ payloadBuf), c)

/-- What `?` makes of it. -/
def SealError.toSsError : SealError → SsError
  | .len e | .payload e => e

/-! ### The halves of a connection -/

/-- `SsWriter`; of the connection, what was written to it. -/
structure SsWriter where
  inner : Bytes
  enc : AeadCipher
  deriving DecidableEq, Repr

/-- `SsReader`; of the connection, what is still to come. -/
structure SsReader where
  inner : Bytes
  dec : AeadCipher
  deriving DecidableEq, Repr

/-- `SsWriter::write_chunk`, on a connection that takes what is written. -/
def SsWriter.writeChunk (w : SsWriter) (data : Bytes) : Except SsError Unit × SsWriter :=
  match w.enc.sealChunk C data with
  | (.error e, enc) => (.error e.toSsError, { w with enc })
  | (.ok frame, enc) => (.ok (), { inner := w.inner ++ frame, enc })

/-- `SsReader::read_chunk`. -/
def SsReader.readChunk (r : SsReader) : Except SsError Bytes × SsReader :=
  if r.inner.length < 2 + tagLen then (.error .unexpectedEof, { r with inner := [] })
  else
    let inner := r.inner.drop (2 + tagLen)
    match r.dec.open C (r.inner.take (2 + tagLen)) with
    | (.error e, dec) => (.error e, { inner, dec })
    | (.ok lenBuf, dec) =>
        let payloadLen := beVal (lenBuf.take 2)
        if inner.length < payloadLen + tagLen then (.error .unexpectedEof, { inner := [], dec })
        else
          match dec.open C (inner.take (payloadLen + tagLen)) with
          | (result, dec) => (result, { inner := inner.drop (payloadLen + tagLen), dec })

/-- Payloads, written one after another. -/
def SsWriter.writeChunks (w : SsWriter) : List Bytes → Except SsError Unit × SsWriter
  | [] => (.ok (), w)
  | payload :: payloads =>
      match w.writeChunk C payload with
      | (.error e, w) => (.error e, w)
      | (.ok (), w) => w.writeChunks payloads

/-- That many chunks, read one after another. -/
def SsReader.readChunks (r : SsReader) : Nat → Except SsError (List Bytes)
  | 0 => .ok []
  | n + 1 =>
      match r.readChunk C with
      | (.error e, _) => .error e
      | (.ok payload, r) => (r.readChunks n).map (payload :: ·)

/-- The payloads are written without an error, and reading as many chunks gives them back, whatever
    else follows on the connection. -/
def RoundTrips (method : Method) (subkey : Bytes) (payloads : List Bytes) (rest : Bytes) : Prop :=
  ∃ w : SsWriter,
    ({ inner := [], enc := .new method subkey } : SsWriter).writeChunks C payloads = (.ok (), w) ∧
      ({ inner := w.inner ++ rest, dec := .new method subkey } : SsReader).readChunks C
        payloads.length = .ok payloads

/-! ### One message -/

variable {C}

theorem keyFromSlice_of_length {keyLen : Nat} {bs : Bytes} (h : bs.length = keyLen) :
    ∃ key, keyFromSlice keyLen bs = some key :=
  ⟨_, dif_pos h⟩

theorem doSeal_spec {keyLen : Nat} {A : AeadInPlace keyLen} (hA : A.Lawful) {subkey : Bytes}
    (hkey : subkey.length = keyLen) (nonce : Vector UInt8 12) {msg : Bytes}
    (hmsg : msg.length < 2 ^ 16) :
    ∃ ct tag, doSeal A subkey msg nonce = .ok (ct, tag) ∧ ct.length = msg.length ∧
      doOpen A subkey (ct ++ tag.toList) nonce = .ok msg := by
  obtain ⟨key, hslice⟩ := keyFromSlice_of_length hkey
  obtain ⟨ct, tag, henc, hdec⟩ := hA key nonce msg hmsg
  refine ⟨ct, tag, ?_, A.length_encrypt henc, ?_⟩
  · simp only [doSeal, hslice, henc]
  · simp only [doOpen, hslice, hdec]

namespace AeadCipher

/-- A cipher that encrypts, with a subkey of the length it needs. -/
structure Keyed (c : AeadCipher) : Prop where
  method : c.method ≠ .none
  subkey : c.subkey.length = c.method.keyLen

theorem Keyed.next {c : AeadCipher} (h : c.Keyed) : c.next.Keyed := ⟨h.method, h.subkey⟩

variable {c : AeadCipher} {msg : Bytes}

theorem sealInner_spec (hC : C.Lawful) (h : c.Keyed) (nonce : Vector UInt8 12)
    (hmsg : msg.length < 2 ^ 16) :
    ∃ ct tag, c.sealInner C msg nonce = .ok (ct, tag) ∧ ct.length = msg.length ∧
      c.openInner C (ct ++ tag.toList) nonce = .ok msg := by
  obtain ⟨hmethod, hkey⟩ := h
  unfold sealInner openInner
  cases hm : c.method with
  | aes128Gcm => exact doSeal_spec hC.aes128Gcm (by rw [hkey, hm]; rfl) nonce hmsg
  | aes256Gcm => exact doSeal_spec hC.aes256Gcm (by rw [hkey, hm]; rfl) nonce hmsg
  | chaCha20Poly1305 => exact doSeal_spec hC.chacha20Poly1305 (by rw [hkey, hm]; rfl) nonce hmsg
  | ss2022Aes128Gcm => exact doSeal_spec hC.aes128Gcm (by rw [hkey, hm]; rfl) nonce hmsg
  | ss2022Aes256Gcm => exact doSeal_spec hC.aes256Gcm (by rw [hkey, hm]; rfl) nonce hmsg
  | ss2022ChaCha20Poly1305 =>
      exact doSeal_spec hC.chacha20Poly1305 (by rw [hkey, hm]; rfl) nonce hmsg
  | none => exact absurd hm hmethod

/-- **One message** is sealed to a ciphertext that is longer by the tag, and the same cipher opens it again. -/
theorem seal_spec (hC : C.Lawful) (h : c.Keyed) (hmsg : msg.length < 2 ^ 16) :
    ∃ ct, c.seal C msg = (.ok ct, c.next) ∧ ct.length = msg.length + tagLen ∧
      c.open C ct = (.ok msg, c.next) := by
  obtain ⟨ct, tag, hseal, hlen, hopen⟩ := sealInner_spec hC h c.nonce hmsg
  have hlong : (ct ++ tag.toList).length = msg.length + tagLen := by
    rw [List.length_append, hlen, Vector.length_toList]
    rfl
  refine ⟨ct ++ tag.toList, ?_, hlong, ?_⟩
  · rw [AeadCipher.seal, if_neg h.method]
    simp only [hseal]
  · rw [AeadCipher.open, if_neg h.method, if_neg (by omega)]
    simp only [hopen]

/-- **One chunk.**  Its two parts are sealed under consecutive nonces. -/
theorem sealChunk_spec (hC : C.Lawful) (h : c.Keyed) (hmsg : msg.length < 2 ^ 16) :
    ∃ lenBuf payloadBuf, c.sealChunk C msg = (.ok (lenBuf ++ payloadBuf), c.next.next) ∧
      lenBuf.length = 2 + tagLen ∧ payloadBuf.length = msg.length + tagLen ∧
      c.open C lenBuf = (.ok (beBytes 2 msg.length), c.next) ∧
      c.next.open C payloadBuf = (.ok msg, c.next.next) := by
  have htwo : (beBytes 2 msg.length).length < 2 ^ 16 := by
    rw [length_beBytes]
    decide
  obtain ⟨lenBuf, hsealLen, hlenLen, hopenLen⟩ := seal_spec hC h htwo
  obtain ⟨payloadBuf, hsealPayload, hlenPayload, hopenPayload⟩ := seal_spec hC h.next hmsg
  refine ⟨lenBuf, payloadBuf, ?_, by rw [hlenLen, length_beBytes], hlenPayload, hopenLen,
    hopenPayload⟩
  rw [sealChunk, UInt16.toNat_ofNat_of_lt' hmsg]
  simp only [hsealLen, hsealPayload]

end AeadCipher

/-- **A sealed chunk is read back**, in front of anything. -/
theorem readChunk_sealChunk (hC : C.Lawful) {c : AeadCipher} (h : c.Keyed) {msg : Bytes}
    (hmsg : msg.length < 2 ^ 16) :
    ∃ frame, c.sealChunk C msg = (.ok frame, c.next.next) ∧
      frame.length = msg.length + (2 + tagLen + tagLen) ∧
      ∀ rest, ({ inner := frame ++ rest, dec := c } : SsReader).readChunk C
        = (.ok msg, { inner := rest, dec := c.next.next }) := by
  obtain ⟨lenBuf, payloadBuf, hseal, hlenBuf, hpayloadBuf, hopenLen, hopenPayload⟩ :=
    AeadCipher.sealChunk_spec hC h hmsg
  refine ⟨lenBuf ++ payloadBuf, hseal, by rw [List.length_append]; omega, fun rest => ?_⟩
  have hlen : beVal ((beBytes 2 msg.length).take 2) = msg.length := by
    rw [List.take_of_length_le (by simp), beVal_beBytes_of_lt hmsg]
  rw [SsReader.readChunk, if_neg (by simp only [List.length_append]; omega)]
  simp only [List.append_assoc, List.take_left' hlenBuf, List.drop_left' hlenBuf, hopenLen, hlen]
  rw [if_neg (by rw [List.length_append]; omega), List.take_left' hpayloadBuf,
    List.drop_left' hpayloadBuf, hopenPayload]

/-! ### All chunks -/

/-- Payloads that are written are read back. -/
theorem readChunks_writeChunks (hC : C.Lawful) {payloads : List Bytes}
    (hpayloads : ∀ payload ∈ payloads, payload.length < 2 ^ 16) {w : SsWriter} (h : w.enc.Keyed) :
    ∃ sent enc, w.writeChunks C payloads = (.ok (), { inner := w.inner ++ sent, enc }) ∧
      ∀ rest, ({ inner := sent ++ rest, dec := w.enc } : SsReader).readChunks C payloads.length
        = .ok payloads := by
  induction payloads generalizing w with
  | nil => exact ⟨[], w.enc, by rw [List.append_nil]; rfl, fun _ => rfl⟩
  | cons payload payloads ih =>
      obtain ⟨hpayload, hrest⟩ := List.forall_mem_cons.mp hpayloads
      obtain ⟨frame, hseal, -, hread⟩ := readChunk_sealChunk hC h hpayload
      -- the writer goes on behind the frame, with the cipher that the reader has by then
      obtain ⟨sent, enc, hwrite, hreads⟩ :=
        ih hrest (w := { inner := w.inner ++ frame, enc := w.enc.next.next }) h.next.next
      refine ⟨frame ++ sent, enc, ?_, fun rest => ?_⟩
      · rw [SsWriter.writeChunks, SsWriter.writeChunk, hseal]
        simp only [hwrite, List.append_assoc]
      · rw [List.length_cons, SsReader.readChunks, List.append_assoc, hread]
        simp only [hreads]
        rfl

theorem isPrefix_writeChunks {payloads : List Bytes} {w w' : SsWriter} {result : Except SsError Unit}
    (h : w.writeChunks C payloads = (result, w')) : w.inner <+: w'.inner := by
  induction payloads generalizing w with
  | nil =>
      obtain ⟨-, rfl⟩ := Prod.mk.inj h
      exact List.prefix_refl w.inner
  | cons payload payloads ih =>
      rw [SsWriter.writeChunks, SsWriter.writeChunk] at h
      rcases hseal : w.enc.sealChunk C payload with ⟨e | frame, enc⟩
      · simp only [hseal] at h
        obtain ⟨-, rfl⟩ := Prod.mk.inj h
        exact List.prefix_refl w.inner
      · simp only [hseal] at h
        exact (List.prefix_append w.inner frame).trans (ih h)

/-! ### No encryption -/

theorem sealChunk_of_none {c : AeadCipher} (h : c.method = .none) (msg : Bytes) :
    c.sealChunk C msg = (.ok (beBytes 2 (UInt16.ofNat msg.length).toNat ++ msg), c) := by
  simp only [AeadCipher.sealChunk, AeadCipher.seal, if_pos h]

/-- **Without encryption** the reader waits for tags that the writer does not send: it does not read
    the payload that was written. -/
theorem readChunk_of_none {c : AeadCipher} (h : c.method = .none) {msg : Bytes}
    (hmsg : msg.length < 2 ^ 16) (rest : Bytes) :
    (({ inner := beBytes 2 msg.length ++ msg ++ rest, dec := c } : SsReader).readChunk C).1
      ≠ .ok msg := by
  have hlen : ∀ n, beVal (((beBytes 2 msg.length ++ msg ++ rest).take (2 + n)).take 2)
      = msg.length := by
    intro n
    rw [List.take_take, Nat.min_eq_left (by omega), List.append_assoc,
      List.take_left' (length_beBytes 2 _), beVal_beBytes_of_lt hmsg]
  rw [SsReader.readChunk]
  split
  · exact nofun
  · simp only [AeadCipher.open, if_pos h, hlen]
    split
    · exact nofun
    · -- what is read has sixteen bytes more than the payload
      rename_i hlong
      intro heq
      have hcount := congrArg List.length (Except.ok.inj heq)
      rw [List.length_take, Nat.min_eq_left (Nat.not_lt.mp hlong)] at hcount
      exact absurd hcount (by simp [tagLen])

/-- Payloads are read back as they were written, exactly if the method encrypts or nothing was
    written. -/
theorem roundTrips_iff (hC : C.Lawful) {method : Method} {subkey : Bytes}
    (hkey : subkey.length = method.keyLen) {payloads : List Bytes}
    (hpayloads : ∀ payload ∈ payloads, 1 ≤ payload.length ∧ payload.length ≤ maxPayload)
    (rest : Bytes) :
    RoundTrips C method subkey payloads rest ↔ method ≠ .none ∨ payloads = [] := by
  have hshort : ∀ payload ∈ payloads, payload.length < 2 ^ 16 := by
    intro payload hmem
    have hle : payload.length ≤ 0x3FFF := (hpayloads payload hmem).2
    omega
  constructor
  · rintro ⟨w, hwrite, hread⟩
    refine or_iff_not_imp_left.mpr fun hnone => ?_
    have hmethod : (AeadCipher.new method subkey).method = .none := not_not.mp hnone
    cases payloads with
    | nil => rfl
    | cons payload payloads =>
        exfalso
        have hpayload := hshort payload List.mem_cons_self
        rw [SsWriter.writeChunks, SsWriter.writeChunk, sealChunk_of_none hmethod,
          UInt16.toNat_ofNat_of_lt' hpayload] at hwrite
        obtain ⟨more, hmore⟩ := isPrefix_writeChunks hwrite
        rw [List.length_cons, SsReader.readChunks, ← hmore, List.nil_append, List.append_assoc] at hread
        -- the writer frames nothing here, and the reader takes the payload for a length
        have hfirst := readChunk_of_none (C := C) hmethod hpayload (more ++ rest)
        split at hread
        · cases hread
        · rename_i first r hchunk
          rw [hchunk] at hfirst
          rcases htail : r.readChunks C payloads.length with e | tail
          · rw [htail] at hread
            cases hread
          · rw [htail] at hread
            exact hfirst (congrArg Except.ok (List.cons.inj (Except.ok.inj hread)).1)
  · rintro (hmethod | rfl)
    · have hkeyed : (AeadCipher.new method subkey).Keyed := ⟨hmethod, hkey⟩
      obtain ⟨sent, enc, hwrite, hread⟩ := readChunks_writeChunks hC hshort
        (w := { inner := [], enc := .new method subkey }) hkeyed
      exact ⟨_, hwrite, hread rest⟩
    · exact ⟨_, rfl, rfl⟩

/-! ### Galois/Counter Mode -/

/-- Decryption of a ciphertext with its tag behind it. -/
def gcmOpen (cipher : Gcm.Block → Gcm.Block) (nonce : Vector UInt8 12) (buf : Bytes) : Option Bytes :=
  let tagPos := buf.length - tagLen
  if buf.length < tagLen then none
  else Gcm.decrypt cipher App.gf128Mul nonce.toList [] (buf.take tagPos)
    (Gcm.blockOf (buf.drop tagPos))

theorem gcmOpen_append (cipher : Gcm.Block → Gcm.Block) (nonce : Vector UInt8 12) (ct : Bytes)
    (tag : Gcm.Block) : gcmOpen cipher nonce (ct ++ tag.toList)
      = Gcm.decrypt cipher App.gf128Mul nonce.toList [] ct tag := by
  have htag : tag.toList.length = tagLen := Vector.length_toList
  have hpos : (ct ++ tag.toList).length - tagLen = ct.length := by
    rw [List.length_append, htag, Nat.add_sub_cancel]
  simp only [gcmOpen, hpos, List.take_left, List.drop_left, Gcm.blockOf_toList]
  exact if_neg (by rw [List.length_append]; omega)

/-- A block cipher in Galois/Counter Mode. -/
def gcmInPlace {keyLen : Nat} (cipher : Vector UInt8 keyLen → Gcm.Block → Gcm.Block) :
    AeadInPlace keyLen where
  encryptInPlaceDetached key nonce buf :=
    some (Gcm.encrypt (cipher key) App.gf128Mul nonce.toList [] buf)
  decryptInPlace key nonce buf := gcmOpen (cipher key) nonce buf
  length_encrypt := by
    intro key nonce buf ct tag h
    rw [← (Prod.mk.inj (Option.some.inj h)).1]
    exact Gcm.length_gctr _ _ buf

theorem gcmInPlace_lawful {keyLen : Nat} (cipher : Vector UInt8 keyLen → Gcm.Block → Gcm.Block) :
    (gcmInPlace cipher).Lawful := by
  intro key nonce msg _
  refine ⟨(Gcm.encrypt (cipher key) App.gf128Mul nonce.toList [] msg).1,
    (Gcm.encrypt (cipher key) App.gf128Mul nonce.toList [] msg).2, rfl, ?_⟩
  exact (gcmOpen_append _ _ _ _).trans (Gcm.decrypt_encrypt ..)

/-- AES-128-GCM, and in place of the ciphers with longer keys the same under half of the key. -/
def gcmCiphers : SsCiphers where
  aes128Gcm := gcmInPlace fun key => App.cipher key.toList
  aes256Gcm := gcmInPlace fun key => App.cipher (key.toList.take 16)
  chacha20Poly1305 := gcmInPlace fun key => App.cipher (key.toList.take 16)

theorem gcmCiphers_lawful : gcmCiphers.Lawful where
  aes128Gcm := gcmInPlace_lawful _
  aes256Gcm := gcmInPlace_lawful _
  chacha20Poly1305 := gcmInPlace_lawful _

/-- Two payloads under AES-128-GCM, with a key of zeros. -/
theorem roundTrips_iff_aes128Gcm :
    RoundTrips gcmCiphers .aes128Gcm (List.replicate 16 0) [[1, 2, 3], [4]] [] ↔
      Method.aes128Gcm ≠ .none ∨ [[1, 2, 3], [4]] = ([] : List Bytes) :=
  roundTrips_iff gcmCiphers_lawful (by decide) (by decide) []

/-- A payload of one byte without encryption. -/
theorem not_roundTrips_none : ¬ RoundTrips gcmCiphers .none [] [[1]] [] := by
  rintro ⟨w, hwrite, hread⟩
  obtain ⟨-, rfl⟩ := Prod.mk.inj hwrite
  exact absurd hread (by decide)

end Reflex.Shadowsocks
