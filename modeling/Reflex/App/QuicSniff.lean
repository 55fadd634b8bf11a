import Reflex.App.QuicPacket

namespace Reflex.App

open RustStd Machine Gcm

/-!
# Sniffing — QUIC

`try_quic` of `app/sniff.rs` decrypts the first packet of a client and looks for the name in its
`ClientHello`.  The header of the packet does not come to `decrypt_quic_initial`, which takes the first
byte of the packet number for that of the packet.

* `extractGo_frames`, `extractGo_crypto` — the loop over the frames, one frame after another;
* `decryptQuicInitial_protected`, `tryQuic_protect` — what is made of the packet of a client;
* `readAad_ne_header` — the additional data is never the header;
* `found_iff_of_aligned`, `collision_of_found` — the packets whose number is restored, and what finding a name takes;
* `quicName_iff` — when the name is found.
-/

/-! ### The code -/

section Code

variable (suite : Suite) (gcmDecrypt : (key nonce aad ciphertext tag : Bytes) → Option Bytes)

/-- `QUIC_V2_INITIAL_SALT`. -/
def quicV2InitialSalt : Bytes :=
  [0x0d, 0xed, 0xe3, 0xde, 0xf7, 0x00, 0xa6, 0xdb, 0x81, 0x93, 0x81, 0xbe, 0x6e, 0x26, 0x9d, 0xcb, 0xf9, 0xbd,
    0x2e, 0xd9]

/-- `QUIC_DRAFT29_INITIAL_SALT`. -/
def quicDraft29InitialSalt : Bytes :=
  [0xaf, 0xbf, 0xec, 0x28, 0x99, 0x93, 0xd2, 0x4c, 0x9e, 0x97, 0x86, 0xf1, 0x9c, 0x61, 0x11, 0xe0, 0x43, 0x90,
    0xa8, 0x99]

/-- `aes128_ecb_block`. -/
def aes128EcbBlock (key block : Bytes) : Option Block :=
  if key.length ≠ 16 ∨ block.length < 16 then none else some (suite.cipher key (blockOf block))

/-- The byte that is restored as the first one; `payload` starts with the packet number. -/
def unmaskFirst (mask : Block) (payload : Bytes) : UInt8 := payload.getD 0 0 ^^^ (mask.get 0 &&& 0x0F)

/-- The bytes that are restored as the packet number. -/
def unmaskPn (mask : Block) (payload : Bytes) (pnLen : Nat) : Bytes :=
  (List.range pnLen).map fun i => payload.getD i 0 ^^^ mask.toList.getD (1 + i) 0

/-- The nonce of `decrypt_quic_initial`, in which the packet number stands at the left of its four bytes. -/
def aeadNonce (iv pnBytes : Bytes) : Bytes :=
  -- the array of four bytes is filled from its start
  let pnBe := pnBytes ++ List.replicate (4 - pnBytes.length) 0
  iv.take 8 ++ List.zipWith (· ^^^ ·) (iv.drop 8) pnBe

/-- `decrypt_quic_initial`; what it takes of `payload` is there.  It does not look at `_is_v2`. -/
def decryptQuicInitial (dcid initialSalt payload : Bytes) : Option Bytes := do
  let initialSecret := hkdfExtractSha256 suite initialSalt dcid
  let clientSecret ← hkdfExpandLabelSha256 suite initialSecret (utf8 "client in".toList) [] 32
  let key ← hkdfExpandLabelSha256 suite clientSecret (utf8 "quic key".toList) [] 16
  let iv ← hkdfExpandLabelSha256 suite clientSecret (utf8 "quic iv".toList) [] 12
  let hp ← hkdfExpandLabelSha256 suite clientSecret (utf8 "quic hp".toList) [] 16
  if payload.length < 20 then none
  else
    let mask ← aes128EcbBlock suite hp (slice payload 4 16)
    let firstByte := unmaskFirst mask payload
    let pnLen := (firstByte &&& 0x03).toNat + 1
    if payload.length < pnLen then none
    else
      let pnBytes := unmaskPn mask payload pnLen
      let nonce := aeadNonce iv pnBytes
      if payload.length < pnLen + 16 then none
      else
        let ciphertext := slice payload pnLen (payload.length - 16 - pnLen)
        let tag := payload.drop (payload.length - 16)
        let aad := firstByte :: pnBytes
        gcmDecrypt key nonce aad ciphertext tag

/-- The loop of `extract_sni_from_quic_crypto`. -/
def extractGo (data : Bytes) (pos : Nat) : Checked (Option SniffResult) :=
  if pos < data.length then do
    let frameType ← index data pos
    if frameType = 0x00 then extractGo data (pos + 1)
    else if frameType = 0x06 then
      match ← readVarint data (pos + 1) with
      | none => return none
      | some (_, vl) =>
          match ← readVarint data (pos + 1 + vl) with
          | none => return none
          | some (flen, vl2) =>
              let start := pos + 1 + vl + vl2
              let fend := min (start + flen) data.length
              let cryptoData ← range data start fend
              if 4 ≤ cryptoData.length ∧ cryptoData.getD 0 0 = 0x01 then
                tryTls ([0x16, 0x03, 0x03, 0x00, 0x00] ++ cryptoData)
              else extractGo data fend
    else return none
  else return none
termination_by data.length - pos

/-- `extract_sni_from_quic_crypto`. -/
def extractSniFromQuicCrypto (data : Bytes) : Checked (Option SniffResult) := extractGo data 0

/-- The versions: whether it is the second one, and the salt. -/
def quicVersion (version : Nat) : Option (Bool × Bytes) :=
  if version = 0x00000001 then some (false, quicV1InitialSalt)
  else if version = 0x6b3343cf then some (true, quicV2InitialSalt)
  else if version = 0xff00001d then some (false, quicDraft29InitialSalt)
  else none

/-- `try_quic` from the token on. -/
def tryQuicToken (dcid initialSalt buf : Bytes) (pos : Nat) : Checked (Option SniffResult) := do
  match ← readVarint buf pos with
  | none => return none
  | some (tokenLen, vl) =>
      let pos := pos + (vl + tokenLen)
      match ← readVarint buf pos with
      | none => return none
      | some (pktLen, vl2) =>
          let pos := pos + vl2
          if buf.length ≤ pos then return none
          let encryptedPayload ← range buf pos (min (pos + pktLen) buf.length)
          if encryptedPayload = [] then return none
          match decryptQuicInitial suite gcmDecrypt dcid initialSalt encryptedPayload with
          | none => return none
          | some plaintext => extractSniFromQuicCrypto plaintext

/-- `try_quic`.  Integers of QUIC are below `2 ^ 62`, so that no position overflows. -/
def tryQuic (buf : Bytes) : Checked (Option SniffResult) := do
  if buf.length < 6 then return none
  let first ← index buf 0
  if first &&& 0xC0 ≠ 0xC0 then return none
  let version ← range buf 1 5
  match quicVersion (beVal version) with
  | none => return none
  | some (isV2, initialSalt) =>
      let ptype := (first &&& 0x30) >>> 4
      if ptype ≠ (if isV2 then 0x01 else 0x00) then return none
      let dcidLen ← index buf 5
      let pos := 6
      if dcidLen.toNat = 0 ∨ 20 < dcidLen.toNat then return none
      if buf.length < pos + dcidLen.toNat then return none
      let dcid ← range buf pos (pos + dcidLen.toNat)
      let pos := pos + dcidLen.toNat
      if buf.length ≤ pos then return none
      let scidLen ← index buf pos
      let pos := pos + 1
      if buf.length < pos + scidLen.toNat then return none
      tryQuicToken suite gcmDecrypt dcid initialSalt buf (pos + scidLen.toNat)

end Code

/-- GCM as the sender has it.  The code has `aes128GcmDecrypt` in its place. -/
def Suite.gcmDecrypt (suite : Suite) (key nonce aad ciphertext tag : Bytes) : Option Bytes :=
  if key.length ≠ 16 ∨ nonce.length ≠ 12 ∨ tag.length ≠ 16 then none
  else decrypt (suite.cipher key) suite.mul nonce aad ciphertext (blockOf tag)

/-! ### Frames -/

/-- **Padding** is skipped, and the loop ends at any other frame that is not `CRYPTO`. -/
theorem extractGo_frames {data rest : Bytes} {pos : Nat} {frames : List Frame}
    (h : data.drop pos = frames.flatMap Frame.bytes ++ rest) :
    extractGo data pos = if ∀ frame ∈ frames, frame = .padding then extractGo data (pos + frames.length)
      else .ok none := by
  induction frames generalizing pos with
  | nil => rw [if_pos (fun frame hframe => (nomatch hframe)), List.length_nil, Nat.add_zero]
  | cons frame frames ih =>
    rw [List.flatMap_cons, List.append_assoc] at h
    -- a frame that is not padding starts with a byte that ends the loop
    have hother : ∀ {frameType : UInt8} {body : Bytes}, frame.bytes = frameType :: body → frameType ≠ 0x00 →
        frameType ≠ 0x06 → extractGo data pos = .ok none := by
      intro frameType body hbytes hpadding hcrypto
      rw [hbytes, List.cons_append] at h
      have hlength := length_of_drop h (List.cons_ne_nil _ _)
      rw [List.length_cons] at hlength
      rw [extractGo, if_pos (by omega), index_of_drop h, ok_bind, if_neg hpadding, if_neg hcrypto]
      rfl
    have hall : frame ≠ .padding → ¬ ∀ f ∈ frame :: frames, f = .padding :=
      fun hne hall => hne (hall frame List.mem_cons_self)
    cases frame with
    | padding =>
      have hlength := length_of_drop h (List.cons_ne_nil _ _)
      rw [Frame.bytes, List.cons_append, List.length_cons] at hlength
      rw [extractGo, if_pos (by omega), index_of_drop h, ok_bind, if_pos rfl, ih (drop_succ_of_drop h),
        List.length_cons, Nat.add_assoc, Nat.add_comm 1]
      simp only [List.forall_mem_cons, true_and]
    | ping => rw [if_neg (hall (by decide)), hother rfl (by decide) (by decide)]
    | ack ecn body =>
      rw [if_neg (hall (nomatch ·))]
      cases ecn with
      | false => exact hother rfl (by decide) (by decide)
      | true => exact hother rfl (by decide) (by decide)
    | connectionClose body => rw [if_neg (hall (nomatch ·)), hother rfl (by decide) (by decide)]

/-- **The `CRYPTO` frame**: its message is looked at as if it were in a record. -/
theorem extractGo_crypto {data : Bytes} {pos : Nat} {payload : CryptoPayload}
    (h : data.drop pos = payload.crypto ++ payload.behind) :
    extractGo data pos = .ok (some (helloResult payload.name payload.hello.protocols)) := by
  rw [CryptoPayload.crypto, List.cons_append, List.append_assoc, List.append_assoc] at h
  have hzero : VarintFits payload.offsetSize 0 := Nat.mul_pos (by decide) (Nat.pow_pos (by decide))
  have hoffset := drop_succ_of_drop h
  have hlength := drop_add_of_drop hoffset
  have hmessage := drop_add_of_drop hlength
  have hbuf := length_of_drop h (List.cons_ne_nil _ _)
  simp only [List.length_cons, List.length_append] at hbuf
  have hfour : 4 ≤ payload.hello.message.length := by
    rw [ClientHello.message, List.length_cons, List.length_append, length_beBytes]
    omega
  rw [extractGo, if_pos (by omega), index_of_drop h, ok_bind, if_neg (by decide), if_pos rfl,
    readVarint_varint hzero hoffset, ok_bind]
  dsimp only
  rw [readVarint_varint payload.length_message hlength, ok_bind]
  dsimp only
  rw [min_eq_left (by omega), range_of_drop (by omega) hmessage, ok_bind, if_pos ⟨hfour, rfl⟩]
  obtain ⟨-, -, -, h43⟩ := record_fields payload.hello 0x03 []
  refine tryTls_of_fields payload.serverNames rfl rfl rfl (Eq.trans ?_ h43)
  -- both are what is 38 bytes behind the start of the message
  have hrecord : (payload.hello.record 0x03 ++ []).drop 5 = payload.hello.message := by
    rw [List.append_nil]
    exact List.drop_left' (length_beBytes 2 _)
  have hdrop := List.drop_drop (i := 38) (j := 5) (l := payload.hello.record 0x03 ++ [])
  rw [hrecord] at hdrop
  exact hdrop

/-- The bytes hold a name for the loop over the frames. -/
def Names (name : Str) (plaintext : Bytes) : Prop :=
  ∃ protocol, extractSniFromQuicCrypto plaintext = .ok (some ⟨some name, protocol⟩)

/-- **The name in a payload** is found exactly if there is nothing but padding in front of it. -/
theorem names_payload_iff (payload : CryptoPayload) :
    Names payload.name payload.bytes ↔ ∀ frame ∈ payload.before, frame = .padding := by
  have hdata : payload.bytes.drop 0 =
      payload.before.flatMap Frame.bytes ++ (payload.crypto ++ payload.behind) := rfl
  have hframes := extractGo_frames hdata
  constructor
  · rintro ⟨protocol, hname⟩
    by_contra hother
    rw [extractSniFromQuicCrypto, hframes, if_neg hother] at hname
    cases hname
  · intro hpadding
    have hlength : (payload.before.flatMap Frame.bytes).length = payload.before.length := by
      rw [List.eq_replicate_of_mem hpadding]
      generalize payload.before.length = count
      induction count with
      | zero => rfl
      | succ count ih =>
        rw [List.replicate_succ, List.flatMap_cons, List.length_append, ih, List.length_cons, Nat.add_comm]
        rfl
    have hcrypto : payload.bytes.drop (0 + payload.before.length) = payload.crypto ++ payload.behind := by
      rw [← hlength]
      exact drop_add_of_drop hdata
    have hfound := extractGo_crypto hcrypto
    rw [← if_pos hpadding (t := extractGo payload.bytes (0 + payload.before.length)), ← hframes] at hfound
    exact ⟨_, hfound⟩

/-! ### What is made of a packet -/

namespace InitialPacket

variable (suite : Suite) (pkt : InitialPacket)

/-- What is restored as the first byte. -/
def readFirst : UInt8 := unmaskFirst (pkt.mask suite) (pkt.protectedBytes suite)

/-- What is restored as the packet number. -/
def readPn : Bytes :=
  unmaskPn (pkt.mask suite) (pkt.protectedBytes suite) ((pkt.readFirst suite &&& 0x03).toNat + 1)

/-- The nonce that is made of it. -/
def readNonce : Bytes := aeadNonce (pkt.keys suite).iv (pkt.readPn suite)

/-- The additional data that is made of it. -/
def readAad : Bytes := pkt.readFirst suite :: pkt.readPn suite

/-- What is taken for the ciphertext, behind a packet number of the length that was read. -/
def readCiphertext : Bytes :=
  slice (pkt.protectedBytes suite) (pkt.readPn suite).length
    ((pkt.protectedBytes suite).length - 16 - (pkt.readPn suite).length)

theorem length_readPn : (pkt.readPn suite).length = (pkt.readFirst suite &&& 0x03).toNat + 1 := by
  rw [readPn, unmaskPn, List.length_map, List.length_range]

theorem length_readPn_le : (pkt.readPn suite).length ≤ 4 := by
  have hmask : (pkt.readFirst suite &&& 0x03).toNat ≤ 3 := by
    rw [UInt8.toNat_and]
    exact Nat.and_le_right
  rw [length_readPn]
  omega

/-- **The additional data** has five bytes at most, and so it is never the header. -/
theorem readAad_ne_header : pkt.readAad suite ≠ pkt.header := by
  intro h
  have hlength := congrArg List.length h
  have hpn := pkt.length_readPn_le suite
  simp only [readAad, header, fields, List.length_cons, List.length_append, length_beBytes, vec8,
    length_varint] at hlength
  omega

/-- The sample does not reach back to the packet number. -/
theorem slice_sample :
    slice (pkt.protectedBytes suite) 4 16 = slice (pkt.pnBytes ++ pkt.encryptedBytes suite) 4 16 := by
  have hlt := pkt.pnLen.isLt
  have hmasked := pkt.length_maskedPn suite
  have hpn := pkt.length_pnBytes
  rw [slice, slice, protectedBytes, List.drop_append, List.drop_append, hmasked, hpn,
    List.drop_eq_nil_of_le (hmasked.trans_le hlt), List.drop_eq_nil_of_le (hpn.trans_le hlt)]

/-- **Decryption** of what is sent from the packet number on. -/
theorem decryptQuicInitial_protected (gcmDecrypt : (key nonce aad ciphertext tag : Bytes) → Option Bytes) :
    decryptQuicInitial suite gcmDecrypt pkt.dcid quicV1InitialSalt (pkt.protectedBytes suite)
      = gcmDecrypt (pkt.keys suite).key (pkt.readNonce suite) (pkt.readAad suite) (pkt.readCiphertext suite)
          (pkt.encrypted suite).2.toList := by
  have hlength := pkt.length_protectedBytes suite
  have hpayload := pkt.payload.length_bytes
  rw [protectedLength] at hlength
  have hread := pkt.length_readPn suite
  have hread' := pkt.length_readPn_le suite
  have hsample : (slice (pkt.protectedBytes suite) 4 16).length = 16 := length_slice (by omega)
  have htag : (pkt.protectedBytes suite).drop ((pkt.protectedBytes suite).length - 16)
      = (pkt.encrypted suite).2.toList := by
    rw [protectedBytes, encryptedBytes, ← List.append_assoc]
    refine List.drop_left' ?_
    simp only [List.length_append, Vector.length_toList]
    omega
  have hhp : (pkt.keys suite).hp.length = 16 := length_hp suite _ _
  have hmask : aes128EcbBlock suite (pkt.keys suite).hp (slice (pkt.protectedBytes suite) 4 16)
      = some (pkt.mask suite) := by
    rw [aes128EcbBlock, if_neg (by omega), slice_sample]
    rfl
  -- the keys are those of the sender
  have hclient : ∀ secret : Bytes, hkdfExpandLabelSha256 suite secret (utf8 "client in".toList) [] 32
      = some (expandLabel suite secret "client in".toList [] 32) :=
    fun secret => hkdfExpandLabelSha256_eq suite secret _ _ (by decide)
  set secret := expandLabel suite (suite.hmac quicV1InitialSalt pkt.dcid) "client in".toList [] 32
    with hsecret
  have hkey : hkdfExpandLabelSha256 suite secret (utf8 "quic key".toList) [] 16 = some (pkt.keys suite).key :=
    hkdfExpandLabelSha256_eq suite secret _ _ (by decide)
  have hiv : hkdfExpandLabelSha256 suite secret (utf8 "quic iv".toList) [] 12 = some (pkt.keys suite).iv :=
    hkdfExpandLabelSha256_eq suite secret _ _ (by decide)
  have hhpKey : hkdfExpandLabelSha256 suite secret (utf8 "quic hp".toList) [] 16 = some (pkt.keys suite).hp :=
    hkdfExpandLabelSha256_eq suite secret _ _ (by decide)
  rw [decryptQuicInitial, hkdfExtractSha256, hclient, Option.bind_eq_bind, Option.bind_some, ← hsecret, hkey,
    Option.bind_some, hiv, Option.bind_some, hhpKey, Option.bind_some, if_neg (by omega), hmask,
    Option.bind_eq_bind, Option.bind_some]
  dsimp only
  have hpn : unmaskPn (pkt.mask suite) (pkt.protectedBytes suite) (pkt.readPn suite).length
      = pkt.readPn suite := by
    rw [length_readPn]
    rfl
  rw [← readFirst, ← length_readPn, if_neg (by omega), if_neg (by omega), htag, hpn]
  rfl

/-- The first byte that is sent is that of a long header of the type `Initial`, whatever the mask. -/
theorem firstByte_masked (m : UInt8) :
    (pkt.firstByte ^^^ (m &&& 0x0F)) &&& 0xC0 = 0xC0 ∧
      ((pkt.firstByte ^^^ (m &&& 0x0F)) &&& 0x30) >>> 4 = 0x00 := by
  have hall : ∀ pnLen : Fin 4, ∀ m : Fin 256,
      ((0xC0 ||| UInt8.ofNat pnLen.val) ^^^ (UInt8.ofNat m.val &&& 0x0F)) &&& 0xC0 = 0xC0 ∧
        (((0xC0 ||| UInt8.ofNat pnLen.val) ^^^ (UInt8.ofNat m.val &&& 0x0F)) &&& 0x30) >>> 4 = 0x00 := by
    decide +kernel
  have hm := hall pkt.pnLen ⟨m.toNat, m.toNat_lt⟩
  rwa [UInt8.ofNat_toNat] at hm

/-- What is behind the connection IDs in a datagram. -/
def behindIds (rest : Bytes) : Bytes :=
  varint pkt.tokenSize pkt.token.length ++ (pkt.token ++ (varint pkt.lengthSize pkt.protectedLength ++
    (pkt.protectedBytes suite ++ rest)))

variable (gcmDecrypt : (key nonce aad ciphertext tag : Bytes) → Option Bytes)

/-- What becomes of the packet once its fields are found: nothing if the tag does not fit, else what the frames of the
    plaintext give. -/
def sniffed : Checked (Option SniffResult) :=
  match gcmDecrypt (pkt.keys suite).key (pkt.readNonce suite) (pkt.readAad suite) (pkt.readCiphertext suite)
      (pkt.encrypted suite).2.toList with
  | none => .ok none
  | some plaintext => extractSniFromQuicCrypto plaintext

/-- What `try_quic` does from the token on, when it has come to the right place of a packet. -/
theorem tryQuicToken_behindIds {buf rest : Bytes} {pos : Nat} (h : buf.drop pos = pkt.behindIds suite rest) :
    tryQuicToken suite gcmDecrypt pkt.dcid quicV1InitialSalt buf pos = pkt.sniffed suite gcmDecrypt := by
  have hlength := pkt.length_protectedBytes suite
  have hfits : VarintFits pkt.lengthSize (pkt.protectedBytes suite).length := by
    rw [hlength]
    exact pkt.length_protected
  have hpayload := pkt.payload.length_bytes
  have hpos : 0 < (pkt.protectedBytes suite).length := by
    rw [hlength, protectedLength]
    omega
  have hne : pkt.protectedBytes suite ≠ [] := List.length_pos_iff.mp hpos
  rw [behindIds, ← hlength] at h
  have htoken := drop_add_of_drop h
  have hpacket := drop_add_of_drop htoken
  rw [Nat.add_assoc] at hpacket
  have hprotected := drop_add_of_drop hpacket
  have hbuf := length_of_drop hprotected (List.append_ne_nil_of_left_ne_nil hne rest)
  rw [List.length_append] at hbuf
  rw [tryQuicToken, readVarint_varint pkt.length_token h, ok_bind]
  dsimp only
  rw [readVarint_varint hfits hpacket, ok_bind]
  dsimp only
  rw [if_neg (by omega), min_eq_left (by omega), range_of_drop (by omega) hprotected, ok_bind, if_neg hne,
    decryptQuicInitial_protected]
  rfl

/-- **Sniffing** the packet of a client, whatever else is in the datagram. -/
theorem tryQuic_protect (rest : Bytes) :
    tryQuic suite gcmDecrypt (pkt.protect suite ++ rest) =
      if pkt.dcid = [] then .ok none else pkt.sniffed suite gcmDecrypt := by
  have hdcid := pkt.length_dcid
  have hscid := pkt.length_scid
  obtain ⟨hlong, hinitial⟩ := pkt.firstByte_masked ((pkt.mask suite).get 0)
  have h0 : (pkt.protect suite ++ rest).drop 0 = (pkt.firstByte ^^^ ((pkt.mask suite).get 0 &&& 0x0F)) ::
      (beBytes 4 1 ++ (vec8 pkt.dcid ++ (vec8 pkt.scid ++ pkt.behindIds suite rest))) := by
    simp only [List.drop_zero, protect, fields, behindIds, List.cons_append, List.append_assoc]
  generalize pkt.protect suite ++ rest = buf at h0 ⊢
  -- the fields, one behind the other
  have h1 : buf.drop 1 = beBytes 4 1 ++ (vec8 pkt.dcid ++ (vec8 pkt.scid ++ pkt.behindIds suite rest)) :=
    drop_succ_of_drop h0
  have h5 : buf.drop 5 = vec8 pkt.dcid ++ (vec8 pkt.scid ++ pkt.behindIds suite rest) := drop_add_of_drop h1
  obtain ⟨⟨dcidLen, hdcidAt, hdcidLen⟩, hscidAt⟩ := read_vec8 (by omega) h5
  obtain ⟨⟨scidLen, hscidLenAt, hscidLen⟩, htoken⟩ := read_vec8 (by omega) hscidAt
  rw [vec8, List.cons_append] at h5
  have h6 : buf.drop 6 = pkt.dcid ++ (vec8 pkt.scid ++ pkt.behindIds suite rest) := drop_succ_of_drop h5
  have hbuf := length_of_drop h0 (List.cons_ne_nil _ _)
  simp only [List.length_cons, List.length_append, length_beBytes, vec8] at hbuf
  have hversion : range buf 1 5 = .ok (beBytes 4 1) := range_of_drop (by omega) h1
  rw [show 5 + (1 + pkt.dcid.length) = 6 + pkt.dcid.length by omega] at hscidLenAt htoken
  rw [← Nat.add_assoc] at htoken
  rw [tryQuic, if_neg (by omega), index_of_drop h0, ok_bind, if_neg (not_not.mpr hlong), hversion, ok_bind,
    show quicVersion (beVal (beBytes 4 1)) = some (false, quicV1InitialSalt) by decide]
  dsimp only
  rw [if_neg (by rw [hinitial]; decide), hdcidAt, ok_bind, hdcidLen]
  by_cases hempty : pkt.dcid = []
  · rw [if_pos hempty, if_pos (Or.inl (by rw [hempty]; rfl))]
    rfl
  · have hpos := List.length_pos_iff.mpr hempty
    rw [if_neg hempty, if_neg (by omega), if_neg (by omega), range_of_drop (by omega) h6, ok_bind,
      if_neg (by omega), hscidLenAt, ok_bind, hscidLen, if_neg (by omega)]
    exact pkt.tryQuicToken_behindIds suite gcmDecrypt htoken

/-! ### When the name is found -/

/-- The packet number is restored: its length happens to be the one in the byte that is taken for the
    first, and it is sent in four bytes or zero. -/
def Aligned : Prop :=
  (pkt.readFirst suite &&& 0x03).toNat = pkt.pnLen.val ∧ (pkt.pn = 0 ∨ pkt.pnLen = 3 ∧ pkt.pn < 2 ^ 32)

/-- The tag does not tell the additional data that is made from the header. -/
def SameHash : Prop :=
  let hash (aad : Bytes) : Block :=
    authBlock suite.mul (suite.cipher (pkt.keys suite).key zero) aad (pkt.encrypted suite).1
  hash (pkt.readAad suite) = hash pkt.header

/-- The packet happens to end as one that the sender would have made of some payload with the nonce and the
    additional data of the code, and this payload has the name. -/
def Forged : Prop :=
  ∃ plaintext, Names pkt.payload.name plaintext ∧
    encrypt (suite.cipher (pkt.keys suite).key) suite.mul (pkt.readNonce suite) (pkt.readAad suite) plaintext
      = (pkt.readCiphertext suite, (pkt.encrypted suite).2)

/-- The condition under which the name is found; by `collision_of_found` one tag then fits two inputs. -/
def Recoverable : Prop :=
  pkt.dcid ≠ [] ∧
    (pkt.Aligned suite ∧ pkt.SameHash suite ∧ (∀ frame ∈ pkt.payload.before, frame = .padding) ∨
      ¬ pkt.Aligned suite ∧ pkt.Forged suite)

/-- Where the length is restored, the mask comes off the packet number. -/
theorem readPn_of_aligned (h : pkt.Aligned suite) : pkt.readPn suite = pkt.pnBytes := by
  have hlt := pkt.pnLen.isLt
  have hlength : (pkt.readPn suite).length = pkt.pnLen.val + 1 := by rw [length_readPn, h.1]
  refine List.ext_getElem? fun i => ?_
  by_cases hi : i < pkt.pnLen.val + 1
  · obtain ⟨p, hp⟩ : ∃ p, pkt.pnBytes[i]? = some p :=
      ⟨_, List.getElem?_eq_getElem (by rw [length_pnBytes]; exact hi)⟩
    obtain ⟨m, hm⟩ : ∃ m, (pkt.mask suite).toList[1 + i]? = some m :=
      ⟨_, List.getElem?_eq_getElem (by rw [Vector.length_toList]; omega)⟩
    have hmasked : (pkt.maskedPn suite)[i]? = some (p ^^^ m) := by
      rw [maskedPn, List.getElem?_zipWith, hp, List.getElem?_tail, Nat.add_comm, hm]
    have hsent : (pkt.protectedBytes suite)[i]? = some (p ^^^ m) := by
      rw [protectedBytes, List.getElem?_append_left (by rw [length_maskedPn]; exact hi), hmasked]
    rw [readPn, h.1, unmaskPn, List.getElem?_map, List.getElem?_range hi, Option.map_some,
      List.getD_eq_getElem?_getD, hsent, List.getD_eq_getElem?_getD, hm, hp, Option.getD_some,
      Option.getD_some, UInt8.xor_assoc, UInt8.xor_self, UInt8.xor_zero]
  · rw [List.getElem?_eq_none (by omega), List.getElem?_eq_none (by rw [length_pnBytes]; omega)]

/-- Zero bytes in front of a number do not change its value. -/
theorem beVal_replicate_append (n : Nat) (bs : Bytes) : beVal (List.replicate n 0 ++ bs) = beVal bs := by
  induction n with
  | zero => rfl
  | succ n ih =>
    rw [List.replicate_succ, List.cons_append, beVal_cons, ih, UInt8.toNat_zero, Nat.zero_mul, Nat.zero_add]

theorem beBytes_zero (w : Nat) : beBytes w 0 = List.replicate w 0 := by
  have hvalue : beVal (List.replicate w 0) = 0 := by
    have happend := beVal_replicate_append w []
    rwa [List.append_nil] at happend
  have hbytes := beBytes_beVal (List.replicate w 0)
  rwa [List.length_replicate, hvalue] at hbytes

theorem zipWith_xor_replicate (bs : Bytes) :
    List.zipWith (· ^^^ ·) bs (List.replicate bs.length 0) = bs := by
  induction bs with
  | nil => rfl
  | cons b bs ih => rw [List.length_cons, List.replicate_succ, List.zipWith_cons_cons, ih, UInt8.xor_zero]

/-- The packet number in a nonce, as the code has it. -/
def paddedPn : Bytes := List.replicate 8 0 ++ (pkt.pnBytes ++ List.replicate (4 - pkt.pnBytes.length) 0)

theorem length_paddedPn : pkt.paddedPn.length = 12 := by
  have hlt := pkt.pnLen.isLt
  rw [paddedPn, List.length_append, List.length_append, List.length_replicate, List.length_replicate,
    length_pnBytes]
  omega

/-- A packet number of four bytes, or zero, is the same from the left as from the right. -/
theorem beBytes_pn (h : pkt.pn = 0 ∨ pkt.pnLen = 3 ∧ pkt.pn < 2 ^ 32) : beBytes 12 pkt.pn = pkt.paddedPn := by
  have hvalue : beVal pkt.paddedPn = pkt.pn := by
    rw [paddedPn, beVal_replicate_append]
    rcases h with hzero | ⟨hfour, hpn⟩
    · rw [pnBytes, hzero, beBytes_zero, List.length_replicate, List.replicate_append_replicate,
        ← List.append_nil (List.replicate _ _), beVal_replicate_append]
      rfl
    · rw [length_pnBytes, hfour]
      show beVal (pkt.pnBytes ++ []) = pkt.pn
      rw [List.append_nil, pnBytes, hfour]
      exact beVal_beBytes_of_lt hpn
  have hbytes := beBytes_beVal pkt.paddedPn
  rwa [length_paddedPn, hvalue] at hbytes

theorem readNonce_of_aligned (h : pkt.Aligned suite) : pkt.readNonce suite = pkt.nonce suite := by
  have hiv : (pkt.keys suite).iv.length = 12 := length_iv suite _ _
  have htake : ((pkt.keys suite).iv.take 8).length = 8 := List.length_take_of_le (by omega)
  rw [readNonce, aeadNonce, readPn_of_aligned suite pkt h, nonce, pkt.beBytes_pn h.2, paddedPn]
  conv_rhs => rw [← List.take_append_drop 8 (pkt.keys suite).iv]
  have hfront := zipWith_xor_replicate ((pkt.keys suite).iv.take 8)
  rw [htake] at hfront
  rw [List.zipWith_append (by rw [htake, List.length_replicate]), hfront]

theorem readCiphertext_of_aligned (h : pkt.Aligned suite) :
    pkt.readCiphertext suite = (pkt.encrypted suite).1 := by
  rw [readCiphertext, readPn_of_aligned suite pkt h, length_pnBytes, protectedBytes, encryptedBytes]
  refine slice_middle (pkt.length_maskedPn suite) ?_
  rw [← encryptedBytes, ← protectedBytes, length_protectedBytes, protectedLength, length_ciphertext]
  omega

end InitialPacket

/-- GCM with a key and a nonce of the right length. -/
theorem Suite.gcmDecrypt_eq_some_iff (suite : Suite) {key nonce aad ciphertext plaintext : Bytes}
    {tag : Block} (hkey : key.length = 16) (hnonce : nonce.length = 12) :
    suite.gcmDecrypt key nonce aad ciphertext tag.toList = some plaintext ↔
      encrypt (suite.cipher key) suite.mul nonce aad plaintext = (ciphertext, tag) := by
  have htag : tag.toList.length = 16 := Vector.length_toList
  rw [Suite.gcmDecrypt, if_neg (by omega), blockOf_toList, decrypt_eq_some_iff]

/-- The same ciphertext and tag with other additional data. -/
theorem encrypt_eq_encrypt_iff {cipher : Block → Block} {mul : Block → Block → Block}
    {iv aad aad' plaintext plaintext' : Bytes} :
    encrypt cipher mul iv aad' plaintext' = encrypt cipher mul iv aad plaintext ↔
      plaintext' = plaintext ∧
        authBlock mul (cipher zero) aad' (encrypt cipher mul iv aad plaintext).1
          = authBlock mul (cipher zero) aad (encrypt cipher mul iv aad plaintext).1 := by
  unfold encrypt
  dsimp only
  generalize inc32 (counter0 iv) = icb
  rw [Prod.mk.injEq]
  constructor
  · rintro ⟨hciphertext, htag⟩
    have hplaintext := congrArg (gctr cipher icb) hciphertext
    rw [gctr_gctr, gctr_gctr] at hplaintext
    rw [hciphertext, xor_left_inj] at htag
    exact ⟨hplaintext, htag⟩
  · rintro ⟨hplaintext, htag⟩
    rw [hplaintext, htag]
    exact ⟨rfl, rfl⟩

theorem InitialPacket.length_readNonce (suite : Suite) (pkt : InitialPacket) :
    (pkt.readNonce suite).length = 12 := by
  have hiv : (pkt.keys suite).iv.length = 12 := length_iv suite _ _
  have hpn := pkt.length_readPn_le suite
  rw [InitialPacket.readNonce, aeadNonce, List.length_append, List.length_zipWith, List.length_take,
    List.length_drop, List.length_append, List.length_replicate]
  omega

/-- What is found in a packet is found in what the sender could have made it of. -/
theorem named_iff_forged (suite : Suite) (pkt : InitialPacket) :
    (∃ protocol, pkt.sniffed suite suite.gcmDecrypt = .ok (some ⟨some pkt.payload.name, protocol⟩)) ↔
      pkt.Forged suite := by
  have hkey : (pkt.keys suite).key.length = 16 := length_key suite _ _
  have hopen (plaintext : Bytes) : suite.gcmDecrypt (pkt.keys suite).key (pkt.readNonce suite)
      (pkt.readAad suite) (pkt.readCiphertext suite) (pkt.encrypted suite).2.toList = some plaintext ↔
        encrypt (suite.cipher (pkt.keys suite).key) suite.mul (pkt.readNonce suite) (pkt.readAad suite)
          plaintext = (pkt.readCiphertext suite, (pkt.encrypted suite).2) :=
    suite.gcmDecrypt_eq_some_iff hkey (pkt.length_readNonce suite)
  rw [InitialPacket.sniffed]
  constructor
  · rintro ⟨protocol, hname⟩
    split at hname
    · cases hname
    · rename_i plaintext hplaintext
      exact ⟨plaintext, ⟨protocol, hname⟩, (hopen plaintext).mp hplaintext⟩
  · rintro ⟨plaintext, ⟨protocol, hname⟩, hsealed⟩
    rw [(hopen plaintext).mpr hsealed]
    exact ⟨protocol, hname⟩

/-- With the packet number restored, there is one payload that it can be. -/
theorem forged_iff_of_aligned {suite : Suite} {pkt : InitialPacket} (h : pkt.Aligned suite) :
    pkt.Forged suite ↔ pkt.SameHash suite ∧ ∀ frame ∈ pkt.payload.before, frame = .padding := by
  have hsealed (plaintext : Bytes) : encrypt (suite.cipher (pkt.keys suite).key) suite.mul (pkt.nonce suite)
      (pkt.readAad suite) plaintext = pkt.encrypted suite ↔
        plaintext = pkt.payload.bytes ∧ pkt.SameHash suite := encrypt_eq_encrypt_iff
  rw [InitialPacket.Forged, pkt.readNonce_of_aligned suite h, pkt.readCiphertext_of_aligned suite h,
    ← names_payload_iff]
  constructor
  · rintro ⟨plaintext, hname, hpacket⟩
    obtain ⟨rfl, hhash⟩ := (hsealed plaintext).mp hpacket
    exact ⟨hhash, hname⟩
  · rintro ⟨hhash, hname⟩
    exact ⟨pkt.payload.bytes, hname, (hsealed _).mpr ⟨rfl, hhash⟩⟩

/-- What is found behind a destination connection ID. -/
theorem found_iff_forged {suite : Suite} {pkt : InitialPacket} (hdcid : pkt.dcid ≠ []) (rest : Bytes) :
    (∃ protocol, tryQuic suite suite.gcmDecrypt (pkt.protect suite ++ rest)
      = .ok (some ⟨some pkt.payload.name, protocol⟩)) ↔ pkt.Forged suite := by
  rw [pkt.tryQuic_protect suite suite.gcmDecrypt rest, if_neg hdcid, named_iff_forged]

/-- **A packet number that is restored.** The name is found exactly if the tag does not tell the additional data of
    the code from the header, and there is only padding in front of the `ClientHello`. -/
theorem found_iff_of_aligned {suite : Suite} {pkt : InitialPacket} (hdcid : pkt.dcid ≠ []) (h : pkt.Aligned suite)
    (rest : Bytes) :
    (∃ protocol, tryQuic suite suite.gcmDecrypt (pkt.protect suite ++ rest)
      = .ok (some ⟨some pkt.payload.name, protocol⟩)) ↔
        pkt.SameHash suite ∧ ∀ frame ∈ pkt.payload.before, frame = .padding := by
  rw [found_iff_forged hdcid, forged_iff_of_aligned h]

/-- **What it takes.** If the name is found at all, then the tag that the sender made over the header fits other
    additional data too, with the nonce and the ciphertext that the code goes by: two inputs with one tag, under one
    key. -/
theorem collision_of_found {suite : Suite} {pkt : InitialPacket} {rest : Bytes} {protocol : Str}
    (h : tryQuic suite suite.gcmDecrypt (pkt.protect suite ++ rest)
      = .ok (some ⟨some pkt.payload.name, protocol⟩)) :
    pkt.readAad suite ≠ pkt.header ∧
      tagOf (suite.cipher (pkt.keys suite).key) suite.mul (pkt.readNonce suite) (pkt.readAad suite)
          (pkt.readCiphertext suite)
        = tagOf (suite.cipher (pkt.keys suite).key) suite.mul (pkt.nonce suite) pkt.header (pkt.encrypted suite).1 := by
  refine ⟨pkt.readAad_ne_header suite, ?_⟩
  have hdcid : pkt.dcid ≠ [] := by
    intro hempty
    rw [pkt.tryQuic_protect suite suite.gcmDecrypt rest, if_pos hempty] at h
    cases h
  obtain ⟨plaintext, -, hsealed⟩ := (found_iff_forged hdcid rest).mp ⟨protocol, h⟩
  obtain ⟨hciphertext, htag⟩ := Prod.mk.inj hsealed
  calc tagOf (suite.cipher (pkt.keys suite).key) suite.mul (pkt.readNonce suite) (pkt.readAad suite)
        (pkt.readCiphertext suite)
      = (encrypt (suite.cipher (pkt.keys suite).key) suite.mul (pkt.readNonce suite) (pkt.readAad suite)
          plaintext).2 := by rw [encrypt_snd, hsealed]
    _ = (pkt.encrypted suite).2 := by rw [hsealed]
    _ = tagOf (suite.cipher (pkt.keys suite).key) suite.mul (pkt.nonce suite) pkt.header
          (pkt.encrypted suite).1 := encrypt_snd _ _ _ _ _

/-- **The name** in the packet of a client is found exactly if its packet number is restored, its tag fits
    the additional data of the code, which is never the header, and there is only padding in front of the
    `ClientHello`; or else if the packet is a forgery by chance. -/
theorem quicName_iff (suite : Suite) (pkt : InitialPacket) (rest : Bytes) :
    pkt.readAad suite ≠ pkt.header ∧
      ((∃ protocol, tryQuic suite suite.gcmDecrypt (pkt.protect suite ++ rest)
        = .ok (some ⟨some pkt.payload.name, protocol⟩)) ↔ pkt.Recoverable suite) := by
  refine ⟨pkt.readAad_ne_header suite, ?_⟩
  rw [InitialPacket.Recoverable]
  by_cases hempty : pkt.dcid = []
  · rw [pkt.tryQuic_protect suite suite.gcmDecrypt rest, if_pos hempty]
    constructor
    · rintro ⟨protocol, hname⟩
      cases hname
    · exact fun h => absurd hempty h.1
  · by_cases haligned : pkt.Aligned suite
    · rw [found_iff_of_aligned hempty haligned]
      tauto
    · rw [found_iff_forged hempty]
      tauto

/-! ### A packet -/

/-- The bytes in which a name is found start with padding or a `CRYPTO` frame. -/
theorem head_of_names {name : Str} {plaintext : Bytes} (h : Names name plaintext) :
    plaintext.head? = some 0x00 ∨ plaintext.head? = some 0x06 := by
  obtain ⟨protocol, hname⟩ := h
  cases plaintext with
  | nil =>
    rw [extractSniFromQuicCrypto, extractGo, if_neg (by decide)] at hname
    cases hname
  | cons frameType rest =>
    by_contra hother
    rw [List.head?_cons, Option.some.injEq, Option.some.injEq, not_or] at hother
    have hindex : index (frameType :: rest) 0 = .ok frameType := rfl
    have hpos : 0 < (frameType :: rest).length := Nat.succ_pos _
    rw [extractSniFromQuicCrypto, extractGo, if_pos hpos, hindex, ok_bind, if_neg hother.1,
      if_neg hother.2] at hname
    cases hname

theorem length_noCompression : [(0x00 : UInt8)].length < 2 ^ 8 := by decide

/-- A `ClientHello` for `example.com`. -/
def exampleHello : ClientHello where
  version := 0x0303
  random := List.replicate 32 0
  sessionId := []
  cipherSuites := [0x13, 0x01]
  compressionMethods := [0x00]
  extensions := [.serverName "example.com".toList []]
  length_random := by decide
  length_sessionId := by decide
  length_cipherSuites := by decide
  length_compressionMethods := length_noCompression
  extensions_ok := List.forall_mem_singleton.mpr (by rw [Extension.Ok]; decide)
  length_extensions := by decide

/-- The `ClientHello` of the example alone in its payload, in one frame. -/
def examplePayload : CryptoPayload where
  before := []
  offsetSize := 0
  lengthSize := 1
  hello := exampleHello
  name := "example.com".toList
  behind := []
  serverNames := rfl
  length_message := by rw [VarintFits]; decide

/-- The packet has the number 2, in four bytes. -/
def examplePacket : InitialPacket where
  dcid := exampleDcid
  scid := []
  token := []
  tokenSize := 0
  lengthSize := 1
  pnLen := 3
  pn := 2
  payload := examplePayload
  length_dcid := by decide
  length_scid := by decide
  length_token := by rw [VarintFits]; decide
  length_protected := by rw [VarintFits]; decide
  pn_lt := by decide

/-- The mask of the example's header, from the cipher of the code. -/
theorem mask_examplePacket : examplePacket.mask sourceSuite =
    blockOf [0xAC, 0xB2, 0x23, 0xCC, 0x9C, 0xD9, 0xC3, 0x30, 0x1A, 0xBF, 0xCA, 0x29, 0xEE, 0xB2, 0x03,
      0x49] := by
  have hkeys : examplePacket.keys sourceSuite = exampleKeys := clientKeys_exampleDcid
  have hstream : sourceSuite.cipher (examplePacket.keys sourceSuite).key
      (inc32 (counter0 (examplePacket.nonce sourceSuite))) = blockOf
        [0xD7, 0xB1, 0x89, 0x7C, 0xD6, 0x68, 0x9F, 0x55, 0xEF, 0x12, 0x39, 0xBA, 0x4B, 0x75, 0x2D, 0xB2] := by
    rw [InitialPacket.nonce, hkeys]
    decide +kernel
  have hlength := examplePacket.payload.length_bytes
  have hciphertext : (examplePacket.encrypted sourceSuite).1.take 16 =
      [0xD1, 0xB1, 0xC9, 0x3F, 0xD7, 0x68, 0x9F, 0x6A, 0xEC, 0x11, 0x39, 0xBA, 0x4B, 0x75, 0x2D, 0xB2] := by
    rw [InitialPacket.ciphertext_eq, take_gctr _ _ _ (by omega), hstream]
    decide
  have hsample : slice (examplePacket.pnBytes ++ examplePacket.encryptedBytes sourceSuite) 4 16 =
      [0xD1, 0xB1, 0xC9, 0x3F, 0xD7, 0x68, 0x9F, 0x6A, 0xEC, 0x11, 0x39, 0xBA, 0x4B, 0x75, 0x2D, 0xB2] := by
    have hpn : examplePacket.pnBytes.length = 4 := examplePacket.length_pnBytes
    rw [slice, List.drop_left' hpn, InitialPacket.encryptedBytes,
      List.take_append_of_le_length (by rw [InitialPacket.length_ciphertext]; omega), hciphertext]
  rw [InitialPacket.mask, hkeys, hsample]
  decide +kernel

/-- The name in this packet is not found, in a datagram of 1200 bytes: the packet number is taken to be of
    three bytes, and what is decrypted behind it does not start with a frame. -/
theorem not_quicName_examplePacket :
    ¬ ∃ protocol, tryQuic sourceSuite sourceSuite.gcmDecrypt
      (examplePacket.protect sourceSuite ++ List.replicate 1091 0)
        = .ok (some ⟨some examplePacket.payload.name, protocol⟩) := by
  have hkeys : examplePacket.keys sourceSuite = exampleKeys := clientKeys_exampleDcid
  have hmasked : examplePacket.maskedPn sourceSuite = [0xB2, 0x23, 0xCC, 0x9E] := by
    rw [InitialPacket.maskedPn, mask_examplePacket]
    decide
  have hfirst : examplePacket.readFirst sourceSuite = 0xBE := by
    rw [InitialPacket.readFirst, InitialPacket.protectedBytes, hmasked, mask_examplePacket]
    decide
  have hpn : examplePacket.readPn sourceSuite = [0x00, 0x00, 0x00] := by
    rw [InitialPacket.readPn, InitialPacket.protectedBytes, hmasked, mask_examplePacket, hfirst]
    decide
  have hciphertext : (examplePacket.readCiphertext sourceSuite).head? = some 0x9E := by
    rw [InitialPacket.readCiphertext, hpn, InitialPacket.length_protectedBytes, InitialPacket.protectedBytes,
      hmasked]
    rfl
  have hstream : (sourceSuite.cipher (examplePacket.keys sourceSuite).key
      (inc32 (counter0 (examplePacket.readNonce sourceSuite)))).get 0 = 0x40 := by
    rw [InitialPacket.readNonce, hkeys, hpn]
    decide +kernel
  rw [examplePacket.tryQuic_protect, if_neg (by decide)]
  intro h
  obtain ⟨plaintext, hname, hsealed⟩ := (named_iff_forged sourceSuite examplePacket).mp h
  have hhead := congrArg (fun sealed => sealed.1.head?) hsealed
  dsimp only [encrypt] at hhead
  rw [head?_gctr, hstream, hciphertext] at hhead
  rcases head_of_names hname with hpadding | hcrypto
  · rw [hpadding] at hhead
    revert hhead
    decide
  · rw [hcrypto] at hhead
    revert hhead
    decide

end Reflex.App
