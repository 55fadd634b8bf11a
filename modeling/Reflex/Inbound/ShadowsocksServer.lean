import Reflex.Inbound.ServerHeader
import Reflex.Lib.Base64
import Reflex.Outbound.ShadowsocksKeys

namespace Reflex.Inbound.ShadowsocksServer

open RustStd ByteStream Outbound Shadowsocks

/-!
# Inbounds — Shadowsocks

`inbound/shadowsocks_server.rs` up to the target of a connection: the key of the configuration, the
session key, the first chunk and the address in it.

* `reads_readChunk` — a chunk that the outbound has sealed is decrypted under the same key;
* `reads_handleConn` — with equal keys, the inbound recovers the target;
* `interoperates_iff` — the methods under which both sides derive equal keys.
-/

/-- `SsMethod`, the methods of the outbound. -/
abbrev SsMethod := Method

/-- `SsMethod::parse`. -/
def SsMethod.parse (s : Str) : Except SsError SsMethod := Method.fromStr s

variable (H : SsHashes) (C : SsCiphers)

/-! ### Key derivation -/

/-- `evp_bytes_to_key`. -/
def evpBytesToKey (password : Bytes) (keyLen : Nat) : Bytes :=
  Shadowsocks.evpBytesToKey H password keyLen

/-- `derive_key`, with `STANDARD.decode` of the `base64` crate; how that words its errors is left out. -/
def deriveKey (base64 : Str → Option Bytes) (password : Str) (method : SsMethod) : Except SsError Bytes :=
  let keyLen := method.keyLen
  if keyLen = 0 then .ok []
  else if method.is2022 then
    match base64 password with
    | none => .error (.other "2022 password must be base64: ".toList)
    | some key =>
        if key.length = keyLen then .ok key
        else .error (.other ("2022 password key length mismatch: expected ".toList
          ++ display keyLen ++ ", got ".toList ++ display key.length))
  else .ok (evpBytesToKey H (utf8 password) keyLen)

/-- `derive_aead_session_key`. -/
def deriveAeadSessionKey (key salt : Bytes) {keyLen : Nat} (hlen : keyLen ≤ 255 * 20) : Bytes :=
  (H.hkdfSha1 salt key (utf8 "ss-subkey".toList) hlen).toList

/-- `derive_2022_session_key`. -/
def derive2022SessionKey (key salt : Bytes) (keyLen : Nat) : Bytes :=
  (H.blake3DeriveKey "shadowsocks 2022 session subkey".toList (key ++ salt)).toList.take keyLen

/-- The session key in `handle_conn`. -/
def sessionKey (method : SsMethod) (key salt : Bytes) : Bytes :=
  if method.is2022 then derive2022SessionKey H key salt method.keyLen
  else deriveAeadSessionKey H key salt (method.keyLen_le.trans (by decide))

/-! ### Decryption -/

/-- `nonce_from_u64`. -/
def nonceFromU64 (n : UInt64) : Vector UInt8 12 :=
  ⟨(leBytes 8 n.toNat ++ [0, 0, 0, 0]).toArray, by simp⟩

/-- `AeadDecryptor`. -/
structure AeadDecryptor where
  sessionKey : Bytes
  method : SsMethod
  nonce : UInt64
  deriving DecidableEq, Repr

/-- `decrypt_in_place` with the front of the session key, which has the length of the key. -/
def decryptWith {keyLen : Nat} (A : AeadInPlace keyLen) (sessionKey : Bytes)
    (nonce : Vector UInt8 12) (buf : Bytes) : Option Bytes :=
  match keyFromSlice keyLen (sessionKey.take keyLen) with
  | none => none
  | some key => A.decryptInPlace key nonce buf

namespace AeadDecryptor

/-- `AeadDecryptor::new`. -/
def new (sessionKey : Bytes) (method : SsMethod) : AeadDecryptor := { sessionKey, method, nonce := 0 }

def next (d : AeadDecryptor) : AeadDecryptor := { d with nonce := d.nonce + 1 }

/-- The ciphers, and their names in errors. -/
def decryptInPlace (d : AeadDecryptor) (buf : Bytes) : Option Bytes × Str :=
  let nonce := nonceFromU64 d.nonce
  match d.method with
  | .aes128Gcm | .ss2022Aes128Gcm =>
      (decryptWith C.aes128Gcm d.sessionKey nonce buf, "aes128gcm".toList)
  | .aes256Gcm | .ss2022Aes256Gcm =>
      (decryptWith C.aes256Gcm d.sessionKey nonce buf, "aes256gcm".toList)
  | .chaCha20Poly1305 | .ss2022ChaCha20Poly1305 =>
      (decryptWith C.chacha20Poly1305 d.sessionKey nonce buf, "chacha20".toList)
  -- `unreachable!()`
  | .none => (none, [])

/-- One part of a chunk, or the error with the name of the cipher and of the part. -/
def decrypt (d : AeadDecryptor) (part : Str) (buf : Bytes) : Handler ConnError Bytes :=
  ofExcept (match d.decryptInPlace C buf with
    | (none, cipher) =>
        .error (.message (cipher ++ " decrypt ".toList ++ part ++ " failed".toList))
    | (some pt, _) => .ok pt)

/-- `read_chunk`. -/
def readChunk (d : AeadDecryptor) : Handler ConnError (Bytes × AeadDecryptor) := do
  let lenBuf ← readBytes (2 + tagLen)
  let lenBuf ← d.decrypt C "length".toList lenBuf
  let len := beVal (lenBuf.take 2)
  ensure (0 < len && len ≤ maxPayload) ("invalid chunk length: ".toList ++ display len)
  let payloadBuf ← readBytes (len + tagLen)
  let payloadBuf ← d.next.decrypt C "payload".toList payloadBuf
  return (payloadBuf.take len, d.next.next)

end AeadDecryptor

/-! ### A connection -/

/-- `read_socks5_target`. -/
def readSocks5Target (atyp : UInt8) : Handler ConnError Target := do
  if atyp = 0x01 then
    let ip ← readBytes 4
    let port ← readPort
    return .socket ⟨.v4 (Ipv4Addr.ofOctets ip), port⟩
  else if atyp = 0x03 then
    let dlen ← readByte
    let domain ← readBytes dlen.toNat
    let port ← readPort
    let domain ← stringFromUtf8 domain
    return .domain domain port
  else if atyp = 0x04 then
    let ip ← readBytes 16
    let port ← readPort
    return .socket ⟨.v6 (Ipv6Addr.ofOctets ip), port⟩
  else bail (.message ("shadowsocks: unknown atyp 0x".toList ++ hex02 atyp))

/-- `read_socks5_addr`. -/
def readSocks5Addr : Handler ConnError Target := readByte >>= readSocks5Target

/-- `read_socks5_addr_from_cursor`: the same, of the bytes of a chunk. -/
def readSocks5AddrFromCursor (chunk : Bytes) : Except ConnError Target := (readSocks5Addr ⟨chunk, []⟩).1

/-- `handle_conn` up to the target. -/
def handleConn (key : Bytes) (method : SsMethod) : Handler ConnError Target := do
  let saltLen := method.keyLen
  if saltLen = 0 then readSocks5Addr
  else
    let salt ← readBytes saltLen
    let (firstPayload, _) ← (AeadDecryptor.new (sessionKey H method key salt) method).readChunk C
    ofExcept (readSocks5AddrFromCursor firstPayload)

/-! ### Reading what the outbound sends -/

theorem encodeTarget_eq (target : Target) : encodeTarget target = writeAddr target := by
  obtain ⟨host, port⟩ | ⟨⟨ip | ip, port⟩⟩ := target
  · rfl
  · rfl
  · rfl

/-- The address is read as in a Trojan header. -/
theorem yields_readSocks5Addr {target : Target} {s s' : ByteStream.Conn} :
    Yields readSocks5Addr s target s' ↔ Yields readTrojanTarget s target s' := by
  rw [readSocks5Addr, readTrojanTarget, yields_bind, yields_bind]
  refine exists_congr fun atyp => exists_congr fun s₁ => and_congr_right fun _ => ?_
  rw [readSocks5Target]
  split_ifs
  · rfl
  · rfl
  · rfl
  · exact iff_of_false not_yields_bail not_yields_bail

theorem reads_readSocks5Addr {target : Target} (h : Fits target) :
    Reads readSocks5Addr (encodeTarget target) target := by
  rw [encodeTarget_eq]
  exact fun rest output => yields_readSocks5Addr.mpr (reads_readTrojanTarget h rest output)

theorem readSocks5AddrFromCursor_encodeTarget {target : Target} (h : Fits target) :
    readSocks5AddrFromCursor (encodeTarget target) = .ok target := by
  have hreads := reads_readSocks5Addr h [] []
  rw [List.append_nil] at hreads
  exact congrArg Prod.fst hreads

theorem length_encodeTarget {target : Target} (h : Fits target) :
    0 < (encodeTarget target).length ∧ (encodeTarget target).length ≤ maxPayload := by
  obtain ⟨host, port⟩ | ⟨⟨ip | ip, port⟩⟩ := target
  · have hlen : (utf8 host).length ≤ 255 := h
    simp only [encodeTarget, List.length_append, List.length_cons, length_beBytes, maxPayload]
    omega
  · simp [encodeTarget, ip.length_octets, maxPayload]
  · simp [encodeTarget, ip.length_octets, maxPayload]

theorem keyLen_ne_zero {method : SsMethod} (h : method ≠ .none) : method.keyLen ≠ 0 := by
  cases method with
  | none => exact absurd rfl h
  | _ => decide

/-- The decryptor in the place of a cipher. -/
def decryptorOf (c : AeadCipher) : AeadDecryptor :=
  { sessionKey := c.subkey, method := c.method, nonce := c.counter }

variable {H C}

theorem decryptWith_of_doOpen {keyLen : Nat} {A : AeadInPlace keyLen} {subkey buf pt : Bytes}
    {nonce : Vector UInt8 12} (hkey : subkey.length = keyLen)
    (h : doOpen A subkey buf nonce = .ok pt) : decryptWith A subkey nonce buf = some pt := by
  rw [decryptWith, List.take_of_length_le (Nat.le_of_eq hkey)]
  rw [doOpen] at h
  rcases hslice : keyFromSlice keyLen subkey with _ | key
  · rw [hslice] at h
    cases h
  · rw [hslice] at h
    rcases hdec : A.decryptInPlace key nonce buf with _ | pt'
    · simp only [hdec] at h
      cases h
    · simp only [hdec] at h
      obtain rfl := Except.ok.inj h
      exact hdec

/-- What the cipher of the other side opens is decrypted. -/
theorem reads_decrypt {c c' : AeadCipher} (hc : c.Keyed) {buf pt : Bytes} (part : Str)
    (h : c.open C buf = (.ok pt, c')) : Reads ((decryptorOf c).decrypt C part buf) [] pt := by
  obtain ⟨hmethod, hkey⟩ := hc
  have hinner : c.openInner C buf c.nonce = .ok pt := by
    rw [AeadCipher.open, if_neg hmethod] at h
    split at h
    · cases (Prod.mk.inj h).1
    · split at h
      · cases (Prod.mk.inj h).1
      · rename_i hopen
        rw [hopen, Except.ok.inj (Prod.mk.inj h).1]
  have hdecrypt : ((decryptorOf c).decryptInPlace C buf).1 = some pt := by
    rw [AeadCipher.openInner] at hinner
    rw [AeadDecryptor.decryptInPlace, decryptorOf]
    rcases hm : c.method
    all_goals
      rw [hm] at hinner hkey
      first
        | exact decryptWith_of_doOpen hkey hinner
        | exact absurd hm hmethod
  refine reads_ofExcept ?_
  split
  · rename_i hnone
    rw [hnone] at hdecrypt
    cases hdecrypt
  · rename_i hsome
    rw [hsome] at hdecrypt
    rw [Option.some.inj hdecrypt]

/-- **One chunk.**  What the cipher of the other side has sealed is read. -/
theorem reads_readChunk (hC : C.Lawful) {c : AeadCipher} (hc : c.Keyed) {msg : Bytes}
    (hmsg : 0 < msg.length ∧ msg.length ≤ maxPayload) :
    ∃ frame, c.sealChunk C msg = (.ok frame, c.next.next) ∧
      Reads ((decryptorOf c).readChunk C) frame (msg, decryptorOf c.next.next) := by
  have hshort : msg.length < 2 ^ 16 := Nat.lt_of_le_of_lt hmsg.2 (by decide)
  obtain ⟨lenBuf, payloadBuf, hseal, hlenBuf, hpayloadBuf, hopenLen, hopenPayload⟩ :=
    AeadCipher.sealChunk_spec hC hc hshort
  have hlen : beVal ((beBytes 2 msg.length).take 2) = msg.length := by
    rw [List.take_of_length_le (by simp), beVal_beBytes_of_lt hshort]
  refine ⟨lenBuf ++ payloadBuf, hseal, ?_⟩
  refine (reads_readExact _ hlenBuf).bind ((reads_decrypt hc _ hopenLen).bind ?_)
  simp only [hlen]
  refine (reads_ensure (by simpa using hmsg) _).bind ?_
  refine (reads_readExact _ hpayloadBuf).bind_nil ?_
  refine (reads_decrypt hc.next _ hopenPayload).bind (reads_pure ?_)
  rw [List.take_of_length_le (Nat.le_refl _)]
  rfl

/-- **The target.**  With equal keys, the inbound recovers it from the start of a connection. -/
theorem reads_handleConn (hC : C.Lawful) {ob : ShadowsocksOutbound} {key salt : Bytes}
    (hsalt : salt.length = ob.method.saltLen) {target : Target} (htarget : Fits target)
    (hkeys : ob.method ≠ .none → sessionKey H ob.method key salt = ob.deriveSubkey H salt) :
    ∃ sent, ob.connectSs H C salt target = .ok sent ∧
      Reads (handleConn H C key ob.method) sent target := by
  by_cases hnone : ob.method = .none
  · refine ⟨encodeTarget target, if_pos hnone, ?_⟩
    rw [handleConn, hnone]
    exact reads_readSocks5Addr htarget
  · have hlen := length_encodeTarget htarget
    have hshort : (encodeTarget target).length < 2 ^ 16 := Nat.lt_of_le_of_lt hlen.2 (by decide)
    have hkeyed : (AeadCipher.new ob.method (ob.deriveSubkey H salt)).Keyed :=
      ShadowsocksOutbound.keyed hnone salt
    obtain ⟨frame, enc, hseal, hsent⟩ := ShadowsocksOutbound.connectSs_spec hC hnone salt hshort
    obtain ⟨frame', hseal', hread⟩ := reads_readChunk hC hkeyed hlen
    obtain rfl := Except.ok.inj (Prod.mk.inj (hseal.symm.trans hseal')).1
    refine ⟨salt ++ frame, hsent, ?_⟩
    rw [handleConn]
    simp only [if_neg (keyLen_ne_zero hnone)]
    refine (reads_readExact _ hsalt).bind ?_
    rw [hkeys hnone]
    refine Reads.bind_nil hread ?_
    exact reads_ofExcept (readSocks5AddrFromCursor_encodeTarget htarget)

/-! ### Both sides -/

variable (H C)

/-- The inbound derives the session key of the outbound, and recovers its target. -/
def Agree (ob : ShadowsocksOutbound) (key salt : Bytes) (target : Target) : Prop :=
  (ob.method ≠ .none → sessionKey H ob.method key salt = ob.deriveSubkey H salt) ∧
    ∃ sent, ob.connectSs H C salt target = .ok sent ∧
      Reads (handleConn H C key ob.method) sent target

/-- The same method and password on both sides, and whatever hash functions they share. -/
def Interoperates (base64 : Str → Option Bytes) (methodName password : Str) (salt : Bytes) (target : Target) :
    Prop :=
  ∀ H ob key, ShadowsocksOutbound.new H base64 methodName password = .ok ob →
    deriveKey H base64 password ob.method = .ok key → Agree H C ob key salt target

variable {H C} {base64 : Str → Option Bytes}

/-- A password that can be decoded has no white space around it, as the alphabet has none. -/
theorem trim_of_decode (hbase64 : Base64.Strict base64) {password : Str} {key : Bytes}
    (h : base64 password = some key) : trim password = password := by
  have hall : (Base64.alphabet.all fun c => !isWhitespace c) = true := by decide
  have halphabet : ∀ c ∈ Base64.alphabet, isWhitespace c = false := by
    simpa only [List.all_eq_true, Bool.not_eq_true'] using hall
  refine trim_eq_self fun c hc => ?_
  rcases hbase64 password key h c hc with hmem | rfl
  · exact halphabet c hmem
  · decide

/-- **Key material.**  Both sides make the same of a password that both accept. -/
theorem keyMaterial_eq (hbase64 : Base64.Strict base64) {methodName password : Str} {ob : ShadowsocksOutbound}
    {key : Bytes} (hob : ShadowsocksOutbound.new H base64 methodName password = .ok ob)
    (hkey : deriveKey H base64 password ob.method = .ok key) : ob.keyMaterial = key := by
  rw [deriveKey] at hkey
  obtain ⟨-, ⟨h2022, hpsk, -⟩ | ⟨hnone, hempty⟩ | ⟨h2022, hnone, hmd5⟩⟩ :=
    ShadowsocksOutbound.new_cases hob
  · have hnone : ob.method ≠ .none := by
      intro hnone
      rw [hnone] at h2022
      cases h2022
    simp only [if_neg (keyLen_ne_zero hnone), if_pos h2022] at hkey
    split at hkey
    · cases hkey
    · rename_i psk hdecode
      split at hkey
      · -- the inbound does not trim, and accepts nothing that the outbound would trim
        rw [trim_of_decode hbase64 hdecode, hdecode] at hpsk
        exact (Option.some.inj hpsk).symm.trans (Except.ok.inj hkey)
      · cases hkey
  · rw [hnone] at hkey
    exact hempty.trans (Except.ok.inj hkey)
  · simp only [if_neg (keyLen_ne_zero hnone), h2022] at hkey
    exact hmd5.trans (Except.ok.inj hkey)

/-- **Agreement.**  Both sides agree under a method that is not of 2022, and otherwise where the two
    modes of BLAKE3 happen to. -/
theorem agree_iff (hC : C.Lawful) (hbase64 : Base64.Strict base64) {methodName password : Str}
    {ob : ShadowsocksOutbound} {key salt : Bytes} (hob : ShadowsocksOutbound.new H base64 methodName password = .ok ob)
    (hkey : deriveKey H base64 password ob.method = .ok key) (hsalt : salt.length = ob.method.saltLen)
    {target : Target} (htarget : Fits target) :
    Agree H C ob key salt target ↔
      (ob.method.is2022 = true → derive2022SessionKey H key salt ob.method.keyLen
        = ss2022SessionKey H key salt ob.method.keyLen) := by
  obtain rfl := keyMaterial_eq hbase64 hob hkey
  have hkeys : sessionKey H ob.method ob.keyMaterial salt = ob.deriveSubkey H salt ↔
      (ob.method.is2022 = true → derive2022SessionKey H ob.keyMaterial salt ob.method.keyLen
        = ss2022SessionKey H ob.keyMaterial salt ob.method.keyLen) := by
    rw [sessionKey, ShadowsocksOutbound.deriveSubkey]
    by_cases h2022 : ob.method.is2022 = true
    · rw [if_pos h2022, if_pos h2022]
      exact ⟨fun h _ => h, fun h => h h2022⟩
    · rw [if_neg h2022, if_neg h2022]
      exact iff_of_true rfl fun h => absurd h h2022
  constructor
  · rintro ⟨hagree, -⟩ h2022
    refine hkeys.mp (hagree fun hnone => ?_) h2022
    rw [hnone] at h2022
    cases h2022
  · intro h
    exact ⟨fun _ => hkeys.mpr h, reads_handleConn hC hsalt htarget fun _ => hkeys.mpr h⟩

/-- Both sides get along, whatever hash functions they share, exactly under the methods that are not
    of 2022. -/
theorem interoperates_iff (hC : C.Lawful) (hbase64 : Base64.Strict base64) {methodName password : Str}
    {ob : ShadowsocksOutbound} {key salt : Bytes} (hob : ShadowsocksOutbound.new H base64 methodName password = .ok ob)
    (hkey : deriveKey H base64 password ob.method = .ok key) (hsalt : salt.length = ob.method.saltLen)
    {target : Target} (htarget : Fits target) :
    Interoperates C base64 methodName password salt target ↔ ob.method.is2022 = false := by
  constructor
  · intro h
    refine Bool.eq_false_of_not_eq_true fun h2022 => ?_
    -- hash functions whose modes never agree
    let H' : SsHashes := { H with
      blake3KeyedHash := fun _ _ => Vector.replicate 32 0
      blake3DeriveKey := fun _ _ => Vector.replicate 32 1 }
    have hob' : ShadowsocksOutbound.new H' base64 methodName password = .ok ob := hob
    have hkey' : deriveKey H' base64 password ob.method = .ok key := hkey
    have hagree := (agree_iff hC hbase64 hob' hkey' hsalt htarget).mp (h H' ob key hob' hkey') h2022
    have hones : (Vector.replicate 32 (1 : UInt8)).toList.take ob.method.keyLen
        = (Vector.replicate 32 0).toList.take ob.method.keyLen := hagree
    revert hones h2022
    cases ob.method <;> decide
  · intro h H' ob' key' hob' hkey'
    have hmethod : ob'.method = ob.method :=
      Except.ok.inj ((ShadowsocksOutbound.new_cases hob').1.symm.trans
        (ShadowsocksOutbound.new_cases hob).1)
    refine (agree_iff hC hbase64 hob' hkey' (hmethod ▸ hsalt) htarget).mpr fun h2022 => ?_
    rw [hmethod, h] at h2022
    cases h2022

/-! ### A key of zeros -/

def sampleMethod : Str := "2022-blake3-aes-128-gcm".toList
def samplePassword : Str := "AAAAAAAAAAAAAAAAAAAAAA==".toList
def sampleSalt : Bytes := List.replicate 16 0
def sampleTarget : Target := .socket ⟨.v4 0x01020304#32, 443⟩

/-- The outbound with that password. -/
def sampleOutbound : ShadowsocksOutbound :=
  { method := .ss2022Aes128Gcm, keyMaterial := List.replicate 16 0 }

theorem accepted_sample :
    ShadowsocksOutbound.new blake3Hashes Base64.decode sampleMethod samplePassword = .ok sampleOutbound ∧
      deriveKey blake3Hashes Base64.decode samplePassword sampleOutbound.method = .ok (List.replicate 16 0) := by
  decide

theorem not_interoperates_2022 :
    ¬ Interoperates gcmCiphers Base64.decode sampleMethod samplePassword sampleSalt sampleTarget := by
  obtain ⟨hob, hkey⟩ := accepted_sample
  have hfits : Fits sampleTarget := trivial
  intro h
  exact absurd ((interoperates_iff gcmCiphers_lawful Base64.strict_decode hob hkey (by decide) hfits).mp h) (by decide)

/-- The same with BLAKE3 itself and AES-GCM: for the sample password and salt the two sides do not agree. -/
theorem not_agree_blake3 :
    ShadowsocksOutbound.new blake3Hashes Base64.decode sampleMethod samplePassword = .ok sampleOutbound ∧
      deriveKey blake3Hashes Base64.decode samplePassword .ss2022Aes128Gcm = .ok (List.replicate 16 0) ∧
      ¬ Agree blake3Hashes gcmCiphers sampleOutbound (List.replicate 16 0) sampleSalt
        sampleTarget := by
  obtain ⟨hob, hkey⟩ := accepted_sample
  have hfits : Fits sampleTarget := trivial
  refine ⟨hob, hkey, fun hagree => ?_⟩
  have hkeys := (agree_iff gcmCiphers_lawful Base64.strict_decode hob hkey (by decide) hfits).mp hagree rfl
  exact absurd hkeys (by decide +kernel)

end Reflex.Inbound.ShadowsocksServer
