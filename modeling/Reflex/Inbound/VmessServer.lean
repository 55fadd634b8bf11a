import Reflex.Inbound.Mixed
import Reflex.Lib.Fnv
import Reflex.Outbound.VmessFrame

namespace Reflex.Vmess

open RustStd ByteStream

/-!
# VMess — the server

`inbound/vmess_server.rs`: the server finds the user of a request, decrypts the header and answers.
It was written apart from the client: keys are derived another way and under other names, the
frame of the header's length has a tag of four bytes, and the response has no length.

* `parseHeader_encode` — the fields of the header are where the client puts them;
* `decodeVmessHeader_never` — but no stream gets that far;
* `handshake_never_accepted` — so no request of the client is accepted, nor any response.
-/

/-! ### Keys -/

variable (C : Crypto)

/-- `vmess_cmd_key`. -/
def vmessCmdKey (uuid : Bytes) : Bytes :=
  C.md5 (uuid ++ utf8 "c48619fe-8f02-49e0-b9e9-edf763e17e21".toList)

/-- `kdf_sha256`. -/
def kdfSha256 (key : Bytes) (paths : List Str) : Bytes :=
  (paths.foldl (fun current path => C.hmacSha256 current (utf8 path)) key).take 32

/-- `kdf16`. -/
def kdf16 (key : Bytes) (paths : List Str) : Bytes := (kdfSha256 C key paths).take 16

/-- `kdf12`. -/
def kdf12 (key : Bytes) (paths : List Str) : Bytes := (kdfSha256 C key paths).take 12

/-- `hex_bytes`. -/
def hexBytes (data : Bytes) : Str := data.flatMap Inbound.hex02

/-- `verify_auth_id` at the time `now`. -/
def verifyAuthId (now : Int64) (authId cmdKey : Bytes) : Bool :=
  let block := C.aesDecrypt (kdf16 C cmdKey ["AES Auth ID Encryption".toList]) authId
  let ts := Int64.ofNat (beVal (block.take 8))
  if 120 < (ts - now).abs then false
  else C.crc32 (block.take 12) = UInt32.ofNat (beVal (slice block 12 4))

/-! ### The header -/

/-- `&bs[pos..pos + len]`, out of bounds a panic. -/
def range (bs : Bytes) (pos len : Nat) : Except FrameError Bytes :=
  if pos + len ≤ bs.length then .ok (slice bs pos len) else .error .panic

/-- The address of a header: its type is at 40. -/
def parseTarget (h : Bytes) (port : UInt16) (atyp : UInt8) : Except FrameError Target :=
  if atyp = 0x01 then do
    let ip ← range h 41 4
    return .socket ⟨.v4 (Ipv4Addr.ofOctets ip), port⟩
  else if atyp = 0x02 then do
    let dlen ← index h 41
    let domain ← range h 42 dlen.toNat
    match fromUtf8 domain with
    | some domain => return .domain domain port
    | none => .error .invalidUtf8
  else if atyp = 0x03 then do
    let ip ← range h 41 16
    return .socket ⟨.v6 (Ipv6Addr.ofOctets ip), port⟩
  else .error (.message ("vmess: unknown atyp 0x".toList ++ Inbound.hex02 atyp))

/-- The fields of a decrypted header: the target, the key and the nonce of the response, and the
    token.  Padding and checksum are not looked at. -/
def parseHeader (h : Bytes) : Except FrameError (Target × Bytes × Bytes × UInt8) := do
  let ver ← index h 0
  if ver ≠ 1 then
    .error (.message ("vmess: unsupported version: ".toList ++ display ver.toNat))
  else
    let dataIv ← range h 1 16
    let dataKey ← range h 17 16
    let respV ← index h 33
    let _opt ← index h 34
    let _paddingSec ← index h 35
    let cmd ← index h 37
    ensure (cmd = 0x01) "vmess: only TCP (cmd=1) supported"
    let port ← range h 38 2
    let atyp ← index h 40
    let target ← parseTarget h (UInt16.ofNat (beVal port)) atyp
    return (target, C.md5 dataKey, C.md5 dataIv, respV)

/-- `decode_vmess_header`. -/
def decodeVmessHeader (now : Int64) (users : List Bytes) :
    Handler FrameError (Target × Bytes × Bytes × UInt8) := do
  let authId ← readExact .unexpectedEof 16
  let cmdKey ← ofExcept (match (users.map (vmessCmdKey C)).find? (verifyAuthId C now authId) with
    | some cmdKey => .ok cmdKey
    | none => .error (.message "vmess: no matching user for auth ID".toList))
  -- two bytes of length and a tag of four
  let encLen ← readExact .unexpectedEof (2 + 4)
  let connNonce ← readExact .unexpectedEof 8
  let paths (name : String) := [name.toList, hexBytes authId, hexBytes connNonce]
  let lenData ← ofExcept (decrypted
    (C.gcmDecrypt (kdf16 C cmdKey (paths "AEAD Header Length Key"))
      (kdf12 C cmdKey (paths "AEAD Header Length IV")) authId encLen)
    "vmess: header length decryption failed")
  let hi ← ofExcept (index lenData 0)
  let lo ← ofExcept (index lenData 1)
  let headerLen := beVal [hi, lo]
  ofExcept (ensure (0 < headerLen ∧ headerLen < 65536) "vmess: invalid header length: 0")
  let encHeader ← readExact .unexpectedEof (headerLen + 16)
  let header ← ofExcept (decrypted
    (C.gcmDecrypt (kdf16 C cmdKey (paths "AEAD Header Key"))
      (kdf12 C cmdKey (paths "AEAD Header IV")) authId encHeader)
    "vmess: header decryption failed")
  ofExcept (parseHeader C (header.take headerLen))

/-- `send_vmess_response`. -/
def sendVmessResponse (respKey respIv : Bytes) (respV : UInt8) : Handler FrameError Unit :=
  writeAll (C.gcmEncrypt respKey (respIv.take 12) [] [respV, 0x00, 0x00, 0x00])

/-! ### The layout of the header -/

section Layout

variable {a b : Bytes} {n k m : Nat}

theorem index_append (h : a.length = n) : index (a ++ b) (n + k) = index b k := by
  rw [index, index, List.getElem?_append_right (by omega), show n + k - a.length = k by omega]

theorem range_append (h : a.length = n) : range (a ++ b) (n + k) m = range b k m := by
  have hdrop : (a ++ b).drop (n + k) = b.drop k := by
    rw [List.drop_append, List.drop_eq_nil_of_le (by omega), List.nil_append,
      show n + k - a.length = k by omega]
  have hlen : n + k + m ≤ (a ++ b).length ↔ k + m ≤ b.length := by
    rw [List.length_append]
    omega
  simp only [range, slice, hdrop, hlen]

theorem range_left (h : a.length = m) : range (a ++ b) 0 m = .ok a := by
  rw [range, if_pos (by rw [List.length_append]; omega), slice, List.drop_zero, ← h, List.take_left]

end Layout

/-- `0x01`, `0x02` or `0x03`. -/
def atypOf : Target → UInt8
  | .domain _ _ => 0x02
  | .socket ⟨.v4 _, _⟩ => 0x01
  | .socket ⟨.v6 _, _⟩ => 0x03

theorem port_beBytes (port : UInt16) : UInt16.ofNat (beVal (beBytes 2 port.toNat)) = port := by
  rw [beVal_beBytes_of_lt (by have := port.toNat_lt; omega), UInt16.ofNat_toNat]

/-- A target starts with its port and type. -/
theorem writeTarget_eq (target : Target) :
    ∃ addr, writeTarget target = beBytes 2 target.port.toNat ++ atypOf target :: addr := by
  rcases target with ⟨host, port⟩ | ⟨ip | ip, port⟩
  · exact ⟨UInt8.ofNat (utf8 host).length :: utf8 host, by simp [writeTarget, Target.port, atypOf]⟩
  · exact ⟨ip.octets, rfl⟩
  · exact ⟨ip.octets, rfl⟩

/-- The address itself stands behind 38 bytes of other fields, its port and its type. -/
theorem behind_atyp {front : Bytes} (hfront : front.length = 38) (port : UInt16) (atyp : UInt8)
    (addr : Bytes) (k : Nat) :
    (∀ m, range (front ++ (beBytes 2 port.toNat ++ atyp :: addr)) (41 + k) m = range addr k m) ∧
      index (front ++ (beBytes 2 port.toNat ++ atyp :: addr)) (41 + k) = index addr k := by
  have hlen : (front ++ (beBytes 2 port.toNat ++ [atyp])).length = 41 := by
    simp [hfront]
  have happend : front ++ (beBytes 2 port.toNat ++ atyp :: addr)
      = (front ++ (beBytes 2 port.toNat ++ [atyp])) ++ addr := by
    simp
  rw [happend]
  exact ⟨fun m => range_append hlen, index_append hlen⟩

/-- **The address** of a request is read back, if a host name has at most 255 bytes. -/
theorem parseTarget_writeTarget {front rest : Bytes} (hfront : front.length = 38) {target : Target}
    (hhost : ∀ host port, target = .domain host port → (utf8 host).length ≤ 255) :
    parseTarget (front ++ (writeTarget target ++ rest)) target.port (atypOf target)
      = .ok target := by
  have hskip := behind_atyp hfront
  rcases target with ⟨host, port⟩ | ⟨ip | ip, port⟩
  · show parseTarget (front ++ (writeTarget (.domain host port) ++ rest)) port 0x02 = _
    -- the length byte of a host name, which is not narrowed
    have hlen : (UInt8.ofNat (utf8 host).length).toNat = (utf8 host).length := by
      rw [UInt8.toNat_ofNat', Nat.mod_eq_of_lt]
      have := hhost host port rfl
      omega
    have hwrite : writeTarget (.domain host port) ++ rest = beBytes 2 port.toNat ++
        0x02 :: ((UInt8.ofNat (utf8 host).length) :: (utf8 host ++ rest)) := by
      simp [writeTarget]
    have hdomain : range (UInt8.ofNat (utf8 host).length :: (utf8 host ++ rest)) 1
        (utf8 host).length = .ok (utf8 host) :=
      (range_append (a := [UInt8.ofNat (utf8 host).length]) (k := 0) rfl).trans (range_left rfl)
    rw [hwrite, parseTarget, if_neg (by decide), if_pos rfl]
    refine bind_eq_ok.mpr ⟨_, (hskip port _ _ 0).2, bind_eq_ok.mpr ⟨utf8 host, ?_, ?_⟩⟩
    · rw [hlen]
      exact ((hskip port _ _ 1).1 _).trans hdomain
    · rw [fromUtf8_utf8]
      rfl
  · show parseTarget (front ++ (writeTarget (.socket ⟨.v4 ip, port⟩) ++ rest)) port 0x01 = _
    have hwrite : writeTarget (.socket ⟨.v4 ip, port⟩) ++ rest
        = beBytes 2 port.toNat ++ 0x01 :: (ip.octets ++ rest) := by
      simp [writeTarget]
    rw [hwrite, parseTarget, if_pos rfl]
    refine bind_eq_ok.mpr ⟨ip.octets, ?_, ?_⟩
    · exact ((hskip port _ _ 0).1 4).trans (range_left ip.length_octets)
    · rw [Ipv4Addr.ofOctets_octets]
      rfl
  · show parseTarget (front ++ (writeTarget (.socket ⟨.v6 ip, port⟩) ++ rest)) port 0x03 = _
    have hwrite : writeTarget (.socket ⟨.v6 ip, port⟩) ++ rest
        = beBytes 2 port.toNat ++ 0x03 :: (ip.octets ++ rest) := by
      simp [writeTarget]
    rw [hwrite, parseTarget, if_neg (by decide), if_neg (by decide), if_pos rfl]
    refine bind_eq_ok.mpr ⟨ip.octets, ?_, ?_⟩
    · exact ((hskip port _ _ 0).1 16).trans (range_left ip.length_octets)
    · rw [Ipv6Addr.ofOctets_octets]
      rfl

/-- The fields of an encoded header in front of its padding. -/
theorem encode_eq (hdr : RequestHeader) (target : Target) (random : UInt8) :
    ∃ (padded : UInt8) (rest : Bytes),
      hdr.encode C target random = (1 :: hdr.reqNonce) ++ (hdr.reqKey ++
        (hdr.respHeader :: hdr.option :: padded :: 0x00 :: hdr.command ::
          (writeTarget target ++ rest))) := by
  refine ⟨UInt8.ofNat (random % 16).toNat <<< 4 ||| hdr.security, List.replicate (random % 16).toNat 0
    ++ beBytes 4 (C.fnv (hdr.body target (random % 16).toNat)).toUInt32.toNat, ?_⟩
  simp [RequestHeader.encode, RequestHeader.body]

/-- **The two sides agree on the header**: the server finds the target and the token in what the
    client has encoded, whatever the padding. -/
theorem parseHeader_encode (hdr : RequestHeader) (hcommand : hdr.command = 0x01) {target : Target}
    (hhost : ∀ host port, target = .domain host port → (utf8 host).length ≤ 255) (random : UInt8) :
    parseHeader C (hdr.encode C target random)
      = .ok (target, C.md5 hdr.reqKey, C.md5 hdr.reqNonce, hdr.respHeader) := by
  have hkey := hdr.length_reqKey
  have hnonce := hdr.length_reqNonce
  obtain ⟨addr, haddr⟩ := writeTarget_eq target
  obtain ⟨padded, rest, hencode⟩ := encode_eq C hdr target random
  -- the fields one after another
  have hnonceLen : (1 :: hdr.reqNonce).length = 17 := by rw [List.length_cons, hnonce]
  have hfields : ∀ k, index (hdr.encode C target random) (33 + k) = index
      (hdr.respHeader :: hdr.option :: padded :: 0x00 :: hdr.command ::
        (writeTarget target ++ rest)) k := by
    intro k
    rw [hencode, show 33 + k = 17 + (16 + k) by omega, index_append hnonceLen, index_append hkey]
  have hiv : range (hdr.encode C target random) 1 16 = .ok hdr.reqNonce := by
    rw [hencode]
    exact (range_append (a := [1]) (k := 0) rfl).trans (range_left hnonce)
  have hdata : range (hdr.encode C target random) 17 16 = .ok hdr.reqKey := by
    rw [hencode]
    exact (range_append (k := 0) hnonceLen).trans (range_left hkey)
  obtain ⟨front, hlen, hfront⟩ : ∃ front : Bytes, front.length = 38 ∧
      hdr.encode C target random = front ++ (writeTarget target ++ rest) := by
    refine ⟨(1 :: hdr.reqNonce) ++ (hdr.reqKey ++ [hdr.respHeader, hdr.option, padded, 0x00,
      hdr.command]), ?_, ?_⟩
    · simp [hkey, hnonce]
    · rw [hencode]
      simp
  have hport : range (hdr.encode C target random) 38 2 = .ok (beBytes 2 target.port.toNat) := by
    rw [hfront, haddr, List.append_assoc]
    exact (range_append (k := 0) hlen).trans (range_left (length_beBytes 2 _))
  have hatyp : index (hdr.encode C target random) 40 = .ok (atypOf target) := by
    rw [hfront, haddr, List.append_assoc]
    exact (index_append (k := 2) hlen).trans (index_append (k := 0) (length_beBytes 2 _))
  have hversion : index (hdr.encode C target random) 0 = .ok 1 := by
    rw [hencode]
    rfl
  have htarget : parseTarget (front ++ (writeTarget target ++ rest)) target.port (atypOf target)
      = .ok target := parseTarget_writeTarget hlen hhost
  rw [← hfront] at htarget
  refine bind_eq_ok.mpr ⟨1, hversion, ?_⟩
  rw [if_neg (by decide)]
  refine bind_eq_ok.mpr ⟨_, hiv, bind_eq_ok.mpr ⟨_, hdata, bind_eq_ok.mpr ⟨_, hfields 0,
    bind_eq_ok.mpr ⟨_, hfields 1, bind_eq_ok.mpr ⟨_, hfields 2, bind_eq_ok.mpr ⟨_, hfields 4, ?_⟩⟩⟩⟩⟩⟩
  refine bind_eq_ok.mpr ⟨(), by rw [hcommand]; rfl, bind_eq_ok.mpr ⟨_, hport,
    bind_eq_ok.mpr ⟨_, hatyp, bind_eq_ok.mpr ⟨target, ?_, rfl⟩⟩⟩⟩
  rw [port_beBytes]
  exact htarget

/-! ### The handshake -/

variable {C}

/-- **The server** accepts no stream: the frame of the length is shorter than a tag. -/
theorem decodeVmessHeader_never (hC : C.Lawful) {now : Int64} {users : List Bytes} {s s' : Conn}
    {result : Target × Bytes × Bytes × UInt8} :
    ¬ Yields (decodeVmessHeader C now users) s result s' := by
  intro h
  rw [decodeVmessHeader] at h
  obtain ⟨authId, s₁, -, h⟩ := yields_bind.mp h
  obtain ⟨cmdKey, s₂, -, h⟩ := yields_bind.mp h
  obtain ⟨encLen, s₃, hread, h⟩ := yields_bind.mp h
  obtain ⟨connNonce, s₄, -, h⟩ := yields_bind.mp h
  obtain ⟨lenData, s₅, hdecrypt, -⟩ := yields_bind.mp h
  have hlen : encLen.length = 2 + 4 := (yields_readExact.mp hread).2.1
  have hok := (yields_ofExcept.mp hdecrypt).1
  rw [hC.decrypt_short _ _ _ encLen (by omega)] at hok
  cases hok

/-- The server accepts the request of a client with the key of `uuid`, and recovers its target and
    token. -/
def RequestAccepted (C : Crypto) (now : Int64) (users : List Bytes) (uuid : Bytes)
    (hdr : RequestHeader) (target : Target) (d : Draw) : Prop :=
  ∃ respKey respIv s', Yields (decodeVmessHeader C now users)
    { input := buildHandshake C (userKey C uuid) hdr target d }
    (target, respKey, respIv, hdr.respHeader) s'

/-- The client accepts the response of a server that has derived `respKey` and `respIv`, and finds
    its token in it. -/
def ResponseAccepted (C : Crypto) (hdr : RequestHeader) (respKey respIv : Bytes) : Prop :=
  ∃ s' consumed,
    Yields (sendVmessResponse C respKey respIv hdr.respHeader) { input := [] } () s' ∧
      parseResponseHeader C s'.output hdr.reqKey hdr.reqNonce = .ok (hdr.respHeader, consumed)

/-- **The handshake** never succeeds: not a request of the client is accepted by the server, and not
    a response of the server by the client. -/
theorem handshake_never_accepted (hC : C.Lawful) (now : Int64) (users : List Bytes) (uuid : Bytes)
    (hdr : RequestHeader) (target : Target) (d : Draw) (respKey respIv : Bytes) :
    ¬ RequestAccepted C now users uuid hdr target d ∧ ¬ ResponseAccepted C hdr respKey respIv := by
  constructor
  · rintro ⟨key, iv, s', h⟩
    exact decodeVmessHeader_never hC h
  · rintro ⟨s', consumed, hsend, hparse⟩
    have houtput : s'.output = C.gcmEncrypt respKey (respIv.take 12) []
        [hdr.respHeader, 0x00, 0x00, 0x00] := by
      rw [yields_writeAll.mp hsend]
      rfl
    -- four bytes and a tag, where the client expects the length first
    have hlen : s'.output.length < 34 := by
      rw [houtput, hC.length_encrypt]
      simp
    exact parseResponseHeader_of_short hlen _ hparse

/-! ### A handshake with transparent ciphers -/

/-- The opening of a cipher whose tag is sixteen zeros, for examples. -/
def plainDecrypt (msg : Bytes) : Option Bytes :=
  if 16 ≤ msg.length ∧ msg.drop (msg.length - 16) = List.replicate 16 0 then
    some (msg.take (msg.length - 16))
  else none

/-- Ciphers that hide nothing and keys that are all the same. -/
def plainCrypto : Crypto where
  md5 bs := (bs ++ List.replicate 16 0).take 16
  sha256 bs := (bs ++ List.replicate 32 0).take 32
  hmacSha256 _ _ := List.replicate 32 0
  crc32 _ := 0
  fnv bs := .ofBitVec (Fnv.hash 0xcbf29ce484222325 0x100000001b3 bs)
  aesEncrypt _ block := block
  aesDecrypt _ block := block
  gcmEncrypt _ _ _ msg := msg ++ List.replicate 16 0
  gcmDecrypt _ _ _ msg := plainDecrypt msg

theorem plainCrypto_lawful : plainCrypto.Lawful where
  decrypt_encrypt key nonce aad msg := by
    show plainDecrypt (msg ++ List.replicate 16 0) = some msg
    rw [plainDecrypt, if_pos]
    · simp
    · simp
  decrypt_short key nonce aad msg h := by
    show plainDecrypt msg = none
    rw [plainDecrypt, if_neg (by omega)]
  length_encrypt key nonce aad msg := by
    show (msg ++ List.replicate 16 0).length = _
    rw [List.length_append, List.length_replicate]

/-- A TCP request with AES-128-GCM for the data. -/
def exampleHeader : RequestHeader where
  reqKey := List.replicate 16 1
  reqNonce := List.replicate 16 2
  respHeader := 7
  option := 5
  security := 3
  command := 1
  length_reqKey := rfl
  length_reqNonce := rfl

/-- What the client of the example draws: the time 1000 and some fixed bytes. -/
def exampleDraw : Draw where
  ts := 1000
  random := [1, 2, 3, 4]
  connNonce := List.replicate 8 9
  padding := 5
  length_random := rfl
  length_connNonce := rfl

/-- `example.com:443`. -/
def exampleTarget : Target := .domain "example.com".toList 443

theorem handshake_never_accepted_plain :
    ¬ RequestAccepted plainCrypto 1000 [List.replicate 16 0xAB] (List.replicate 16 0xAB) exampleHeader
        exampleTarget exampleDraw ∧
      ¬ ResponseAccepted plainCrypto exampleHeader (plainCrypto.md5 exampleHeader.reqKey)
        (plainCrypto.md5 exampleHeader.reqNonce) :=
  handshake_never_accepted plainCrypto_lawful 1000 _ _ exampleHeader exampleTarget exampleDraw _ _

/-- The user is found, and then the length cannot be decrypted; the response is too short for its
    header. -/
theorem handshake_fails :
    (decodeVmessHeader plainCrypto 1000 [List.replicate 16 0xAB]
        { input := buildHandshake plainCrypto (userKey plainCrypto (List.replicate 16 0xAB))
            exampleHeader exampleTarget exampleDraw }).1
      = .error (.message "vmess: header length decryption failed".toList) ∧
    parseResponseHeader plainCrypto
        (plainCrypto.gcmEncrypt (plainCrypto.md5 exampleHeader.reqKey)
          ((plainCrypto.md5 exampleHeader.reqNonce).take 12) [] [exampleHeader.respHeader, 0, 0, 0])
        exampleHeader.reqKey exampleHeader.reqNonce
      = .error (.message "vmess resp: too short for header payload".toList) ∧
    ¬ (RequestAccepted plainCrypto 1000 [List.replicate 16 0xAB] (List.replicate 16 0xAB)
        exampleHeader exampleTarget exampleDraw ∧
      ResponseAccepted plainCrypto exampleHeader (plainCrypto.md5 exampleHeader.reqKey)
        (plainCrypto.md5 exampleHeader.reqNonce)) := by
  have hdecode : (decodeVmessHeader plainCrypto 1000 [List.replicate 16 0xAB]
      { input := buildHandshake plainCrypto (userKey plainCrypto (List.replicate 16 0xAB))
          exampleHeader exampleTarget exampleDraw }).1
      = .error (.message "vmess: header length decryption failed".toList) := by
    decide +kernel
  refine ⟨hdecode, by decide, ?_⟩
  rintro ⟨⟨respKey, respIv, s', h⟩, -⟩
  have hok : (decodeVmessHeader plainCrypto 1000 [List.replicate 16 0xAB]
      { input := buildHandshake plainCrypto (userKey plainCrypto (List.replicate 16 0xAB))
          exampleHeader exampleTarget exampleDraw }).1
      = .ok (exampleTarget, respKey, respIv, exampleHeader.respHeader) := congrArg Prod.fst h
  rw [hdecode] at hok
  cases hok

end Reflex.Vmess
