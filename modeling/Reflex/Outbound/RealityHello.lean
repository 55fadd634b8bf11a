import Reflex.App.TlsSniff

namespace Reflex.Outbound.Reality

open RustStd Machine App

/-!
# Reality — the `ClientHello`

`build_client_hello_body`, `wrap_handshake` and `wrap_tls_record` of `outbound/reality.rs`, and what the sniffer finds
in the record.  Lengths are narrowed to the width of their field, so that what is longer is written with a length
that is too small.

* `helloExts` — the extensions that the outbound sends, with the name of the server and the protocols it offers;
* `helloRecord` — the message of the handshake and the record around it;
* `helloRecord_eq` — where the lengths fit, the record is that of a `ClientHello` with these extensions;
* `tryTls_clientHello` — the sniffer on a `ClientHello`, on this record, and on anything else.
-/

/-! ### The extensions -/

/-- `ext_raw`. -/
def extRaw (typ : UInt16) (data : Bytes) : Bytes :=
  beBytes 2 typ.toNat ++ (beBytes 2 data.length ++ data)

/-- Values of two bytes. -/
def u16s (values : List Nat) : Bytes := values.flatMap (beBytes 2)

/-- `ext_sni`. -/
def extSni (sni : Str) : Bytes :=
  if sni = [] then []
  else
    let n := utf8 sni
    extRaw 0x0000 (beBytes 2 (1 + 2 + n.length) ++ (0x00 :: (beBytes 2 n.length ++ n)))

/-- `ext_supported_groups`. -/
def extSupportedGroups : Bytes :=
  let g := [0x001d, 0x0017, 0x0018]
  extRaw 0x000a (beBytes 2 (g.length * 2) ++ u16s g)

/-- The protocols that `ext_alpn_ext` offers. -/
def alpnProtocols (alpn : List Str) : List Bytes :=
  if alpn = [] then [utf8 "h2".toList, utf8 "http/1.1".toList] else alpn.map utf8

/-- `ext_alpn_ext`. -/
def extAlpnExt (alpn : List Str) : Bytes :=
  let protos := alpnProtocols alpn
  let inner := (protos.map fun p => 1 + p.length).sum
  extRaw 0x0010 (beBytes 2 inner ++ protos.flatMap fun p => UInt8.ofNat p.length :: p)

/-- `ext_sig_algs`. -/
def extSigAlgs : Bytes :=
  let a := [0x0403, 0x0503, 0x0603, 0x0807, 0x0808, 0x0809, 0x080a, 0x080b, 0x0804, 0x0805, 0x0806,
    0x0401, 0x0501, 0x0601]
  extRaw 0x000d (beBytes 2 (a.length * 2) ++ u16s a)

/-- `ext_key_share`. -/
def extKeyShare (pubKey : Vector UInt8 32) : Bytes :=
  let entry := 2 + 2 + 32
  extRaw 0x0033 (beBytes 2 entry ++ (beBytes 2 0x001d ++ (beBytes 2 32 ++ pubKey.toList)))

/-- The extensions of `build_client_hello_body`. -/
def helloExts (sni : Str) (x25519Pub : Vector UInt8 32) (alpn : List Str) : Bytes :=
  extSni sni ++ (extRaw 0x0017 [] ++ (extRaw 0xff01 [0x00] ++ (extSupportedGroups
    ++ (extRaw 0x000b [0x01, 0x00] ++ (extRaw 0x0023 [] ++ (extAlpnExt alpn
    ++ (extRaw 0x0005 [0x01, 0x00, 0x00, 0x00, 0x00] ++ (extSigAlgs ++ (extRaw 0x0012 []
    ++ (extKeyShare x25519Pub ++ (extRaw 0x002d [0x01, 0x01] ++ (extRaw 0x002b [0x02, 0x03, 0x04]
    ++ extRaw 0x001b [0x02, 0x00, 0x02]))))))))))))

/-! ### The record -/

/-- The cipher suites of `build_client_hello_body`. -/
def cipherSuites : List Nat :=
  [0x1301, 0x1302, 0x1303, 0xc02b, 0xc02f, 0xc02c, 0xc030, 0xcca9, 0xcca8, 0x009c, 0x009d, 0x002f, 0x0035]

/-- `build_client_hello_body`. -/
def buildClientHelloBody (random sessionId : Vector UInt8 32) (sni : Str) (x25519Pub : Vector UInt8 32)
    (alpn : List Str) : Bytes :=
  let exts := helloExts sni x25519Pub alpn
  beBytes 2 0x0303 ++ (random.toList ++ (32 :: (sessionId.toList ++ (beBytes 2 (cipherSuites.length * 2)
    ++ (u16s cipherSuites ++ (1 :: 0 :: (beBytes 2 exts.length ++ exts)))))))

/-- `wrap_handshake`. -/
def wrapHandshake (body : Bytes) : Bytes :=
  let len := body.length % 2 ^ 32
  0x01 :: UInt8.ofNat (len >>> 16) :: UInt8.ofNat (len >>> 8) :: UInt8.ofNat len :: body

/-- `wrap_tls_record`. -/
def wrapTlsRecord (contentType : UInt8) (payload : Bytes) : Bytes :=
  contentType :: (beBytes 2 0x0301 ++ (beBytes 2 payload.length ++ payload))

/-- The record that is sent instead of the first `ClientHello`. -/
def helloRecord (random sessionId : Vector UInt8 32) (sni : Str) (x25519Pub : Vector UInt8 32)
    (alpn : List Str) : Bytes :=
  wrapTlsRecord 0x16 (wrapHandshake (buildClientHelloBody random sessionId sni x25519Pub alpn))

/-! ### The same record as that of a `ClientHello` -/

/-- The extensions, as the sniffer sees them. -/
def extensions (sni : Str) (x25519Pub : Vector UInt8 32) (alpn : List Str) : List Extension :=
  [.serverName sni [], .other 0x0017 [], .other 0xff01 [0x00],
    .other 0x000a (vec16 (u16s [0x001d, 0x0017, 0x0018])), .other 0x000b [0x01, 0x00], .other 0x0023 [],
    .alpn (alpnProtocols alpn), .other 0x0005 [0x01, 0x00, 0x00, 0x00, 0x00],
    .other 0x000d (vec16 (u16s [0x0403, 0x0503, 0x0603, 0x0807, 0x0808, 0x0809, 0x080a, 0x080b, 0x0804,
      0x0805, 0x0806, 0x0401, 0x0501, 0x0601])),
    .other 0x0012 [], .other 0x0033 (vec16 (beBytes 2 0x001d ++ vec16 x25519Pub.toList)),
    .other 0x002d [0x01, 0x01], .other 0x002b [0x02, 0x03, 0x04], .other 0x001b [0x02, 0x00, 0x02]]

theorem extRaw_eq (typ : UInt16) (data : Bytes) : extRaw typ data = beBytes 2 typ.toNat ++ vec16 data := rfl

theorem extSni_eq {sni : Str} (h : sni ≠ []) : extSni sni = (Extension.serverName sni []).bytes := by
  rw [extSni, if_neg h, extRaw_eq, Extension.bytes]
  simp only [Extension.extType, Extension.data, vec16, List.append_nil, List.length_cons, List.length_append,
    length_beBytes]
  rw [show 1 + 2 + (utf8 sni).length = 2 + (utf8 sni).length + 1 by omega]

theorem extAlpnExt_eq (alpn : List Str) : extAlpnExt alpn = (Extension.alpn (alpnProtocols alpn)).bytes := by
  have hsum : ((alpnProtocols alpn).map fun p => 1 + p.length).sum
      = ((alpnProtocols alpn).flatMap vec8).length := by
    rw [List.length_flatMap]
    congr 2
    funext p
    rw [vec8, List.length_cons, Nat.add_comm]
  rw [extAlpnExt, hsum]
  rfl

theorem helloExts_eq {sni : Str} (h : sni ≠ []) (x25519Pub : Vector UInt8 32) (alpn : List Str) :
    helloExts sni x25519Pub alpn = (extensions sni x25519Pub alpn).flatMap Extension.bytes := by
  have hkey : extKeyShare x25519Pub
      = (Extension.other 0x0033 (vec16 (beBytes 2 0x001d ++ vec16 x25519Pub.toList))).bytes := by
    rw [extKeyShare, extRaw_eq, Extension.bytes]
    simp only [Extension.extType, Extension.data, vec16, List.length_append, length_beBytes,
      Vector.length_toList]
  rw [helloExts, extSni_eq h, extAlpnExt_eq, hkey]
  simp only [extensions, List.flatMap_cons, List.flatMap_nil, List.append_nil]
  rfl

theorem wrapHandshake_eq (body : Bytes) : wrapHandshake body = 0x01 :: (beBytes 3 body.length ++ body) := by
  have hhigh : UInt8.ofNat ((body.length % 2 ^ 32) >>> 16) = UInt8.ofNat (body.length / 256 / 256) := by
    apply UInt8.toNat_inj.mp
    rw [UInt8.toNat_ofNat', UInt8.toNat_ofNat', Nat.shiftRight_eq_div_pow]
    omega
  have hmiddle : UInt8.ofNat ((body.length % 2 ^ 32) >>> 8) = UInt8.ofNat (body.length / 256) := by
    apply UInt8.toNat_inj.mp
    rw [UInt8.toNat_ofNat', UInt8.toNat_ofNat', Nat.shiftRight_eq_div_pow]
    omega
  have hlow : UInt8.ofNat (body.length % 2 ^ 32) = UInt8.ofNat body.length := by
    apply UInt8.toNat_inj.mp
    rw [UInt8.toNat_ofNat', UInt8.toNat_ofNat']
    omega
  rw [wrapHandshake, hhigh, hmiddle, hlow]
  rfl

/-- Each extension fits into its length if they do all together, and so do the protocols. -/
theorem extensions_ok {sni : Str} {x25519Pub : Vector UInt8 32} {alpn : List Str}
    (halpn : ∀ proto ∈ alpn, (utf8 proto).length < 2 ^ 8)
    (hexts : ((extensions sni x25519Pub alpn).flatMap Extension.bytes).length < 2 ^ 16) :
    ∀ ext ∈ extensions sni x25519Pub alpn, ext.Ok := by
  intro ext hmem
  have hlen : ext.data.length < 2 ^ 16 := by
    obtain ⟨front, back, hsplit⟩ := List.append_of_mem hmem
    rw [hsplit, List.flatMap_append, List.flatMap_cons, Extension.bytes, vec16] at hexts
    simp only [List.length_append] at hexts
    omega
  cases ext with
  | serverName name others => exact hlen
  | alpn protocols =>
    obtain rfl : protocols = alpnProtocols alpn := by simpa [extensions] using hmem
    refine ⟨fun proto hproto => ?_, hlen⟩
    rw [alpnProtocols] at hproto
    split at hproto
    · rcases List.mem_cons.mp hproto with rfl | hproto
      · decide
      · rw [List.mem_singleton.mp hproto]
        decide
    · obtain ⟨text, htext, rfl⟩ := List.mem_map.mp hproto
      exact halpn text htext
  | other extType data =>
    refine ⟨?_, ?_, hlen⟩
    · rintro rfl
      simp [extensions] at hmem
    · rintro rfl
      simp [extensions] at hmem

/-- The `ClientHello` of a name, where its lengths fit. -/
def clientHello (random sessionId : Vector UInt8 32) (sni : Str) (x25519Pub : Vector UInt8 32)
    (alpn : List Str) (halpn : ∀ proto ∈ alpn, (utf8 proto).length < 2 ^ 8)
    (hexts : ((extensions sni x25519Pub alpn).flatMap Extension.bytes).length < 2 ^ 16) : ClientHello where
  version := 0x0303
  random := random.toList
  sessionId := sessionId.toList
  cipherSuites := u16s cipherSuites
  compressionMethods := [0]
  extensions := extensions sni x25519Pub alpn
  length_random := Vector.length_toList
  length_sessionId := by rw [Vector.length_toList]; decide
  length_cipherSuites := by decide
  length_compressionMethods := by decide
  extensions_ok := extensions_ok halpn hexts
  length_extensions := hexts

/-- **The record** is that of a `ClientHello` where its lengths fit. -/
theorem helloRecord_eq (random sessionId : Vector UInt8 32) {sni : Str} (hsni : sni ≠ [])
    (x25519Pub : Vector UInt8 32) {alpn : List Str} (halpn : ∀ proto ∈ alpn, (utf8 proto).length < 2 ^ 8)
    (hexts : ((extensions sni x25519Pub alpn).flatMap Extension.bytes).length < 2 ^ 16) :
    helloRecord random sessionId sni x25519Pub alpn
      = (clientHello random sessionId sni x25519Pub alpn halpn hexts).record 0x01 := by
  have hbody : buildClientHelloBody random sessionId sni x25519Pub alpn
      = (clientHello random sessionId sni x25519Pub alpn halpn hexts).body := by
    have hsid : vec8 sessionId.toList = 32 :: sessionId.toList := by
      rw [vec8, Vector.length_toList]
      rfl
    rw [buildClientHelloBody, helloExts_eq hsni, ClientHello.body]
    dsimp only [clientHello]
    rw [hsid]
    rfl
  rw [helloRecord, wrapHandshake_eq, hbody]
  rfl

/-- **The sniffer.** In a record with a `ClientHello` that has one name, it finds the name and whether the
    protocol is offered, whatever the other fields and the order of the extensions; so it does in the record
    that is sent for a name, if no protocol has more than 255 bytes and the extensions have less than 65536;
    and in no bytes does it read outside of the buffer. -/
theorem tryTls_clientHello (hello : ClientHello) (name : Str) (minor : UInt8) (rest : Bytes)
    (random sessionId : Vector UInt8 32) (sni : Str) (x25519Pub : Vector UInt8 32) (alpn : List Str) (buf : Bytes) :
    (hello.serverNames = [name] →
      tryTls (hello.record minor ++ rest) = .ok (some (helloResult name hello.protocols))) ∧
      (sni ≠ [] → (∀ proto ∈ alpn, (utf8 proto).length < 2 ^ 8) →
        (helloExts sni x25519Pub alpn).length < 2 ^ 16 →
        tryTls (helloRecord random sessionId sni x25519Pub alpn)
          = .ok (some (helloResult sni (alpnProtocols alpn)))) ∧
      Defined (tryTls buf) := by
  refine ⟨fun hname => tryTls_record hname minor rest, fun hsni halpn hexts => ?_, defined_tryTls buf⟩
  rw [helloExts_eq hsni] at hexts
  have hprotocols : (clientHello random sessionId sni x25519Pub alpn halpn hexts).protocols
      = alpnProtocols alpn := List.append_nil _
  have hnames : (clientHello random sessionId sni x25519Pub alpn halpn hexts).serverNames = [sni] := rfl
  have hsniffed := tryTls_record hnames 0x01 []
  rwa [List.append_nil, ← helloRecord_eq random sessionId hsni, hprotocols] at hsniffed

theorem tryTls_clientHello_example :
    (∀ minor rest, tryTls ((clientHello (Vector.replicate 32 0) (Vector.replicate 32 0) "example.com".toList
        (Vector.replicate 32 0) [] nofun (by decide +kernel)).record minor ++ rest)
      = .ok (some (helloResult "example.com".toList (alpnProtocols [])))) ∧
      tryTls (helloRecord (Vector.replicate 32 0) (Vector.replicate 32 0) "example.com".toList
          (Vector.replicate 32 0) [])
        = .ok (some (helloResult "example.com".toList (alpnProtocols []))) ∧ Defined (tryTls []) := by
  have hsniff := fun minor rest => tryTls_clientHello
    (clientHello (Vector.replicate 32 0) (Vector.replicate 32 0) "example.com".toList (Vector.replicate 32 0) []
      nofun (by decide +kernel)) "example.com".toList minor rest (Vector.replicate 32 0) (Vector.replicate 32 0)
    "example.com".toList (Vector.replicate 32 0) [] []
  exact ⟨fun minor rest => (hsniff minor rest).1 rfl, (hsniff 0 []).2.1 (by decide) nofun (by decide +kernel),
    (hsniff 0 []).2.2⟩

/-- A protocol of 256 bytes whose length byte is 0 and that goes on with an `h2` of its own. -/
theorem tryTls_not_clientHello :
    ¬ ∀ (random sessionId : Vector UInt8 32) (sni : Str) (x25519Pub : Vector UInt8 32) (alpn : List Str),
      sni ≠ [] → tryTls (helloRecord random sessionId sni x25519Pub alpn)
        = .ok (some (helloResult sni (alpnProtocols alpn))) := by
  intro h
  have hread := h (Vector.replicate 32 0) (Vector.replicate 32 0) "a".toList (Vector.replicate 32 0)
    ['\x02' :: 'h' :: '2' :: List.replicate 253 'x'] (by decide)
  have hfound : tryTls (helloRecord (Vector.replicate 32 0) (Vector.replicate 32 0) "a".toList
      (Vector.replicate 32 0) ['\x02' :: 'h' :: '2' :: List.replicate 253 'x'])
      = .ok (some ⟨some "a".toList, "h2".toList⟩) := by
    decide +kernel
  rw [hfound] at hread
  exact absurd (Option.some.inj (Except.ok.inj hread)) (by decide)

end Reflex.Outbound.Reality
