import Reflex.Inbound.ServerHeader
import Reflex.Outbound.Hy2Wire
import Reflex.Outbound.TuicWire

namespace Reflex.Inbound

open RustStd ByteStream

/-!
# Inbounds — TUIC and Hysteria2

`inbound/tuic_server.rs` and `inbound/hysteria2_server.rs`, and what they make of what the outbounds
of the same protocols write.

* `not_yields_authRequest`, `not_yields_connectRequest` — the TUIC inbound asks for a version byte,
  which the outbound does not send;
* `output_handleHy2Stream` — the Hysteria2 inbound never answers, while the outbound waits for the
  answer to its authentication;
* `not_yields_tcpRequest` — nor does it recover the target of a request;
* `quic_never_carried` — so neither inbound understands its outbound.
-/

/-! ### The servers -/

/-- An address behind a byte for its kind, with the port at the end. -/
def readAddr (v4 domain v6 : UInt8) (unknown : Str) : Handler ConnError Target := do
  let atyp ← readByte
  if atyp = v4 then
    let ip ← readBytes 4
    let port ← readPort
    return .socket ⟨.v4 (Ipv4Addr.ofOctets ip), port⟩
  else if atyp = domain then
    let dlen ← readByte
    let domain ← readBytes dlen.toNat
    let port ← readPort
    let domain ← stringFromUtf8 domain
    return .domain domain port
  else if atyp = v6 then
    let ip ← readBytes 16
    let port ← readPort
    return .socket ⟨.v6 (Ipv6Addr.ofOctets ip), port⟩
  else bail (.message (unknown ++ hex02 atyp))

/-- `read_tuic_addr`. -/
def readTuicAddr : Handler ConnError Target := readAddr 0x00 0x01 0x02 "tuic: unknown atyp 0x".toList

/-- `read_hy2_addr`. -/
def readHy2Addr : Handler ConnError Target :=
  readAddr 0x01 0x03 0x04 "hysteria2: unknown atyp 0x".toList

/-- The users of the TUIC inbound with their tokens. -/
def tuicUsers (hmacSha256 : (key msg : Bytes) → Vector UInt8 32)
    (users : List (Vector UInt8 16 × Str)) : List (Bytes × Bytes) :=
  users.map fun (uuid, password) => (uuid.toList, (hmacSha256 (utf8 password) uuid.toList).toList)

/-- The authentication in `handle_tuic_conn`; of two users with one UUID the later one counts. -/
def handleTuicConn (users : List (Bytes × Bytes)) : Handler ConnError Unit := do
  let version ← readByte
  ensure (version == 0x05) ("tuic: unsupported version ".toList ++ display version.toNat)
  let cmdType ← readByte
  ensure (cmdType == 0x00) ("tuic: expected Authenticate command, got 0x".toList ++ hex02 cmdType)
  let uuid ← readBytes 16
  let token ← readBytes 32
  ensure (users.reverse.lookup uuid == some token) "tuic: authentication failed".toList

/-- `handle_tuic_stream`. -/
def handleTuicStream : Handler ConnError Target := do
  let version ← readByte
  ensure (version == 0x05) "tuic: stream version mismatch".toList
  let cmd ← readByte
  ensure (cmd == 0x01) ("tuic: unsupported command 0x".toList ++ hex02 cmd)
  readTuicAddr

/-- `handle_hy2_stream`: the target that is handed on, which only the type `0x00` is. -/
def handleHy2Stream (passwords : List Str) : Handler ConnError (Option Target) := do
  let tokenLen ← readByte
  let token ← readBytes tokenLen.toNat
  ensure (passwords.any fun p => p == fromUtf8Lossy token) "hysteria2: unauthorized password".toList
  let proxyType ← readByte
  let target ← readHy2Addr
  return if proxyType = 0x00 then some target else none

/-! ### What a server has read -/

theorem yields_ensure {cond : Bool} {text : Str} {u : Unit} {s s' : Conn} :
    Yields (ensure cond text) s u s' ↔ cond = true ∧ s = s' := by
  unfold ensure
  split
  · rename_i h
    rw [yields_pure]
    exact ⟨fun hs => ⟨h, hs.2⟩, fun hs => ⟨rfl, hs.2⟩⟩
  · rename_i h
    exact ⟨fun hs => absurd hs not_yields_bail, fun hs => absurd hs.1 h⟩

/-- The bytes of an address: at most 19 for an IP address, and the text of a domain. -/
inductive AddrBytes : Target → Bytes → Prop
  | socket {a : SocketAddr} {bs : Bytes} (h : bs.length ≤ 19) : AddrBytes (.socket a) bs
  | domain {host : Str} {port : UInt16} {atyp dlen : UInt8} {bs : Bytes} (h : bs.length = 2) :
      AddrBytes (.domain host port) (atyp :: dlen :: (utf8 host ++ bs))

/-- **Reading an address**, of either protocol: what was taken from the input is an encoding of the target, and
    nothing was written. -/
theorem addrBytes_of_readAddr {v4 domain v6 : UInt8} {unknown : Str} {target : Target} {s s' : Conn}
    (h : Yields (readAddr v4 domain v6 unknown) s target s') :
    ∃ bs, AddrBytes target bs ∧ s.input = bs ++ s'.input ∧ s'.output = s.output := by
  obtain ⟨atyp, s₁, hatyp, h⟩ := yields_bind.mp h
  obtain ⟨hin, hout⟩ := yields_readU8.mp hatyp
  -- an IP address of `n` bytes and its port
  have hsocket : ∀ {n : Nat} {ip : Bytes → IpAddr}, n ≤ 16 →
      Yields (do let bs ← readBytes n; let port ← readPort; return Target.socket ⟨ip bs, port⟩)
        s₁ target s' →
      ∃ bs, AddrBytes target bs ∧ s.input = bs ++ s'.input ∧ s'.output = s.output := by
    intro n ip hn h
    obtain ⟨bs, s₂, hbs, h⟩ := yields_bind.mp h
    obtain ⟨hin₂, hlen, hout₂⟩ := yields_readExact.mp hbs
    obtain ⟨port, s₃, hport, h⟩ := yields_bind.mp h
    obtain ⟨ps, hin₃, hps, hout₃, -⟩ := yields_readPort.mp hport
    obtain ⟨rfl, rfl⟩ := yields_pure.mp h
    refine ⟨atyp :: (bs ++ ps), .socket ?_, ?_, hout₃.trans (hout₂.trans hout)⟩
    · rw [List.length_cons, List.length_append, hlen, hps]
      omega
    · rw [hin, hin₂, hin₃, List.cons_append, List.append_assoc]
  split at h
  · exact hsocket (by decide) h
  · split at h
    · obtain ⟨dlen, s₂, hdlen, h⟩ := yields_bind.mp h
      obtain ⟨hin₂, hout₂⟩ := yields_readU8.mp hdlen
      obtain ⟨bs, s₃, hbs, h⟩ := yields_bind.mp h
      obtain ⟨hin₃, -, hout₃⟩ := yields_readExact.mp hbs
      obtain ⟨port, s₄, hport, h⟩ := yields_bind.mp h
      obtain ⟨ps, hin₄, hps, hout₄, -⟩ := yields_readPort.mp hport
      obtain ⟨host, s₅, hhost, hlast⟩ := yields_bind.mp h
      obtain ⟨rfl, rfl⟩ := yields_stringFromUtf8.mp hhost
      obtain ⟨rfl, rfl⟩ := yields_pure.mp hlast
      refine ⟨atyp :: dlen :: (utf8 host ++ ps), .domain hps, ?_, hout₄.trans (hout₃.trans (hout₂.trans hout))⟩
      rw [hin, hin₂, hin₃, hin₄, List.cons_append, List.cons_append, List.append_assoc]
    · split at h
      · exact hsocket (by decide) h
      · exact absurd h not_yields_bail

/-- **What the Hysteria2 inbound reads**: a token behind its length, a type, and an address. -/
theorem read_of_handleHy2Stream {passwords : List Str} {handed : Option Target} {s s' : Conn}
    (h : Yields (handleHy2Stream passwords) s handed s') :
    ∃ tokenLen token proxyType target bs, token.length = tokenLen.toNat ∧ AddrBytes target bs ∧
      s.input = tokenLen :: (token ++ proxyType :: bs) ++ s'.input ∧ s'.output = s.output ∧
      handed = if proxyType = 0x00 then some target else none := by
  obtain ⟨tokenLen, s₁, h₁, h⟩ := yields_bind.mp h
  obtain ⟨hin₁, hout₁⟩ := yields_readU8.mp h₁
  obtain ⟨token, s₂, h₂, h⟩ := yields_bind.mp h
  obtain ⟨hin₂, hlen, hout₂⟩ := yields_readExact.mp h₂
  obtain ⟨_, s₃, h₃, h⟩ := yields_bind.mp h
  obtain ⟨-, rfl⟩ := yields_ensure.mp h₃
  obtain ⟨proxyType, s₄, h₄, h⟩ := yields_bind.mp h
  obtain ⟨hin₄, hout₄⟩ := yields_readU8.mp h₄
  obtain ⟨target, s₅, h₅, h⟩ := yields_bind.mp h
  obtain ⟨bs, hbs, hin₅, hout₅⟩ := addrBytes_of_readAddr h₅
  obtain ⟨rfl, rfl⟩ := yields_pure.mp h
  refine ⟨tokenLen, token, proxyType, target, bs, hlen, hbs, ?_,
    hout₅.trans (hout₄.trans (hout₂.trans hout₁)), rfl⟩
  rw [hin₁, hin₂, hin₄, hin₅]
  simp only [List.cons_append, List.append_assoc]

/-! ### TUIC -/

/-- Both handlers start with a check of the version. -/
theorem version_of_yields {α : Type} {text : UInt8 → Str} {f : UInt8 → Handler ConnError α}
    {b : UInt8} {rest output : Bytes} {a : α} {s : Conn}
    (h : Yields (readByte >>= fun version => ensure (version == 0x05) (text version) >>= fun _ =>
      f version) ⟨b :: rest, output⟩ a s) : b = 0x05 := by
  obtain ⟨version, s₁, hversion, h⟩ := yields_bind.mp h
  obtain ⟨hin, -⟩ := yields_readU8.mp hversion
  obtain ⟨rfl, -⟩ := List.cons.inj hin
  obtain ⟨_, s₂, hensure, -⟩ := yields_bind.mp h
  exact eq_of_beq (yields_ensure.mp hensure).1

/-- **Authentication.** The outbound starts with its type, where the inbound expects a version. -/
theorem not_yields_authRequest (users : List (Bytes × Bytes)) (c : Tuic.Credentials) (s : Conn) :
    ¬ Yields (handleTuicConn users) ⟨Tuic.authRequest c, []⟩ () s := by
  intro h
  exact absurd (version_of_yields h) (by decide)

/-- **Requests** of the outbound start with their type too. -/
theorem not_yields_connectRequest (c : Tuic.Credentials) (target target' : Target) (payload : Bytes)
    (s : Conn) :
    ¬ Yields handleTuicStream ⟨Tuic.connectRequest c target ++ payload, []⟩ target' s := by
  intro h
  exact absurd (version_of_yields h) (by decide)

/-! ### Hysteria2 -/

/-- **No answer.** The inbound writes nothing to a stream before it hands it on. -/
theorem output_handleHy2Stream {passwords : List Str} {handed : Option Target} {s s' : Conn}
    (h : Yields (handleHy2Stream passwords) s handed s') : s'.output = s.output := by
  obtain ⟨-, -, -, -, -, -, -, -, houtput, -⟩ := read_of_handleHy2Stream h
  exact houtput

/-- Without an answer the outbound is not authenticated. -/
theorem not_yields_readAuthHeaders (parse : Bytes → Except Str (List (Str × Str)))
    (headers : List (Str × Str)) (s : Conn) :
    ¬ Yields (Hy2.readAuthHeaders parse) ⟨[], []⟩ headers s := by
  intro h
  have hgo : Yields (Hy2.readAuthHeadersGo parse 1) ⟨[], []⟩ headers s := h
  obtain ⟨frame, s₁, hframe, -⟩ := yields_bind.mp hgo
  obtain ⟨frameType, s₂, htype, -⟩ := yields_bind.mp hframe
  obtain ⟨first, s₃, hfirst, -⟩ := yields_bind.mp htype
  cases (yields_readU8.mp hfirst).1

/-- The varint of a length that takes two bytes and would fit into one. -/
theorem notMem_writeVarint : ∀ n < 256, 64 ≤ n → 0 ∉ Hy2.writeVarint n := by
  decide +kernel

/-- A port in decimal digits has no zero byte, which would end the address before it. -/
theorem notMem_utf8_port (port : UInt16) : 0 ∉ utf8 (':' :: display port.toNat) := by
  intro hmem
  rcases List.mem_cons.mp (ascii_mem_utf8 (by decide) hmem) with hcolon | hdigit
  · exact absurd hcolon (by decide)
  · exact absurd (isDigit_of_mem_display hdigit) (by decide)

/-- A request of the outbound has no address of an IP at its end: there is padding. -/
theorem tcpRequest_ne_socket (target : Target) (seed : Nat) (front : Bytes) {bs : Bytes}
    (hbs : bs.length ≤ 19) : Hy2.tcpRequest target seed ≠ front ++ 0x00 :: bs := by
  intro heq
  have hsuffix : 0x00 :: bs <:+ Hy2.tcpRequest target seed := ⟨front, heq.symm⟩
  have hpadding : Hy2.randomPadding 64 512 seed <:+ Hy2.tcpRequest target seed :=
    List.suffix_append _ _
  have hlen : (0x00 :: bs).length ≤ (Hy2.randomPadding 64 512 seed).length := by
    rw [List.length_cons, Hy2.length_randomPadding]
    omega
  have hsub := List.suffix_of_suffix_length_le hsuffix hpadding hlen
  exact Hy2.notMem_randomPadding 64 512 seed (hsub.subset (List.mem_cons_self ..))

/-- A text stands behind `head`, and again behind `front` and an `a`; then there is an `a` behind its
    first place. -/
theorem mem_of_append_eq {α : Type*} [DecidableEq α] {a : α} {head text tail front mid rest : List α}
    (heq : head ++ (text ++ tail) = front ++ a :: (mid ++ (text ++ rest)))
    (hlen : head.length ≤ front.length) : a ∈ tail := by
  have hprefix : head <+: front := List.prefix_of_prefix_length_le ⟨_, rfl⟩ ⟨_, heq.symm⟩ hlen
  have hcount := congrArg (List.count a) heq
  simp only [List.count_append, List.count_cons_self] at hcount
  have hle := hprefix.sublist.count_le a
  exact List.count_pos_iff.mp (by omega)

/-- Nor is there a domain at its end: the padding would be too short for its length to have a zero
    byte. -/
theorem tcpRequest_ne_domain (host : Str) (port : UInt16) (seed : Nat) {front : Bytes}
    (hfront : front.length = 69) (atyp dlen : UInt8) {ps : Bytes} (hps : ps.length = 2) :
    Hy2.tcpRequest (.domain host port) seed
      ≠ front ++ 0x00 :: ([atyp, dlen] ++ (utf8 host ++ ps)) := by
  intro heq
  set padding := Hy2.randomPadding 64 512 seed
  set portBytes := utf8 (':' :: display port.toNat)
  have haddr : utf8 (Hy2.targetToAddrStr (.domain host port)) = utf8 host ++ portBytes :=
    utf8_append _ _
  have hrequest : Hy2.tcpRequest (.domain host port) seed
      = (Hy2.writeVarint 0x401 ++ Hy2.writeVarint (utf8 host ++ portBytes).length)
        ++ (utf8 host ++ (portBytes ++ (Hy2.writeVarint padding.length ++ padding))) := by
    rw [Hy2.tcpRequest, haddr]
    simp only [List.append_assoc]
    rfl
  rw [hrequest] at heq
  have hhead := Hy2.length_writeVarint_le (utf8 host ++ portBytes).length
  have hvarint : (Hy2.writeVarint 0x401).length = 2 := rfl
  have hzero := mem_of_append_eq heq (by rw [List.length_append]; omega)
  have hlen := congrArg List.length heq
  simp only [List.length_append, List.length_cons, List.length_nil, hfront, hps] at hlen
  have hpadded : padding.length = 64 + seed % 448 := Hy2.length_randomPadding 64 512 seed
  rcases List.mem_append.mp hzero with hmem | hmem
  · exact notMem_utf8_port port hmem
  · rcases List.mem_append.mp hmem with hmem | hmem
    · exact notMem_writeVarint padding.length (by omega) (by omega) hmem
    · exact Hy2.notMem_randomPadding 64 512 seed hmem

/-- **No target.** What the outbound sends does not end in the address that the inbound looks for:
    the byte for the type would have to be zero, and the target to stand behind it. -/
theorem not_yields_tcpRequest (passwords : List Str) (target : Target) (seed : Nat)
    (payload : Bytes) :
    ¬ Yields (handleHy2Stream passwords) ⟨Hy2.tcpRequest target seed ++ payload, []⟩ (some target)
      ⟨payload, []⟩ := by
  intro h
  obtain ⟨tokenLen, token, proxyType, target', bs, htoken, hbs, hinput, -, hhanded⟩ :=
    read_of_handleHy2Stream h
  split at hhanded
  · rename_i hzero
    obtain rfl := Option.some.inj hhanded
    subst hzero
    have hrequest : Hy2.tcpRequest target seed = (tokenLen :: token) ++ 0x00 :: bs :=
      List.append_cancel_right hinput
    cases hbs with
    | socket hlen => exact tcpRequest_ne_socket _ seed _ hlen hrequest
    | domain hps =>
        -- the token has the length that the first byte of the request says
        obtain ⟨rfl, -⟩ := List.cons.inj (show 0x44 :: _ = tokenLen :: _ from hrequest)
        exact tcpRequest_ne_domain _ _ seed (by rw [List.length_cons, htoken]; rfl) _ _ hps hrequest
  · cases hhanded

/-! ### Outbound and inbound -/

section Carried

variable (hmacSha256 : (key msg : Bytes) → Vector UInt8 32)

/-- The TUIC inbound accepts the authentication of a client. -/
def TuicAuthenticates (users : List (Vector UInt8 16 × Str)) (uuid : Vector UInt8 16)
    (password : Str) : Prop :=
  ∃ s, Yields (handleTuicConn (tuicUsers hmacSha256 users))
    ⟨Tuic.authRequest ⟨uuid, Tuic.deriveToken hmacSha256 uuid (utf8 password)⟩, []⟩ () s

/-- It recovers the target of a request and leaves the payload. -/
def TuicRecovers (uuid : Vector UInt8 16) (password : Str) (target : Target) (payload : Bytes) :
    Prop :=
  Yields handleTuicStream
    ⟨Tuic.connectRequest ⟨uuid, Tuic.deriveToken hmacSha256 uuid (utf8 password)⟩ target ++ payload,
      []⟩ target ⟨payload, []⟩

/-- The Hysteria2 inbound accepts the authentication of a client: it answers with the status that
    the client waits for. -/
def Hy2Authenticates (parseHeadersFromQpack : Bytes → Except Str (List (Str × Str)))
    (passwords : List Str) (password : Str) (rxBps : UInt64) (seed : Nat) : Prop :=
  ∃ handed s headers s', Yields (handleHy2Stream passwords)
      ⟨Hy2.authRequest password rxBps seed, []⟩ handed s ∧
    Yields (Hy2.readAuthHeaders parseHeadersFromQpack) ⟨s.output, []⟩ headers s' ∧
    Hy2.authStatus headers = some 233

/-- It recovers the target of a request and leaves the payload. -/
def Hy2Recovers (passwords : List Str) (target : Target) (payload : Bytes) (seed : Nat) : Prop :=
  Yields (handleHy2Stream passwords) ⟨Hy2.tcpRequest target seed ++ payload, []⟩ (some target)
    ⟨payload, []⟩

/-- **Neither inbound understands its outbound.** For all users and passwords, all targets and
    payloads, and whatever the padding is: no authentication is accepted and no target recovered. -/
theorem quic_never_carried (users : List (Vector UInt8 16 × Str)) (uuid : Vector UInt8 16)
    (parseHeadersFromQpack : Bytes → Except Str (List (Str × Str))) (passwords : List Str)
    (password : Str) (rxBps : UInt64) (target : Target) (payload : Bytes) (authSeed seed : Nat) :
    (¬ TuicAuthenticates hmacSha256 users uuid password ∧
      ¬ TuicRecovers hmacSha256 uuid password target payload) ∧
    ¬ Hy2Authenticates parseHeadersFromQpack passwords password rxBps authSeed ∧
      ¬ Hy2Recovers passwords target payload seed := by
  refine ⟨⟨?_, not_yields_connectRequest _ _ _ _ _⟩, ?_, not_yields_tcpRequest _ _ _ _⟩
  · rintro ⟨s, hs⟩
    exact not_yields_authRequest _ _ _ hs
  · rintro ⟨handed, s, headers, s', hserver, hclient, -⟩
    rw [output_handleHy2Stream hserver] at hclient
    exact not_yields_readAuthHeaders _ _ _ hclient

end Carried

/-- A UUID. -/
def someUuid : Vector UInt8 16 := ⟨#[0, 1, 2, 3, 4, 5, 6, 7, 8, 9, 10, 11, 12, 13, 14, 15], rfl⟩

/-- HMAC-SHA-256 of the UUID under the key `pw`. -/
def someHmac (_key _msg : Bytes) : Vector UInt8 32 :=
  ⟨#[141, 233, 231, 52, 56, 114, 64, 116, 3, 23, 189, 14, 232, 107, 255, 220, 96, 54, 194, 85, 137,
    56, 240, 61, 81, 139, 37, 129, 254, 186, 244, 236], rfl⟩

/-- The one user of the inbound is refused by it. -/
theorem quic_refused :
    let c : Tuic.Credentials := ⟨someUuid, Tuic.deriveToken someHmac someUuid (utf8 "pw".toList)⟩
    let target : Target := .domain "example.com".toList 443
    (handleTuicConn (tuicUsers someHmac [(someUuid, "pw".toList)]) ⟨Tuic.authRequest c, []⟩).1
      = .error (.message "tuic: unsupported version 2".toList) ∧
    (handleTuicStream ⟨Tuic.connectRequest c target ++ [1], []⟩).1
      = .error (.message "tuic: stream version mismatch".toList) ∧
    (handleHy2Stream ["pw".toList] ⟨Hy2.authRequest "pw".toList 0 0, []⟩).1
      = .error (.message "hysteria2: unauthorized password".toList) ∧
    (handleHy2Stream ["pw".toList] ⟨Hy2.tcpRequest target 0 ++ [1], []⟩).1
      = .error (.message "hysteria2: unauthorized password".toList) ∧
    ¬ (TuicAuthenticates someHmac [(someUuid, "pw".toList)] someUuid "pw".toList ∧
      TuicRecovers someHmac someUuid "pw".toList target [1]) ∧
    ¬ Hy2Recovers ["pw".toList] target [1] 0 := by
  refine ⟨by decide +kernel, by decide +kernel, by decide +kernel, by decide +kernel, ?_, ?_⟩
  · rintro ⟨⟨s, hs⟩, -⟩
    exact not_yields_authRequest _ _ _ hs
  · exact not_yields_tcpRequest _ _ _ _

end Reflex.Inbound
