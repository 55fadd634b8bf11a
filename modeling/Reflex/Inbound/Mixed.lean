import Reflex.Inbound.Types
import Reflex.Lib.ByteStream

namespace Reflex.Inbound

open RustStd ByteStream

/-!
# Inbounds — SOCKS5 and HTTP on one port

`inbound/mixed.rs`: `handleConn` looks at the first byte of a connection and speaks SOCKS5
(method negotiation, username and password, request) or HTTP.

* `exists_yields_handleSocks5`, `exists_yields_handleHttp` — the byte streams with which a client gets
  its connection handed to the dispatcher or a UDP association opened;
* `handed_only_presented_iff` — when that happens only after the client has presented the
  configured username and password.
-/

/-! ### The handlers -/

/-- `Network`. -/
inductive Network where
  | tcp | udp | tcpUdp
  deriving DecidableEq, Repr

/-- `Network::udp`. -/
def Network.hasUdp : Network → Bool
  | .tcp => false
  | .udp => true
  | .tcpUdp => true

/-- `MixedInboundConfig`, as far as a connection reads it. -/
structure MixedInboundConfig where
  tag : Str
  network : Network
  username : Option Str
  password : Option Str

/-- How a connection fails: by its end, by bytes that are no text, by a socket, or with a message. -/
inductive ConnError where
  | unexpectedEof
  | invalidUtf8
  | bindFailed
  | message (text : Str)
  deriving DecidableEq, Repr

/-- What a connection is handed to: the dispatcher with its target, or an association at a local address. -/
inductive Handed where
  | dispatcher (conn : InboundTcpStream)
  | udpAssociation (localAddr : SocketAddr)
  deriving DecidableEq, Repr

/-- `{:02x}` of a byte. -/
def hex02 (b : UInt8) : Str :=
  let digit (n : Nat) : Char := "0123456789abcdef".toList.getD n '0'
  [digit (b.toNat / 16), digit (b.toNat % 16)]

/-- Read one byte of the client. -/
def readByte : Handler ConnError UInt8 := readU8 .unexpectedEof

/-- Read `n` bytes of the client. -/
def readBytes (n : Nat) : Handler ConnError Bytes := readExact .unexpectedEof n

/-- `read_u16`. -/
def readPort : Handler ConnError UInt16 := do
  let bs ← readBytes 2
  return UInt16.ofNat (beVal bs)

/-- `read_socks5_addr`. -/
def readSocks5Addr (atyp : UInt8) : Handler ConnError Target := do
  if atyp = 0x01 then
    let ip ← readBytes 4
    let port ← readPort
    return .socket ⟨.v4 (Ipv4Addr.ofOctets ip), port⟩
  else if atyp = 0x04 then
    let ip ← readBytes 16
    let port ← readPort
    return .socket ⟨.v6 (Ipv6Addr.ofOctets ip), port⟩
  else if atyp = 0x03 then
    let len ← readByte
    let domain ← readBytes len.toNat
    let port ← readPort
    let domain ← ofExcept (match fromUtf8 domain with
      | some domain => .ok domain
      | none => .error .invalidUtf8)
    return .domain domain port
  else bail (.message ("unknown SOCKS5 atyp: 0x".toList ++ hex02 atyp))

/-- `write_socks5_reply`. -/
def writeSocks5Reply (rep : UInt8) (bindAddr : SocketAddr) : Handler ConnError Unit :=
  writeAll ([0x05, rep, 0x00]
    ++ (match bindAddr.ip with
      | .v4 a => 0x01 :: a.octets
      | .v6 a => 0x04 :: a.octets)
    ++ beBytes 2 bindAddr.port.toNat)

/-- `write_socks5_reply_code`. -/
def writeSocks5ReplyCode (rep : UInt8) : Handler ConnError Unit :=
  writeAll [0x05, rep, 0x00, 0x01, 0, 0, 0, 0, 0, 0]

/-- The method negotiation of `handle_socks5`: the method the server selects. -/
def negotiate (config : MixedInboundConfig) : Handler ConnError UInt8 := do
  let ver ← readByte
  if ver ≠ 0x05 then bail (.message "not SOCKS5".toList)
  else
    let nmethods ← readByte
    let methods ← readBytes nmethods.toNat
    -- a client that does not offer 0x02 falls through to "no authentication"
    if config.username.isSome ∧ 0x02 ∈ methods then
      writeAll [0x05, 0x02]
      return 0x02
    else if 0x00 ∈ methods then
      writeAll [0x05, 0x00]
      return 0x00
    else
      writeAll [0x05, 0xFF]
      bail (.message "no acceptable SOCKS5 auth method".toList)

/-- `std::str::from_utf8(..).unwrap_or("")`. -/
def utf8OrEmpty (bs : Bytes) : Str := (fromUtf8 bs).getD []

/-- The authentication of `handle_socks5`. -/
def authenticate (config : MixedInboundConfig) : Handler ConnError Unit := do
  -- the version is read and not checked
  let _ver ← readByte
  let ulen ← readByte
  let uname ← readBytes ulen.toNat
  let plen ← readByte
  let passwd ← readBytes plen.toNat
  -- bytes that are not UTF-8 are compared as the empty string
  if config.username = some (utf8OrEmpty uname) ∧ config.password = some (utf8OrEmpty passwd) then
    writeAll [0x01, 0x00]
  else
    writeAll [0x01, 0x01]
    bail (.message "SOCKS5 auth failed".toList)

section Conn

variable (config : MixedInboundConfig) (peer : SocketAddr) (bindUdp : Option SocketAddr)

/-- `handle_socks5_udp_associate` up to the reply; `bindUdp` is the local address of the UDP
    socket, if it could be bound. -/
def openUdpAssociation : Handler ConnError Handed := do
  let localAddr ← ofExcept (match bindUdp with
    | some addr => .ok addr
    | none => .error .bindFailed)
  writeSocks5Reply 0x00 localAddr
  return .udpAssociation localAddr

/-- The commands of `handle_socks5`. -/
def serveCommand (cmd : UInt8) (target : Target) : Handler ConnError Handed := do
  if cmd = 0x01 then
    writeSocks5Reply 0x00 peer
    return .dispatcher { target, inboundTag := config.tag }
  else if cmd = 0x03 then
    if config.network.hasUdp then openUdpAssociation bindUdp
    else
      writeSocks5ReplyCode 0x07
      bail (.message "UDP ASSOCIATE disabled".toList)
  else
    writeSocks5ReplyCode 0x07
    bail (.message ("unsupported SOCKS5 cmd: 0x".toList ++ hex02 cmd))

/-- The request of `handle_socks5`. -/
def socks5Request : Handler ConnError Handed := do
  let _ver ← readByte
  let cmd ← readByte
  let _rsv ← readByte
  let atyp ← readByte
  let target ← readSocks5Addr atyp
  serveCommand config peer bindUdp cmd target

/-- `handle_socks5`. -/
def handleSocks5 : Handler ConnError Handed := do
  let method ← negotiate config
  if method = 0x02 then
    authenticate config
    socks5Request config peer bindUdp
  else socks5Request config peer bindUdp

end Conn

/-- The loop of `handle_http` that reads a request up to the empty line; `buf` has been read. -/
def readHttpHead : Bytes → Bytes → Except ConnError (Bytes × Bytes)
  | [], _ => .error .unexpectedEof
  | b :: rest, buf =>
      let buf := buf ++ [b]
      if [0x0D, 0x0A, 0x0D, 0x0A] <:+ buf then .ok (buf, rest)
      -- the limit is tested after the byte is in the buffer
      else if buf.length < 8192 then readHttpHead rest buf
      else .error (.message "HTTP header too large".toList)

/-- `port_str.parse().unwrap_or(default)`. -/
def portOr (dflt : UInt16) (s : Str) : UInt16 := (parseU16 s).getD dflt

/-- The target `host[:port]` of a request. -/
def hostPort (dflt : UInt16) (s : Str) : Target :=
  match rsplitOnce ':' s with
  | some (host, port) => .domain host (portOr dflt port)
  | none => .domain s dflt

/-- `parse_http_connect`. -/
def parseHttpConnect (request : Str) : Except ConnError Target :=
  let firstLine := (lines request).headD []
  match splitOnce ' ' firstLine with
  | none => .error (.message "malformed HTTP request line".toList)
  | some (method, rest) =>
      let target := match splitOnce ' ' rest with
        | some (target, _) => target
        | none => rest
      if toAsciiLowercase method = "connect".toList then .ok (hostPort 443 target)
      else
        match ((lines request).drop 1).find? fun line => "Host:".toList.isPrefixOf line with
        | some line => .ok (hostPort 80 (trim (line.drop 5)))
        | none => .error (.message "no Host header in HTTP request".toList)

/-- Read a request up to the empty line. -/
def readHead : Handler ConnError Bytes := fun s =>
  match readHttpHead s.input [] with
  | .ok (head, rest) => (.ok head, { s with input := rest })
  | .error e => (.error e, { s with input := [] })

/-- `handle_http`. -/
def handleHttp (tag : Str) : Handler ConnError Handed := do
  let head ← readHead
  let request ← ofExcept (match fromUtf8 head with
    | some request => .ok request
    | none => .error .invalidUtf8)
  -- no header is looked at for credentials
  let target ← ofExcept (parseHttpConnect request)
  writeAll (utf8 "HTTP/1.1 200 Connection Established\r\n\r\n".toList)
  return .dispatcher { target, inboundTag := tag }

/-- The first bytes of the HTTP methods. -/
def httpFirstBytes : Bytes := utf8 "CGPHDOT".toList

/-- `handle_conn`; an empty stream shows a first byte of `0`. -/
def handleConn (config : MixedInboundConfig) (peer : SocketAddr) (bindUdp : Option SocketAddr) :
    Handler ConnError Handed := fun s =>
  let first := s.input.headD 0
  if first = 0x05 then handleSocks5 config peer bindUdp s
  else if first ∈ httpFirstBytes then handleHttp config.tag s
  else bail (.message ("unknown protocol first byte: 0x".toList ++ hex02 first)) s

/-! ### The streams that are served -/

/-- The address of a request: its bytes and the port are there. -/
def AddrAccepted (atyp : UInt8) (bytes : Bytes) : Prop :=
  (atyp = 0x01 ∧ 6 ≤ bytes.length) ∨ (atyp = 0x04 ∧ 18 ≤ bytes.length) ∨
    (atyp = 0x03 ∧ ∃ len domain rest, bytes = len :: (domain ++ rest) ∧ domain.length = len.toNat ∧
      2 ≤ rest.length ∧ (fromUtf8 domain).isSome = true)

/-- The request of a SOCKS5 client: a connection, or a UDP association where these are enabled. -/
def RequestAccepted (config : MixedInboundConfig) (bindUdp : Option SocketAddr) (bytes : Bytes) :
    Prop :=
  ∃ ver cmd rsv atyp rest, bytes = ver :: cmd :: rsv :: atyp :: rest ∧ AddrAccepted atyp rest ∧
    (cmd = 0x01 ∨ (cmd = 0x03 ∧ config.network.hasUdp = true ∧ bindUdp.isSome = true))

theorem yields_readPort {s s' : Conn} {p : UInt16} :
    Yields readPort s p s' ↔ ∃ bs, s.input = bs ++ s'.input ∧ bs.length = 2 ∧
      s'.output = s.output ∧ UInt16.ofNat (beVal bs) = p := by
  simp only [readPort, readBytes, yields_bind, yields_readExact, yields_pure]
  constructor
  · rintro ⟨bs, s₁, ⟨h1, h2, h3⟩, h4, rfl⟩
    exact ⟨bs, h1, h2, h3, h4⟩
  · rintro ⟨bs, h1, h2, h3, h4⟩
    exact ⟨bs, s', ⟨h1, h2, h3⟩, h4, rfl⟩

theorem reads_readPort (port : UInt16) : Reads readPort (beBytes 2 port.toNat) port := by
  have hread : Reads readPort (beBytes 2 port.toNat)
      (UInt16.ofNat (beVal (beBytes 2 port.toNat))) :=
    (reads_readExact _ (length_beBytes 2 port.toNat)).bind_nil (reads_pure rfl)
  rwa [beVal_beBytes_of_lt port.toNat_lt, UInt16.ofNat_toNat] at hread

/-- Reading `n` bytes and a port succeeds when there are `n + 2` bytes. -/
private theorem exists_yields_bytesPort {α : Type} {n : Nat} {f : Bytes → UInt16 → α} {s : Conn} :
    (∃ t s', Yields (do
        let bs ← readBytes n
        let port ← readPort
        return f bs port) s t s') ↔ n + 2 ≤ s.input.length := by
  simp only [yields_bind, yields_pure, readBytes, yields_readExact, yields_readPort]
  constructor
  · rintro ⟨t, s', bs, s₁, ⟨hin, hlen, -⟩, port, s₂, ⟨ps, hps, hlenp, -, -⟩, -, -⟩
    rw [hin, hps, List.length_append, List.length_append]
    omega
  · intro h
    -- the states in between are determined: what has been read is dropped from the input
    refine ⟨_, ⟨(s.input.drop n).drop 2, s.output⟩, s.input.take n, ⟨s.input.drop n, s.output⟩,
      ⟨?_, ?_, rfl⟩, _, ⟨(s.input.drop n).drop 2, s.output⟩,
      ⟨(s.input.drop n).take 2, ?_, ?_, rfl, rfl⟩, rfl, rfl⟩
    · exact (List.take_append_drop n s.input).symm
    · exact List.length_take_of_le (by omega)
    · exact (List.take_append_drop 2 (s.input.drop n)).symm
    · exact List.length_take_of_le (by rw [List.length_drop]; omega)

private theorem exists_yields_domain {s : Conn} :
    (∃ t s', Yields (do
        let len ← readByte
        let domain ← readBytes len.toNat
        let port ← readPort
        let domain ← ofExcept (match fromUtf8 domain with
          | some domain => .ok domain
          | none => .error ConnError.invalidUtf8)
        return Target.domain domain port) s t s') ↔
      ∃ len domain rest, s.input = len :: (domain ++ rest) ∧ domain.length = len.toNat ∧
        2 ≤ rest.length ∧ (fromUtf8 domain).isSome = true := by
  simp only [yields_bind, yields_pure, readByte, readBytes, yields_readU8, yields_readExact,
    yields_readPort, yields_ofExcept]
  constructor
  · rintro ⟨t, s', len, s₁, ⟨hlen, -⟩, domain, s₂, ⟨hdomain, hdlen, -⟩, port, s₃,
      ⟨ps, hps, hplen, -, -⟩, name, s₄, ⟨hname, -⟩, -, -⟩
    refine ⟨len, domain, s₂.input, by rw [hlen, hdomain], hdlen, ?_, ?_⟩
    · rw [hps, List.length_append]
      omega
    · rcases hutf : fromUtf8 domain with _ | d
      · simp [hutf] at hname
      · rfl
  · rintro ⟨len, domain, rest, hin, hdlen, hrest, hutf⟩
    obtain ⟨name, hname⟩ := Option.isSome_iff_exists.mp hutf
    refine ⟨_, ⟨rest.drop 2, s.output⟩, len, ⟨domain ++ rest, s.output⟩, ⟨hin, rfl⟩, domain,
      ⟨rest, s.output⟩, ⟨rfl, hdlen, rfl⟩, _, ⟨rest.drop 2, s.output⟩,
      ⟨rest.take 2, ?_, ?_, rfl, rfl⟩, name, _, ⟨by rw [hname], rfl⟩, rfl, rfl⟩
    · exact (List.take_append_drop 2 rest).symm
    · exact List.length_take_of_le hrest

theorem exists_yields_readSocks5Addr {atyp : UInt8} {s : Conn} :
    (∃ t s', Yields (readSocks5Addr atyp) s t s') ↔ AddrAccepted atyp s.input := by
  unfold readSocks5Addr AddrAccepted
  -- the three address types in the order in which the source compares them
  by_cases h1 : atyp = 0x01
  · subst h1
    rw [if_pos rfl, exists_yields_bytesPort]
    simp
  · by_cases h4 : atyp = 0x04
    · subst h4
      rw [if_neg h1, if_pos rfl, exists_yields_bytesPort]
      simp
    · by_cases h3 : atyp = 0x03
      · subst h3
        rw [if_neg h1, if_neg h4, if_pos rfl, exists_yields_domain]
        simp
      · rw [if_neg h1, if_neg h4, if_neg h3]
        simp [h1, h4, h3]

section Served

variable {config : MixedInboundConfig} {peer : SocketAddr} {bindUdp : Option SocketAddr}

theorem exists_yields_serveCommand {cmd : UInt8} {target : Target} {s : Conn} :
    (∃ h s', Yields (serveCommand config peer bindUdp cmd target) s h s') ↔
      (cmd = 0x01 ∨ (cmd = 0x03 ∧ config.network.hasUdp = true ∧ bindUdp.isSome = true)) := by
  unfold serveCommand
  -- only CONNECT and, where UDP is enabled, UDP ASSOCIATE get past the reply
  by_cases h1 : cmd = 0x01
  · rw [if_pos h1]
    simp only [yields_bind, yields_pure, writeSocks5Reply, yields_writeAll, h1, true_or, iff_true]
    exact ⟨_, _, (), _, rfl, rfl, rfl⟩
  · rw [if_neg h1]
    by_cases h3 : cmd = 0x03
    · rw [if_pos h3]
      by_cases hudp : config.network.hasUdp = true
      · rw [if_pos hudp]
        simp only [openUdpAssociation, yields_bind, yields_pure, writeSocks5Reply, yields_writeAll,
          yields_ofExcept, h3, hudp, true_and]
        rcases bindUdp with _ | addr
        · simp
        · simp only [Option.isSome_some, or_true, iff_true]
          exact ⟨_, _, addr, s, ⟨rfl, rfl⟩, (), _, rfl, rfl, rfl⟩
      · rw [if_neg hudp]
        simp [h1, hudp]
    · rw [if_neg h3]
      simp [h1, h3]

/-- **The request** is served exactly when it is well formed. -/
theorem exists_yields_socks5Request {s : Conn} :
    (∃ h s', Yields (socks5Request config peer bindUdp) s h s') ↔
      RequestAccepted config bindUdp s.input := by
  simp only [socks5Request, yields_bind, readByte, yields_readU8]
  constructor
  · rintro ⟨h, s', ver, s₁, ⟨h₁, -⟩, cmd, s₂, ⟨h₂, -⟩, rsv, s₃, ⟨h₃, -⟩, atyp, s₄, ⟨h₄, -⟩,
      target, s₅, haddr, hserve⟩
    refine ⟨ver, cmd, rsv, atyp, s₄.input, by rw [h₁, h₂, h₃, h₄], ?_, ?_⟩
    · exact exists_yields_readSocks5Addr.mp ⟨target, s₅, haddr⟩
    · exact exists_yields_serveCommand.mp ⟨h, s', hserve⟩
  · rintro ⟨ver, cmd, rsv, atyp, rest, hin, haddr, hcmd⟩
    obtain ⟨target, s₅, haddr⟩ :=
      exists_yields_readSocks5Addr (s := ⟨rest, s.output⟩).mpr haddr
    obtain ⟨h, s', hserve⟩ : ∃ h s', Yields (serveCommand config peer bindUdp cmd target) s₅ h s' :=
      exists_yields_serveCommand.mpr hcmd
    exact ⟨h, s', ver, ⟨cmd :: rsv :: atyp :: rest, s.output⟩, ⟨hin, rfl⟩, cmd,
      ⟨rsv :: atyp :: rest, s.output⟩, ⟨rfl, rfl⟩, rsv, ⟨atyp :: rest, s.output⟩, ⟨rfl, rfl⟩, atyp,
      ⟨rest, s.output⟩, ⟨rfl, rfl⟩, target, s₅, haddr, hserve⟩

/-- The method negotiation with a configured username. -/
theorem yields_negotiate (huser : config.username.isSome = true) {s s' : Conn} {m : UInt8} :
    Yields (negotiate config) s m s' ↔
      ∃ n methods, s.input = 0x05 :: n :: (methods ++ s'.input) ∧ methods.length = n.toNat ∧
        s'.output = s.output ++ [0x05, m] ∧
        ((m = 0x02 ∧ 0x02 ∈ methods) ∨ (m = 0x00 ∧ 0x02 ∉ methods ∧ 0x00 ∈ methods)) := by
  simp only [negotiate, yields_bind, readByte, readBytes, yields_readU8]
  constructor
  · rintro ⟨ver, s₁, ⟨hver, hout₁⟩, h⟩
    split at h
    · exact absurd h not_yields_bail
    · rename_i hfive
      obtain rfl : ver = 0x05 := by simpa using hfive
      simp only [yields_bind, yields_readU8, yields_readExact] at h
      obtain ⟨n, s₂, ⟨hn, hout₂⟩, methods, s₃, ⟨hmethods, hlen, hout₃⟩, h⟩ := h
      -- both ways to succeed have read the same bytes and written nothing yet
      have hin : s.input = 0x05 :: n :: (methods ++ s₃.input) := by rw [hver, hn, hmethods]
      have hout : s₃.output = s.output := by rw [hout₃, hout₂, hout₁]
      split at h
      · rename_i h2
        simp only [yields_bind, yields_writeAll, yields_pure] at h
        obtain ⟨-, s₄, rfl, rfl, rfl⟩ := h
        exact ⟨n, methods, hin, hlen, by simp [hout], .inl ⟨rfl, h2.2⟩⟩
      · rename_i h2
        split at h
        · rename_i h0
          simp only [yields_bind, yields_writeAll, yields_pure] at h
          obtain ⟨-, s₄, rfl, rfl, rfl⟩ := h
          exact ⟨n, methods, hin, hlen, by simp [hout],
            .inr ⟨rfl, fun hmem => h2 ⟨huser, hmem⟩, h0⟩⟩
        · simp at h
  · rintro ⟨n, methods, hin, hlen, hout, hm⟩
    refine ⟨0x05, ⟨n :: (methods ++ s'.input), s.output⟩, ⟨hin, rfl⟩, ?_⟩
    rw [if_neg (by simp)]
    simp only [yields_bind, yields_readU8, yields_readExact]
    refine ⟨n, ⟨methods ++ s'.input, s.output⟩, ⟨rfl, rfl⟩, methods, ⟨s'.input, s.output⟩,
      ⟨rfl, hlen, rfl⟩, ?_⟩
    rcases hm with ⟨rfl, h2⟩ | ⟨rfl, h2, h0⟩
    · rw [if_pos ⟨huser, h2⟩]
      simp only [yields_bind, yields_writeAll, yields_pure]
      exact ⟨(), _, rfl, trivial, by rw [← hout]⟩
    · rw [if_neg (fun h => h2 h.2), if_pos h0]
      simp only [yields_bind, yields_writeAll, yields_pure]
      exact ⟨(), _, rfl, trivial, by rw [← hout]⟩

/-- The credentials a client sends are taken for the configured ones. -/
def CredentialsAccepted (config : MixedInboundConfig) (uname passwd : Bytes) : Prop :=
  config.username = some (utf8OrEmpty uname) ∧ config.password = some (utf8OrEmpty passwd)

/-- The bytes of an authentication message, with a name and a password of any bytes and lengths. -/
def authMessage (ver ulen : UInt8) (uname : Bytes) (plen : UInt8) (passwd rest : Bytes) : Bytes :=
  ver :: ulen :: (uname ++ plen :: (passwd ++ rest))

theorem yields_authenticate {s s' : Conn} {u : Unit} :
    Yields (authenticate config) s u s' ↔
      ∃ ver ulen uname plen passwd, s.input = authMessage ver ulen uname plen passwd s'.input ∧
        uname.length = ulen.toNat ∧ passwd.length = plen.toNat ∧
        CredentialsAccepted config uname passwd ∧ s'.output = s.output ++ [0x01, 0x00] := by
  simp only [authenticate, yields_bind, readByte, readBytes, yields_readU8, yields_readExact,
    authMessage]
  constructor
  · rintro ⟨ver, s₁, ⟨h₁, o₁⟩, ulen, s₂, ⟨h₂, o₂⟩, uname, s₃, ⟨h₃, hulen, o₃⟩, plen, s₄, ⟨h₄, o₄⟩,
      passwd, s₅, ⟨h₅, hplen, o₅⟩, h⟩
    have hout : s₅.output = s.output := by rw [o₅, o₄, o₃, o₂, o₁]
    split at h
    · rename_i hcred
      rw [yields_writeAll] at h
      subst h
      exact ⟨ver, ulen, uname, plen, passwd, by rw [h₁, h₂, h₃, h₄, h₅], hulen, hplen, hcred,
        by simp [hout]⟩
    · simp at h
  · rintro ⟨ver, ulen, uname, plen, passwd, hin, hulen, hplen, hcred, hout⟩
    refine ⟨ver, ⟨_, s.output⟩, ⟨hin, rfl⟩, ulen, ⟨_, s.output⟩, ⟨rfl, rfl⟩, uname, ⟨_, s.output⟩,
      ⟨rfl, hulen, rfl⟩, plen, ⟨_, s.output⟩, ⟨rfl, rfl⟩, passwd, ⟨s'.input, s.output⟩,
      ⟨rfl, hplen, rfl⟩, ?_⟩
    rw [if_pos ⟨hcred.1, hcred.2⟩, yields_writeAll, ← hout]

/-- The bytes of a method negotiation, and what is behind them. -/
def negotiation (n : UInt8) (methods rest : Bytes) : Bytes := 0x05 :: n :: (methods ++ rest)

/-- A SOCKS5 client that does not offer username and password but no authentication, and then makes
    a well-formed request. -/
def NoAuthRequest (config : MixedInboundConfig) (bindUdp : Option SocketAddr) (stream : Bytes) :
    Prop :=
  ∃ n methods rest, stream = negotiation n methods rest ∧ methods.length = n.toNat ∧
    0x02 ∉ methods ∧ 0x00 ∈ methods ∧ RequestAccepted config bindUdp rest

/-- A SOCKS5 client that offers username and password, sends `uname` and `passwd`, which are
    accepted, and then makes a well-formed request. -/
def AuthRequest (config : MixedInboundConfig) (bindUdp : Option SocketAddr) (uname passwd : Bytes)
    (stream : Bytes) : Prop :=
  ∃ n methods ver ulen plen rest,
    stream = negotiation n methods (authMessage ver ulen uname plen passwd rest) ∧
    methods.length = n.toNat ∧ 0x02 ∈ methods ∧ uname.length = ulen.toNat ∧
    passwd.length = plen.toNat ∧ CredentialsAccepted config uname passwd ∧
    RequestAccepted config bindUdp rest

/-- **SOCKS5**: the streams that are served when a username is configured. -/
theorem exists_yields_handleSocks5 (huser : config.username.isSome = true) {s : Conn} :
    (∃ h s', Yields (handleSocks5 config peer bindUdp) s h s') ↔
      NoAuthRequest config bindUdp s.input ∨
        ∃ uname passwd, AuthRequest config bindUdp uname passwd s.input := by
  simp only [handleSocks5, yields_bind, yields_negotiate huser]
  constructor
  · rintro ⟨h, s', m, s₁, ⟨n, methods, hin, hlen, -, ⟨rfl, h2⟩ | ⟨rfl, h2, h0⟩⟩, hserve⟩
    · -- method 0x02: the authentication message stands between negotiation and request
      rw [if_pos rfl, yields_bind] at hserve
      obtain ⟨u, s₂, hauth, hserve⟩ := hserve
      obtain ⟨ver, ulen, uname, plen, passwd, hmsg, hulen, hplen, hcred, -⟩ :=
        yields_authenticate.mp hauth
      refine .inr ⟨uname, passwd, n, methods, ver, ulen, plen, s₂.input, ?_, hlen, h2, hulen, hplen,
        hcred, exists_yields_socks5Request.mp ⟨h, s', hserve⟩⟩
      rw [hin, hmsg, negotiation]
    · -- method 0x00: the request follows at once
      rw [if_neg (by decide)] at hserve
      exact .inl ⟨n, methods, s₁.input, hin, hlen, h2, h0,
        exists_yields_socks5Request.mp ⟨h, s', hserve⟩⟩
  · rintro (⟨n, methods, rest, hin, hlen, h2, h0, hreq⟩ |
      ⟨uname, passwd, n, methods, ver, ulen, plen, rest, hin, hlen, h2, hulen, hplen, hcred, hreq⟩)
    · obtain ⟨h, s', hserve⟩ : ∃ h s', Yields (socks5Request config peer bindUdp)
          ⟨rest, s.output ++ [0x05, 0x00]⟩ h s' :=
        exists_yields_socks5Request.mpr hreq
      refine ⟨h, s', 0x00, ⟨rest, s.output ++ [0x05, 0x00]⟩,
        ⟨n, methods, hin, hlen, rfl, .inr ⟨rfl, h2, h0⟩⟩, ?_⟩
      rw [if_neg (by decide)]
      exact hserve
    · obtain ⟨h, s', hserve⟩ : ∃ h s', Yields (socks5Request config peer bindUdp)
          ⟨rest, s.output ++ [0x05, 0x02] ++ [0x01, 0x00]⟩ h s' :=
        exists_yields_socks5Request.mpr hreq
      refine ⟨h, s', 0x02, ⟨authMessage ver ulen uname plen passwd rest, s.output ++ [0x05, 0x02]⟩,
        ⟨n, methods, hin, hlen, rfl, .inl ⟨rfl, h2⟩⟩, ?_⟩
      rw [if_pos rfl, yields_bind]
      exact ⟨(), _, yields_authenticate.mpr ⟨ver, ulen, uname, plen, passwd, rfl, hulen, hplen, hcred,
        rfl⟩, hserve⟩

theorem yields_readHead {s s' : Conn} {head : Bytes} :
    Yields readHead s head s' ↔
      readHttpHead s.input [] = .ok (head, s'.input) ∧ s'.output = s.output := by
  obtain ⟨input, output⟩ := s
  obtain ⟨input', output'⟩ := s'
  unfold Yields readHead
  rcases hread : readHttpHead input [] with e | ⟨head', rest⟩
  · simp
  · simp only [Prod.mk.injEq, Except.ok.injEq, Conn.mk.injEq]
    tauto

/-- An HTTP request that `handle_http` can read and whose target it finds. -/
def HttpRequest (stream : Bytes) (request : Str) : Prop :=
  ∃ head rest target, readHttpHead stream [] = .ok (head, rest) ∧ fromUtf8 head = some request ∧
    parseHttpConnect request = .ok target

/-- **HTTP**: the streams that are served are those with a request of that kind in front. -/
theorem exists_yields_handleHttp {tag : Str} {s : Conn} :
    (∃ h s', Yields (handleHttp tag) s h s') ↔ ∃ request, HttpRequest s.input request := by
  simp only [handleHttp, yields_bind, yields_readHead, yields_ofExcept, yields_writeAll, yields_pure,
    HttpRequest]
  constructor
  · rintro ⟨h, s', head, s₁, ⟨hread, -⟩, request, s₂, ⟨hrequest, -⟩, target, s₃, ⟨htarget, -⟩, -⟩
    refine ⟨request, head, s₁.input, target, hread, ?_, htarget⟩
    rcases hutf : fromUtf8 head with _ | r
    · simp [hutf] at hrequest
    · rw [hutf] at hrequest
      rw [Except.ok.inj hrequest]
  · rintro ⟨request, head, rest, target, hread, hutf, htarget⟩
    exact ⟨_, _, head, ⟨rest, s.output⟩, ⟨hread, rfl⟩, request, _, ⟨by rw [hutf], rfl⟩, target, _,
      ⟨htarget, rfl⟩, (), _, rfl, rfl, rfl⟩

/-! ### Presenting the credentials -/

/-- The characters of Base64. -/
def base64Char (n : Nat) : Char :=
  "ABCDEFGHIJKLMNOPQRSTUVWXYZabcdefghijklmnopqrstuvwxyz0123456789+/".toList.getD n '='

/-- Base64 with padding. -/
def base64 : Bytes → Str
  | a :: b :: c :: rest =>
      let n := beVal [a, b, c]
      base64Char (n / 262144) :: base64Char (n / 4096 % 64) :: base64Char (n / 64 % 64)
        :: base64Char (n % 64) :: base64 rest
  | [a, b] =>
      let n := beVal [a, b, 0]
      [base64Char (n / 262144), base64Char (n / 4096 % 64), base64Char (n / 64 % 64), '=']
  | [a] =>
      let n := beVal [a, 0, 0]
      [base64Char (n / 262144), base64Char (n / 4096 % 64), '=', '=']
  | [] => []

example : base64 (utf8 "user:pass".toList) = "dXNlcjpwYXNz".toList := by decide

/-- A SOCKS5 client presents the credentials: it offers username and password, and the
    authentication message behind the negotiation carries the configured ones. -/
def PresentedSocks5 (config : MixedInboundConfig) (stream : Bytes) : Prop :=
  ∃ n methods ver ulen uname plen passwd rest user pass,
    stream = negotiation n methods (authMessage ver ulen uname plen passwd rest) ∧
    methods.length = n.toNat ∧ 0x02 ∈ methods ∧ uname.length = ulen.toNat ∧
    passwd.length = plen.toNat ∧ config.username = some user ∧ config.password = some pass ∧
    uname = utf8 user ∧ passwd = utf8 pass

/-- A header line that carries the credentials of HTTP proxies. -/
def ProxyAuthorization (user pass line : Str) : Prop :=
  ∃ name value, splitOnce ':' line = some (name, value) ∧
    toAsciiLowercase name = "proxy-authorization".toList ∧
    trim value = "Basic ".toList ++ base64 (utf8 (user ++ ':' :: pass))

/-- An HTTP client presents the credentials in a header of its request. -/
def PresentedHttp (config : MixedInboundConfig) (stream : Bytes) : Prop :=
  stream.headD 0 ∈ httpFirstBytes ∧
    ∃ head rest request line user pass, readHttpHead stream [] = .ok (head, rest) ∧
      fromUtf8 head = some request ∧ line ∈ (lines request).drop 1 ∧
      config.username = some user ∧ config.password = some pass ∧ ProxyAuthorization user pass line

/-- The client presents the configured username and password. -/
def Presented (config : MixedInboundConfig) (stream : Bytes) : Prop :=
  PresentedSocks5 config stream ∨ PresentedHttp config stream

/-- A SOCKS5 client whose username or password is not UTF-8 and so is taken for an empty one. -/
def NonUtf8Request (config : MixedInboundConfig) (bindUdp : Option SocketAddr) (stream : Bytes) :
    Prop :=
  ∃ uname passwd, AuthRequest config bindUdp uname passwd stream ∧
    (fromUtf8 uname = none ∨ fromUtf8 passwd = none)

/-- An HTTP client that makes a well-formed request without the credentials. -/
def OpenHttpRequest (config : MixedInboundConfig) (stream : Bytes) : Prop :=
  stream.headD 0 ∈ httpFirstBytes ∧ (∃ request, HttpRequest stream request) ∧
    ¬ PresentedHttp config stream

/-- A negotiation can be read in one way only. -/
private theorem negotiation_inj {n n' : UInt8} {methods methods' rest rest' : Bytes}
    (hlen : methods.length = n.toNat) (hlen' : methods'.length = n'.toNat)
    (h : negotiation n methods rest = negotiation n' methods' rest') :
    methods = methods' ∧ rest = rest' := by
  obtain ⟨rfl, happ⟩ : n = n' ∧ methods ++ rest = methods' ++ rest' := by
    simpa [negotiation] using h
  exact List.append_inj happ (hlen.trans hlen'.symm)

/-- An authentication message can be read in one way only. -/
private theorem authMessage_inj {ver ver' ulen ulen' plen plen' : UInt8}
    {uname uname' passwd passwd' rest rest' : Bytes}
    (hulen : uname.length = ulen.toNat) (hulen' : uname'.length = ulen'.toNat)
    (hplen : passwd.length = plen.toNat) (hplen' : passwd'.length = plen'.toNat)
    (h : authMessage ver ulen uname plen passwd rest
      = authMessage ver' ulen' uname' plen' passwd' rest') :
    uname = uname' ∧ passwd = passwd' := by
  obtain ⟨-, rfl, happ⟩ : ver = ver' ∧ ulen = ulen' ∧
      uname ++ plen :: (passwd ++ rest) = uname' ++ plen' :: (passwd' ++ rest') := by
    simpa [authMessage] using h
  obtain ⟨rfl, htail⟩ := List.append_inj happ (hulen.trans hulen'.symm)
  obtain ⟨rfl, happ'⟩ : plen = plen' ∧ passwd ++ rest = passwd' ++ rest' := by simpa using htail
  exact ⟨rfl, (List.append_inj happ' (hplen.trans hplen'.symm)).1⟩

private theorem not_presentedHttp_negotiation {n : UInt8} {methods rest : Bytes} :
    ¬ PresentedHttp config (negotiation n methods rest) := by
  rintro ⟨hfirst, -⟩
  exact absurd (show (0x05 : UInt8) ∈ httpFirstBytes from hfirst) (by decide)

theorem not_presented_of_noAuthRequest {stream : Bytes}
    (h : NoAuthRequest config bindUdp stream) : ¬ Presented config stream := by
  obtain ⟨n, methods, rest, rfl, hlen, h2, -, -⟩ := h
  -- the stream has one reading as a negotiation, and in that one 0x02 is not offered
  rintro (⟨n', methods', _, _, _, _, _, _, _, _, heq, hlen', h2', -⟩ | hhttp)
  · obtain ⟨rfl, -⟩ := negotiation_inj hlen hlen' heq
    exact h2 h2'
  · exact not_presentedHttp_negotiation hhttp

theorem not_presented_of_nonUtf8Request {stream : Bytes}
    (h : NonUtf8Request config bindUdp stream) : ¬ Presented config stream := by
  obtain ⟨uname, passwd, ⟨n, methods, ver, ulen, plen, rest, rfl, hlen, -, hulen, hplen, -⟩, hutf⟩ := h
  rintro (⟨n', methods', _, _, uname', _, passwd', _, user, pass, heq, hlen', -, hulen', hplen', -,
    -, hu, hp⟩ | hhttp)
  · obtain ⟨-, hmsg⟩ := negotiation_inj hlen hlen' heq
    obtain ⟨rfl, rfl⟩ := authMessage_inj hulen hulen' hplen hplen' hmsg
    -- what the client would have presented is UTF-8, by `fromUtf8_utf8`
    rcases hutf with hutf | hutf
    · rw [hu, fromUtf8_utf8] at hutf
      cases hutf
    · rw [hp, fromUtf8_utf8] at hutf
      cases hutf
  · exact not_presentedHttp_negotiation hhttp

/-- Accepted credentials in UTF-8 are the configured ones. -/
theorem AuthRequest.presented {uname passwd stream : Bytes}
    (h : AuthRequest config bindUdp uname passwd stream) (hu : fromUtf8 uname ≠ none)
    (hp : fromUtf8 passwd ≠ none) : PresentedSocks5 config stream := by
  obtain ⟨n, methods, ver, ulen, plen, rest, hin, hlen, h2, hulen, hplen, ⟨hcu, hcp⟩, -⟩ := h
  obtain ⟨user, huser⟩ := Option.ne_none_iff_exists'.mp hu
  obtain ⟨pass, hpass⟩ := Option.ne_none_iff_exists'.mp hp
  refine ⟨n, methods, ver, ulen, uname, plen, passwd, rest, user, pass, hin, hlen, h2, hulen, hplen,
    ?_, ?_, ?_, ?_⟩
  · rw [hcu, utf8OrEmpty, huser]
    rfl
  · rw [hcp, utf8OrEmpty, hpass]
    rfl
  · exact ((fromUtf8_eq_some_iff _ _).mp huser).symm
  · exact ((fromUtf8_eq_some_iff _ _).mp hpass).symm

theorem exists_yields_handleConn (huser : config.username.isSome = true) {s : Conn} :
    (∃ h s', Yields (handleConn config peer bindUdp) s h s') ↔
      NoAuthRequest config bindUdp s.input ∨
      (∃ uname passwd, AuthRequest config bindUdp uname passwd s.input) ∨
      (s.input.headD 0 ∈ httpFirstBytes ∧ ∃ request, HttpRequest s.input request) := by
  -- the first byte tells the three branches of `handle_conn` apart
  have hfive : ∀ {n methods rest}, s.input = negotiation n methods rest → s.input.headD 0 = 0x05 := by
    rintro n methods rest hin
    rw [hin]
    rfl
  by_cases h5 : s.input.headD 0 = 0x05
  · have hconn : ∀ h s', Yields (handleConn config peer bindUdp) s h s' ↔
        Yields (handleSocks5 config peer bindUdp) s h s' := by
      intro h s'
      simp only [Yields, handleConn, if_pos h5]
    have hno : (0x05 : UInt8) ∉ httpFirstBytes := by decide
    simp only [hconn, exists_yields_handleSocks5 huser, h5, hno, false_and, or_false]
  · have hno : ¬ NoAuthRequest config bindUdp s.input := by
      rintro ⟨n, methods, rest, hin, -⟩
      exact h5 (hfive hin)
    have hauth : ¬ ∃ uname passwd, AuthRequest config bindUdp uname passwd s.input := by
      rintro ⟨uname, passwd, n, methods, ver, ulen, plen, rest, hin, -⟩
      exact h5 (hfive hin)
    by_cases hhttp : s.input.headD 0 ∈ httpFirstBytes
    · have hconn : ∀ h s', Yields (handleConn config peer bindUdp) s h s' ↔
          Yields (handleHttp config.tag) s h s' := by
        intro h s'
        simp only [Yields, handleConn, if_neg h5, if_pos hhttp]
      simp only [hconn, exists_yields_handleHttp, hno, hauth, hhttp, true_and, false_or]
    · have hconn : ∀ h s', ¬ Yields (handleConn config peer bindUdp) s h s' := by
        intro h s'
        simp only [Yields, handleConn, if_neg h5, if_neg hhttp]
        exact not_yields_bail
      simp only [hconn, hno, hauth, hhttp, exists_false, false_and, or_false]

end Served

/-- **Only with the credentials.** With a username configured, a byte stream reaches the dispatcher
    or opens a UDP association only after presenting the credentials, exactly when it is none of
    the three kinds: a SOCKS5 request that offers no authentication instead of username and
    password, a SOCKS5 request whose credentials are not UTF-8 and taken for configured empty
    ones, an HTTP request without the credentials. -/
theorem handed_only_presented_iff (config : MixedInboundConfig) (peer : SocketAddr)
    (bindUdp : Option SocketAddr) (stream : Bytes) (huser : config.username.isSome = true) :
    ((∃ h s', Yields (handleConn config peer bindUdp) ⟨stream, []⟩ h s') →
        Presented config stream) ↔
      ¬ NoAuthRequest config bindUdp stream ∧ ¬ NonUtf8Request config bindUdp stream ∧
        ¬ OpenHttpRequest config stream := by
  rw [exists_yields_handleConn huser]
  constructor
  · intro h
    refine ⟨fun hno => ?_, fun hutf => ?_, fun hopen => ?_⟩
    · exact not_presented_of_noAuthRequest hno (h (.inl hno))
    · have hauth : ∃ uname passwd, AuthRequest config bindUdp uname passwd stream := by
        obtain ⟨uname, passwd, hauth, -⟩ := hutf
        exact ⟨uname, passwd, hauth⟩
      exact not_presented_of_nonUtf8Request hutf (h (.inr (.inl hauth)))
    · obtain ⟨hfirst, hrequest, hnot⟩ := hopen
      -- an HTTP stream cannot present over SOCKS5: its first byte is not 0x05
      rcases h (.inr (.inr ⟨hfirst, hrequest⟩)) with ⟨_, _, _, _, _, _, _, _, _, _, rfl, -⟩ | hhttp
      · exact absurd (show (0x05 : UInt8) ∈ httpFirstBytes from hfirst) (by decide)
      · exact hnot hhttp
  · rintro ⟨hno, hutf, hopen⟩ (h | ⟨uname, passwd, hauth⟩ | ⟨hfirst, hrequest⟩)
    · exact absurd h hno
    · refine .inl (hauth.presented (fun hu => ?_) fun hp => ?_)
      · exact hutf ⟨uname, passwd, hauth, .inl hu⟩
      · exact hutf ⟨uname, passwd, hauth, .inr hp⟩
    · refine .inr ?_
      by_contra hnot
      exact hopen ⟨hfirst, hrequest, hnot⟩

/-- A configuration with username `user` and password `pass`. -/
def userPass : MixedInboundConfig :=
  { tag := [], network := .tcp, username := some "user".toList, password := some "pass".toList }

/-- A client at `127.0.0.1`. -/
def localPeer : SocketAddr := ⟨.v4 0x7F000001, 50000⟩

/-- A `CONNECT` request for `1.2.3.4:80`. -/
def connectRequest : Bytes := [0x05, 0x01, 0x00, 0x01, 1, 2, 3, 4, 0, 80]

/-- A client that authenticates is served, and is of none of the three kinds. -/
theorem handed_only_presented_iff_userPass :
    (∃ h s', Yields (handleConn userPass localPeer none)
      ⟨negotiation 1 [0x02] (authMessage 1 4 (utf8 "user".toList) 4 (utf8 "pass".toList)
        connectRequest), []⟩ h s') ∧
    (((∃ h s', Yields (handleConn userPass localPeer none)
          ⟨negotiation 1 [0x02] (authMessage 1 4 (utf8 "user".toList) 4 (utf8 "pass".toList)
            connectRequest), []⟩ h s') →
        Presented userPass (negotiation 1 [0x02] (authMessage 1 4 (utf8 "user".toList) 4
          (utf8 "pass".toList) connectRequest))) ↔
      ¬ NoAuthRequest userPass none (negotiation 1 [0x02] (authMessage 1 4 (utf8 "user".toList) 4
          (utf8 "pass".toList) connectRequest)) ∧
        ¬ NonUtf8Request userPass none (negotiation 1 [0x02] (authMessage 1 4 (utf8 "user".toList)
          4 (utf8 "pass".toList) connectRequest)) ∧
        ¬ OpenHttpRequest userPass (negotiation 1 [0x02] (authMessage 1 4 (utf8 "user".toList) 4
          (utf8 "pass".toList) connectRequest))) := by
  refine ⟨?_, handed_only_presented_iff userPass localPeer none _ rfl⟩
  refine (exists_yields_handleConn (by rfl)).mpr (.inr (.inl ⟨_, _, 1, [0x02], 1, 4, 4,
    connectRequest, rfl, rfl, by decide, by decide, by decide, ?_, ?_⟩))
  · exact ⟨by decide, by decide⟩
  · exact ⟨0x05, 0x01, 0x00, 0x01, _, rfl, .inl ⟨rfl, by decide⟩, .inl rfl⟩

/-- **Without the credentials.** A client that offers only "no authentication" has its connection
    handed to the dispatcher. -/
theorem not_handed_only_presented :
    (∃ s', Yields (handleConn userPass localPeer none) ⟨[0x05, 0x01, 0x00] ++ connectRequest, []⟩
      (.dispatcher { target := .socket ⟨.v4 0x01020304, 80⟩, inboundTag := [] }) s') ∧
    ¬ Presented userPass ([0x05, 0x01, 0x00] ++ connectRequest) := by
  refine ⟨⟨⟨[], [0x05, 0x00] ++ [0x05, 0x00, 0x00, 0x01, 127, 0, 0, 1, 0xC3, 0x50]⟩, ?_⟩, ?_⟩
  · rfl
  · have hrequest : NoAuthRequest userPass none ([0x05, 0x01, 0x00] ++ connectRequest) := by
      refine ⟨1, [0x00], connectRequest, rfl, rfl, by decide, by decide, ?_⟩
      exact ⟨0x05, 0x01, 0x00, 0x01, _, rfl, .inl ⟨rfl, by decide⟩, .inl rfl⟩
    exact not_presented_of_noAuthRequest hrequest

end Reflex.Inbound
