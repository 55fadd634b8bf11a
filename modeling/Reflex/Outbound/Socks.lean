import Reflex.Inbound.ServerHeader
import Reflex.Inbound.Socks5Udp
import Reflex.Lib.Dialogue

namespace Reflex.Socks

open RustStd ByteStream Inbound

/-!
# Outbounds — SOCKS

The client of `outbound/socks.rs`, as a handler that reads from the proxy and writes to it: the handshake of SOCKS5,
the negotiation of a UDP association and the header of its datagrams.

* `negotiateMethod`, `sendCredentials` — the methods that are offered, and the password if the proxy asks for it;
* `socks5Handshake` — the request for a connection, up to the bytes that belong to it;
* `socks5UdpAssociateGetRelay` — the request for an association, and the address that datagrams go to;
* `buildDgram`, `socks5UdpStripHeader` — the header of a datagram, put on and taken off.

The two dialogues have the same phases and different texts of errors, so a phase is one definition that the texts
are handed to (`LoginTexts`).
-/

/-! ### The client -/

/-- `SocksVersion`. -/
inductive SocksVersion where
  | v5 | v4a | v4
  deriving DecidableEq, Repr

/-- `SocksOutboundConfig`, without the tag and the address of the server. -/
structure SocksOutboundConfig where
  version : Option Str
  username : Option Str
  password : Option Str

/-- `SocksOutboundConfig::parsed_version`. -/
def SocksOutboundConfig.parsedVersion (config : SocksOutboundConfig) : Except Str SocksVersion :=
  let version := config.version.getD "5".toList
  if version = "5".toList ∨ version = [] then .ok .v5
  else if version = "4a".toList then .ok .v4a
  else if version = "4".toList then .ok .v4
  else .error ("unsupported socks version: '".toList ++ version ++ "', expected 5 / 4a / 4".toList)

/-- `self.config.username.as_deref().unwrap_or("")`, in bytes. -/
def SocksOutboundConfig.user (config : SocksOutboundConfig) : Bytes := utf8 (config.username.getD [])

/-- `self.config.password.as_deref().unwrap_or("")`, in bytes. -/
def SocksOutboundConfig.pass (config : SocksOutboundConfig) : Bytes := utf8 (config.password.getD [])

/-- The texts in which the two copies of the negotiation differ. -/
structure LoginTexts where
  version : Str
  methods : Str
  auth : Str

/-- The texts of `socks5_handshake`. -/
def handshakeTexts : LoginTexts where
  version := "socks5: unexpected server version".toList
  methods := "socks5: server rejected all auth methods".toList
  auth := "socks5: authentication failed".toList

/-- The texts of `socks5_udp_associate_get_relay`. -/
def relayTexts : LoginTexts where
  version := "socks5 udp: unexpected version".toList
  methods := "socks5 udp: no acceptable method".toList
  auth := "socks5 udp: auth failed".toList

/-- The methods that are offered. -/
def greeting (config : SocksOutboundConfig) : Bytes :=
  if config.username.isSome then [0x05, 2, 0x00, 0x02] else [0x05, 1, 0x00]

/-- The answer to the greeting: the method the server chooses. -/
def readMethod (texts : LoginTexts) : Handler ConnError UInt8 := do
  let resp ← readBytes 2
  ensure (byteAt resp 0 == 0x05) texts.version
  ensure (byteAt resp 1 != 0xFF) texts.methods
  return byteAt resp 1

/-- The negotiation of a method. -/
def negotiateMethod (config : SocksOutboundConfig) (texts : LoginTexts) : Handler ConnError UInt8 := do
  writeAll (greeting config)
  readMethod texts

/-- The message with username and password; the lengths are `u8`. -/
def credentials (config : SocksOutboundConfig) : Bytes :=
  [0x01, UInt8.ofNat config.user.length] ++ config.user ++ [UInt8.ofNat config.pass.length] ++ config.pass

/-- The answer to username and password. -/
def readAuthReply (text : Str) : Handler ConnError Unit := do
  let authResp ← readBytes 2
  ensure (byteAt authResp 1 == 0x00) text

/-- The authentication. -/
def sendCredentials (config : SocksOutboundConfig) (text : Str) : Handler ConnError Unit := do
  writeAll (credentials config)
  readAuthReply text

/-- The address of a request, with its type in front. -/
def requestAddr : Target → Except ConnError Bytes
  | .socket ⟨.v4 ip, _⟩ => .ok (0x01 :: ip.octets)
  | .socket ⟨.v6 ip, _⟩ => .ok (0x04 :: ip.octets)
  | .domain host _ =>
      if (utf8 host).length ≤ 255 then .ok (0x03 :: UInt8.ofNat (utf8 host).length :: utf8 host)
      else .error (.message "socks5: domain too long".toList)

/-- The reply to a request; the address in it is skipped. -/
def skipReply : Handler ConnError Unit := do
  let hdr ← readBytes 4
  ensure (byteAt hdr 0 == 0x05) "socks5: bad reply version".toList
  ensure (byteAt hdr 1 == 0x00) ("socks5: server refused, REP=0x".toList ++ hex02 (byteAt hdr 1))
  if byteAt hdr 3 = 0x01 then
    let _skip ← readBytes 6
    return ()
  else if byteAt hdr 3 = 0x04 then
    let _skip ← readBytes 18
    return ()
  else if byteAt hdr 3 = 0x03 then
    let len ← readByte
    let _skip ← readBytes (len.toNat + 2)
    return ()
  else bail (.message ("socks5: unknown BND.ATYP=0x".toList ++ hex02 (byteAt hdr 3)))

/-- The request of `socks5_handshake`. -/
def sendRequest (target : Target) (cmd : UInt8) : Handler ConnError Unit := do
  let addr ← ofExcept (requestAddr target)
  writeAll ([0x05, cmd, 0x00] ++ addr ++ beBytes 2 target.port.toNat)
  skipReply

/-- `socks5_handshake`. -/
def socks5Handshake (config : SocksOutboundConfig) (target : Target) (cmd : UInt8) :
    Handler ConnError Unit := do
  let method ← negotiateMethod config handshakeTexts
  if method = 0x02 then
    ensure (decide (config.user.length ≤ 255 ∧ config.pass.length ≤ 255))
      "socks5: username/password too long".toList
    sendCredentials config handshakeTexts.auth
    sendRequest target cmd
  else sendRequest target cmd

/-- `IpAddr::is_unspecified`. -/
def isUnspecified : IpAddr → Bool
  | .v4 a => a == 0
  | .v6 a => a == 0

/-- The address in the reply to the request for a UDP association. -/
def readBound (atyp : UInt8) : Handler ConnError SocketAddr := do
  if atyp = 0x01 then
    let buf ← readBytes 6
    return ⟨.v4 (Ipv4Addr.ofOctets (slice buf 0 4)), portAt buf 4⟩
  else if atyp = 0x04 then
    let buf ← readBytes 18
    return ⟨.v6 (Ipv6Addr.ofOctets (slice buf 0 16)), portAt buf 16⟩
  else bail (.message ("socks5 udp: unsupported BND.ATYP=0x".toList ++ hex02 atyp))

/-- An unspecified address stands for that of the server, `proxy` as it is resolved again. -/
def replaceUnspecified (proxy : Option SocketAddr) (relay : SocketAddr) : Except ConnError SocketAddr :=
  if isUnspecified relay.ip then
    match proxy with
    | some addr => .ok ⟨addr.ip, relay.port⟩
    | none => .error (.message "socks5 udp: cannot resolve proxy host".toList)
  else .ok relay

/-- The reply to the request for a UDP association: the address of the relay. -/
def readRelay (proxy : Option SocketAddr) : Handler ConnError SocketAddr := do
  let hdr ← readBytes 4
  ensure (byteAt hdr 0 == 0x05) "socks5 udp: bad reply version".toList
  ensure (byteAt hdr 1 == 0x00)
    ("socks5 udp: UDP ASSOCIATE refused, REP=0x".toList ++ hex02 (byteAt hdr 1))
  let relay ← readBound (byteAt hdr 3)
  ofExcept (replaceUnspecified proxy relay)

/-- The request for a UDP association, to 0.0.0.0:0. -/
def askRelay (proxy : Option SocketAddr) : Handler ConnError SocketAddr := do
  writeAll [0x05, 0x03, 0x00, 0x01, 0, 0, 0, 0, 0, 0]
  readRelay proxy

/-- `socks5_udp_associate_get_relay`.  The lengths of username and password are not checked here. -/
def socks5UdpAssociateGetRelay (config : SocksOutboundConfig) (proxy : Option SocketAddr) :
    Handler ConnError SocketAddr := do
  let method ← negotiateMethod config relayTexts
  if method = 0x02 then
    sendCredentials config relayTexts.auth
    askRelay proxy
  else askRelay proxy

/-! ### Datagrams -/

/-- `build_dgram` of `socks5_udp`; the length of a host is a `u8`. -/
def buildDgram (target : Target) (data : Bytes) : Bytes :=
  [0x00, 0x00, 0x00]
    ++ (match target with
      | .socket ⟨.v4 ip, port⟩ => atypIpv4 :: (ip.octets ++ portBytes port)
      | .socket ⟨.v6 ip, port⟩ => atypIpv6 :: (ip.octets ++ portBytes port)
      | .domain host port =>
          atypDomain :: UInt8.ofNat (utf8 host).length :: (utf8 host ++ portBytes port))
    ++ data

/-- `socks5_udp_strip_header`. -/
def socks5UdpStripHeader (buf : Bytes) : Except ConnError Bytes := do
  if buf.length < 4 then .error (.message "socks5 udp: response too short".toList)
  else
    let headerLen ←
      if byteAt buf 3 = atypIpv4 then .ok (4 + 4 + 2)
      else if byteAt buf 3 = atypIpv6 then .ok (4 + 16 + 2)
      else if byteAt buf 3 = atypDomain then
        if buf.length < 5 then .error (.message "socks5 udp: domain header truncated".toList)
        else .ok (4 + 1 + (byteAt buf 4).toNat + 2)
      else .error (.message ("socks5 udp: unknown ATYP=0x".toList ++ hex02 (byteAt buf 3)
        ++ " in response".toList))
    if buf.length < headerLen then .error (.message "socks5 udp: response truncated".toList)
    else .ok (buf.drop headerLen)

end Reflex.Socks
