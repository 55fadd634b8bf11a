import Reflex.Outbound.ClientHeader
import Reflex.RustStd.Slice

namespace Reflex.Tuic

open RustStd Outbound

/-!
# TUIC — what the client writes

The byte formats of `outbound/tuic.rs`.  HMAC-SHA-256, which makes the token, is a parameter.

* `authRequest` — the request that authenticates a connection, with the user and the token;
* `connectRequest` — the request of a TCP stream, in front of its payload;
* `buildUdpDatagram` — a datagram with its session, its packet and its place among the fragments, of which the
  client sends one only;
* `parseUdpDatagramPayload` — what the client reads from a datagram: the payload, whatever session it is of;
* `datagramId_build` — a datagram carries the session ID it is built with.
-/

/-- What the client knows of itself: its UUID and the token made of it. -/
structure Credentials where
  uuid : Vector UInt8 16
  token : Vector UInt8 32

/-- `derive_token`. -/
def deriveToken (hmacSha256 : (key msg : Bytes) → Vector UInt8 32) (uuid : Vector UInt8 16)
    (password : Bytes) : Vector UInt8 32 :=
  hmacSha256 password uuid.toList

/-- `write_target`: the port stands behind a domain, and in front of an address. -/
def writeTarget : Target → Bytes
  | .domain host port => [0x03] ++ putHost host ++ beBytes 2 port.toNat
  | .socket addr =>
      beBytes 2 addr.port.toNat ++
        match addr.ip with
        | .v4 ip => 0x01 :: ip.octets
        | .v6 ip => 0x04 :: ip.octets

/-- What `authenticate` writes to the stream it opens. -/
def authRequest (c : Credentials) : Bytes := [0x02] ++ c.uuid.toList ++ c.token.toList

/-- What `open_tcp_stream` writes. -/
def connectRequest (c : Credentials) (target : Target) : Bytes :=
  [0x00] ++ c.uuid.toList ++ c.token.toList ++ writeTarget target

/-! ### UDP datagrams -/

/-- `build_udp_datagram`. -/
def buildUdpDatagram (c : Credentials) (sessionId packetId : UInt16) (fragId fragCount : UInt8)
    (target : Target) (data : Bytes) : Bytes :=
  [0x01] ++ c.uuid.toList ++ c.token.toList ++ beBytes 2 sessionId.toNat
    ++ beBytes 2 packetId.toNat ++ [fragId, fragCount] ++ beBytes 2 (UInt16.ofNat data.length).toNat
    ++ writeTarget target ++ data

/-- `parse_udp_datagram_payload`: the last bytes, as many as the size says. -/
def parseUdpDatagramPayload (data : Bytes) : Option Bytes :=
  if data.length < 57 then none
  else if data.getD 0 0 ≠ 0x01 then none
  else
    let size := beVal (slice data 55 2)
    if data.length < 57 + size then none else some (data.drop (data.length - size))

/-- The session a datagram says it belongs to. -/
def datagramId (dgram : Bytes) : UInt16 := UInt16.ofNat (beVal (slice dgram 49 2))

/-- **A datagram** carries the ID it is built with. -/
theorem datagramId_build (c : Credentials) (sessionId packetId : UInt16) (fragId fragCount : UInt8)
    (target : Target) (data : Bytes) :
    datagramId (buildUdpDatagram c sessionId packetId fragId fragCount target data) = sessionId := by
  have hlen : ([0x01] ++ c.uuid.toList ++ c.token.toList).length = 49 := by simp
  have hslice : slice (buildUdpDatagram c sessionId packetId fragId fragCount target data) 49 2
      = beBytes 2 sessionId.toNat := by
    rw [slice, buildUdpDatagram]
    simp only [List.append_assoc ([0x01] ++ c.uuid.toList ++ c.token.toList)]
    rw [List.drop_left' hlen]
    exact List.take_left' (length_beBytes 2 _)
  rw [datagramId, hslice, beVal_beBytes_of_lt sessionId.toNat_lt, UInt16.ofNat_toNat]

end Reflex.Tuic
