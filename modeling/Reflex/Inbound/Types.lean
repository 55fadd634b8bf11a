import Reflex.RustStd.NetDisplay

namespace Reflex

open RustStd

/-!
# Inbounds — what they hand to the dispatcher

The shared types of `inbound/mod.rs`, without the channels and streams themselves: of a TCP stream only the bytes
read ahead by sniffing are kept.

* `Target` — where a connection or a packet goes: an address, or a host name with a port;
* `Target.host`, `Target.display` — what rules match, and what is printed; an IPv6 address is in brackets only in
  the latter;
* `Target.toSocketAddrLossy` — the address of a target, or the unspecified one for a name;
* `InboundTcpStream`, `InboundUdpPacket` — what an inbound hands over, with its tag and the source.
-/

/-- `Target`. -/
inductive Target where
  | domain (host : Str) (port : UInt16)
  | socket (addr : SocketAddr)
  deriving DecidableEq, Repr

/-- `Target::port`. -/
def Target.port : Target → UInt16
  | .domain _ p => p
  | .socket a => a.port

/-- `Target::host`. -/
def Target.host : Target → Str
  | .domain d _ => d
  | .socket a => a.ip.display

/-- `Target::to_socket_addr_lossy`. -/
def Target.toSocketAddrLossy : Target → SocketAddr
  | .socket a => a
  | .domain _ p => ⟨.v4 0, p⟩

/-- `Target`'s `Display`. -/
def Target.display : Target → Str
  | .domain d p => d ++ ':' :: RustStd.display p.toNat
  | .socket a => a.display

/-- `InboundTcpStream`; `peeked` is `stream.prefix`. -/
structure InboundTcpStream where
  target : Target
  inboundTag : Str
  peeked : Bytes := []
  sniffedProtocol : Option Str := none
  sniffedDomain : Option Str := none
  deriving DecidableEq, Repr

/-- `InboundUdpPacket`. -/
structure InboundUdpPacket where
  data : Bytes
  src : SocketAddr
  target : Target
  inboundTag : Str
  sniffedProtocol : Option Str := none
  sniffedDomain : Option Str := none
  deriving DecidableEq, Repr

end Reflex
