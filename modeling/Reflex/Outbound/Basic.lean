import Reflex.Inbound.Types

namespace Reflex.Outbound

open RustStd

/-!
# Outbounds — leaves, groups and the registry

What `outbound/mod.rs`, `outbound/group.rs` and the outbounds themselves have in common: the
configured outbounds, the groups that pass a connection on to one of their members, and the registry
the members are looked up in.

Of a leaf only what decides about its network connections is kept: which server it dials, from which
address and with which mark.
-/

/-! ### Leaves -/

/-- The proxy protocols. -/
inductive Protocol where
  | socks5 | socks4 | shadowsocks | trojan | vless | vmess | hysteria2 | tuic
  deriving DecidableEq, Repr

/-- `DirectOutbound`; `hasResolver` says whether it was built with the DNS resolver. -/
structure DirectOutbound where
  bindAddress : Option Str
  hasResolver : Bool
  routingMark : UInt32
  deriving DecidableEq, Repr

/-- A proxy outbound; the UUID is that of VLESS. -/
structure ProxyOutbound where
  protocol : Protocol
  server : Str
  serverPort : UInt16
  routingMark : UInt32
  uuid : Str := []
  deriving DecidableEq, Repr

/-- `char::is_ascii_hexdigit`. -/
def isAsciiHexdigit (c : Char) : Bool := (toDigit 16 c).isSome

/-- `VlessOutbound::parse_uuid` succeeds; it is called before the server is dialled.  The others are
    ready when they are built. -/
def ProxyOutbound.ready (o : ProxyOutbound) : Bool :=
  o.protocol ≠ .vless || (o.uuid.filter isAsciiHexdigit).length = 32

/-- An outbound that is no group. -/
inductive Leaf where
  | direct (o : DirectOutbound)
  | block
  | proxy (o : ProxyOutbound)
  deriving DecidableEq, Repr

/-! ### Groups -/

/-- `SelectorOutbound`: the configured members, all members and the selected one. -/
structure SelectorOutbound where
  tag : Str
  outbounds : List Str
  allTags : List Str
  selected : Str
  deriving DecidableEq, Repr

/-- `UrlTestOutbound`; nothing is selected before the first probe has finished. -/
structure UrlTestOutbound where
  tag : Str
  outbounds : List Str
  allTags : List Str
  selected : Option Str
  deriving DecidableEq, Repr

/-- `SelectorOutbound::current_tag`. -/
def SelectorOutbound.currentTag (g : SelectorOutbound) : Str :=
  if g.selected ∈ g.allTags then g.selected else g.allTags.head?.getD []

/-- `UrlTestOutbound::current_tag`. -/
def UrlTestOutbound.currentTag (g : UrlTestOutbound) : Str :=
  g.selected.getD (g.allTags.head?.getD [])

/-- An outbound, `Arc<dyn Outbound>`. -/
inductive DynOutbound where
  | leaf (l : Leaf)
  | selector (g : SelectorOutbound)
  | urlTest (g : UrlTestOutbound)
  deriving DecidableEq, Repr

/-- `OutboundRegistry`. -/
abbrev Registry := Str → Option DynOutbound

/-- The member a group passes its connections to; leaves have none. -/
def DynOutbound.currentTag : DynOutbound → Option Str
  | .leaf _ => none
  | .selector g => some g.currentTag
  | .urlTest g => some g.currentTag

/-- The leaf that is selected, through at most `fuel` outbounds. -/
def selectedLeaf (registry : Registry) : Nat → DynOutbound → Option Leaf
  | 0, _ => none
  | fuel + 1, ob =>
      match ob with
      | .leaf l => some l
      | .selector g => (registry g.currentTag).bind (selectedLeaf registry fuel)
      | .urlTest g => (registry g.currentTag).bind (selectedLeaf registry fuel)

/-! ### Names and addresses -/

/-- What the outbounds ask the system and the DNS resolver: the first address `lookup_host` finds for
    a text with a port or for a host and a port, and what the DNS upstreams answer for a domain. -/
structure Net where
  lookupHost : Str → Option SocketAddr
  lookupHostPort : Str → UInt16 → Option SocketAddr
  queryUpstream : Str → Option IpAddr

namespace Net

variable (net : Net)

/-- `DnsResolver::resolve_domain`: the text of an address is not looked up. -/
def resolveDomain (host : Str) : Option IpAddr :=
  match IpAddr.fromStr host with
  | some ip => some ip
  | none => net.queryUpstream host

/-- `resolve_target_with_dns`. -/
def resolveTargetWithDns (hasResolver : Bool) : Target → Option SocketAddr
  | .socket addr => some addr
  | .domain host port =>
      if hasResolver then (net.resolveDomain host).map fun ip => ⟨ip, port⟩
      else net.lookupHostPort host port

end Net

/-! ### Replies to UDP packets -/

/-- `handle_udp`: the address the leaf gives as the source of its replies; none where it sends
    none. -/
def Leaf.replySource (net : Net) (target : Target) : Leaf → Option SocketAddr
  | .direct o => net.resolveTargetWithDns o.hasResolver target
  | .block => none
  | .proxy o =>
      -- SOCKS4 drops UDP packets
      if o.protocol = .socks4 || !o.ready then none else some target.toSocketAddrLossy

/-- `handle_udp` of an outbound: a group passes the packet on. -/
def DynOutbound.replySource (registry : Registry) (net : Net) (fuel : Nat) (target : Target)
    (ob : DynOutbound) : Option SocketAddr :=
  (selectedLeaf registry fuel ob).bind fun l => l.replySource net target

/-- `format!("{host}:{port}")`. -/
def hostPort (host : Str) (port : UInt16) : Str := host ++ ':' :: display port.toNat

end Reflex.Outbound
