import Reflex.Outbound.Basic

namespace Reflex.Outbound

open RustStd

/-!
# Outbounds — the connections behind a TCP stream

A selector cannot hand a stream to its member's `handle_tcp`, which would leave it without a way to
interrupt the relay: it has the member open a tunnel, `connect_tcp`, and relays on its own.  The
trait's `connect_tcp` dials the target itself, and the block and Shadowsocks outbounds do not
override it.

* `connectTcp_selectedLeaf` — a tunnel through a tree of groups is one through the selected leaf;
* `connectTcp_host_iff` — when a leaf's tunnel takes the connection of its `handle_tcp`;
* `selector_opens_iff` — when a selector opens what the selected leaf would.

The relays, timeouts and handshakes are left out, and so are the probes of a url-test group, which
are not made for a stream.
-/

/-! ### Connections -/

/-- How a connection is carried. -/
inductive Transport where
  | tcp | quic
  deriving DecidableEq, Repr

/-- A connection that is opened: the local address it is bound to, if any, its remote address and
    its `SO_MARK`. -/
structure Conn where
  transport : Transport
  bind : Option SocketAddr
  remote : SocketAddr
  mark : UInt32
  deriving DecidableEq, Repr

/-- `DirectOutbound::tcp_connect_addr`. -/
def DirectOutbound.tcpConnectAddr (o : DirectOutbound) (addr : SocketAddr) : Option Conn :=
  match o.bindAddress with
  | some bindIp => do
      let bindAddr ← SocketAddr.fromStr (bindIp ++ ":0".toList)
      return ⟨.tcp, some bindAddr, addr, o.routingMark⟩
  | none => some ⟨.tcp, none, addr, o.routingMark⟩

/-- The local address of a QUIC endpoint: any, of the server's family. -/
def quicBind (addr : SocketAddr) : SocketAddr :=
  match addr.ip with
  | .v4 _ => ⟨.v4 0, 0⟩
  | .v6 _ => ⟨.v6 0, 0⟩

/-- The address of a proxy's server. -/
def ProxyOutbound.serverAddr (net : Net) (o : ProxyOutbound) : Option SocketAddr :=
  net.lookupHost (hostPort o.server o.serverPort)

/-- The connection a proxy makes to its server for a stream.  Hysteria2 and TUIC open the stream on
    the connection they hold if that is healthy; the XHTTP and WebSocket transports dial the server
    like the plain one. -/
def ProxyOutbound.dial (net : Net) (healthy : ProxyOutbound → Bool) (o : ProxyOutbound) :
    Option Conn :=
  match o.protocol with
  | .hysteria2 | .tuic =>
      if healthy o then none
      else (o.serverAddr net).map fun addr => ⟨.quic, some (quicBind addr), addr, o.routingMark⟩
  | _ => (o.serverAddr net).map fun addr => ⟨.tcp, none, addr, o.routingMark⟩

/-! ### Leaves -/

/-- `handle_tcp` of a leaf: the connection it opens for a stream to `target`. -/
def Leaf.handleTcp (net : Net) (healthy : ProxyOutbound → Bool) (target : Target) :
    Leaf → Option Conn
  | .direct o => (net.resolveTargetWithDns o.hasResolver target).bind o.tcpConnectAddr
  | .block => none
  | .proxy o => if o.ready then o.dial net healthy else none

/-- `Outbound::connect_tcp`, the default: the target is dialled. -/
def connectTcpDefault (net : Net) (host : Str) (port : UInt16) : Option Conn :=
  (net.lookupHost (hostPort host port)).map fun addr => ⟨.tcp, none, addr, 0⟩

/-- `connect_tcp` of a leaf. -/
def Leaf.connectTcp (net : Net) (healthy : ProxyOutbound → Bool) (host : Str) (port : UInt16) :
    Leaf → Option Conn
  | .direct o => (net.resolveTargetWithDns o.hasResolver (.domain host port)).bind o.tcpConnectAddr
  | .block => connectTcpDefault net host port
  | .proxy o =>
      -- Shadowsocks does not override the default
      if o.protocol = .shadowsocks then connectTcpDefault net host port
      else if o.ready then o.dial net healthy
      else none

/-! ### Groups -/

namespace DynOutbound

variable (registry : Registry) (net : Net) (healthy : ProxyOutbound → Bool)

/-- `connect_tcp`, through at most `fuel` outbounds. -/
def connectTcp (host : Str) (port : UInt16) : Nat → DynOutbound → Option Conn
  | 0, _ => none
  | fuel + 1, ob =>
      match ob with
      | .leaf l => l.connectTcp net healthy host port
      | .selector g => (registry g.currentTag).bind (connectTcp host port fuel)
      | .urlTest g => (registry g.currentTag).bind (connectTcp host port fuel)

/-- `handle_tcp`: a url-test group passes the stream on, a selector asks for a tunnel. -/
def handleTcp (target : Target) : Nat → DynOutbound → Option Conn
  | 0, _ => none
  | fuel + 1, ob =>
      match ob with
      | .leaf l => l.handleTcp net healthy target
      | .selector g =>
          (registry g.currentTag).bind
            (connectTcp registry net healthy target.host target.port fuel)
      | .urlTest g => (registry g.currentTag).bind (handleTcp target fuel)

/-- `handle_tcp_live`: the default counts bytes and calls `handle_tcp`. -/
def handleTcpLive (target : Target) (fuel : Nat) (ob : DynOutbound) : Option Conn :=
  match fuel, ob with
  | fuel + 1, .selector g =>
      (registry g.currentTag).bind (connectTcp registry net healthy target.host target.port fuel)
  | _, _ => handleTcp registry net healthy target fuel ob

end DynOutbound

theorem DynOutbound.handleTcpLive_eq (registry : Registry) (net : Net)
    (healthy : ProxyOutbound → Bool) (target : Target) (fuel : Nat) (ob : DynOutbound) :
    handleTcpLive registry net healthy target fuel ob
      = handleTcp registry net healthy target fuel ob := by
  unfold handleTcpLive
  split
  · rfl
  · rfl

section

variable {registry : Registry} {net : Net} {healthy : ProxyOutbound → Bool}

/-- **A tunnel through a tree of groups** is one through the leaf that is selected in it. -/
theorem connectTcp_selectedLeaf {host : Str} {port : UInt16} {fuel : Nat} {ob : DynOutbound}
    {l : Leaf} (h : selectedLeaf registry fuel ob = some l) :
    ob.connectTcp registry net healthy host port fuel = l.connectTcp net healthy host port := by
  induction fuel generalizing ob with
  | zero => cases h
  | succ fuel ih =>
      -- a group finds its member in the registry, and the leaf is selected in that
      have hgroup : ∀ tag, (registry tag).bind (selectedLeaf registry fuel) = some l →
          (registry tag).bind (DynOutbound.connectTcp registry net healthy host port fuel)
            = l.connectTcp net healthy host port := by
        intro tag htag
        obtain ⟨child, hchild, hl⟩ := Option.bind_eq_some_iff.mp htag
        rw [hchild, Option.bind_some]
        exact ih hl
      cases ob with
      | leaf l' => cases h; rfl
      | selector g => exact hgroup g.currentTag h
      | urlTest g => exact hgroup g.currentTag h

/-- A selector opens the tunnel of the leaf that is selected. -/
theorem handleTcp_selector {target : Target} {fuel : Nat} {g : SelectorOutbound} {l : Leaf}
    (h : selectedLeaf registry fuel (.selector g) = some l) :
    DynOutbound.handleTcp registry net healthy target fuel (.selector g)
      = l.connectTcp net healthy target.host target.port := by
  cases fuel with
  | zero => cases h
  | succ fuel => exact connectTcp_selectedLeaf h

/-! ### Tunnels of the leaves -/

/-- The text of an address is not looked up: `(&str, u16)` as `ToSocketAddrs`. -/
def Net.ReadsAddresses (net : Net) : Prop :=
  ∀ ip port, net.lookupHostPort (IpAddr.display ip) port = some ⟨ip, port⟩

/-- A target resolves like the domain made of its host. -/
theorem resolveTargetWithDns_host (hnet : net.ReadsAddresses) (hasResolver : Bool)
    (target : Target) :
    net.resolveTargetWithDns hasResolver (.domain target.host target.port)
      = net.resolveTargetWithDns hasResolver target := by
  cases target with
  | domain host port => rfl
  | socket addr =>
      show (if hasResolver then _ else net.lookupHostPort addr.ip.display addr.port) = some addr
      split
      · show (net.resolveDomain addr.ip.display).map _ = _
        rw [Net.resolveDomain, IpAddr.fromStr_display]
        rfl
      · exact hnet addr.ip addr.port

/-- Does dialling the target make no difference for the leaf?  Block needs a target that does not
    resolve, and Shadowsocks one that resolves to what it would dial itself. -/
def Leaf.TunnelHarmless (net : Net) (target : Target) : Leaf → Prop
  | .direct _ => True
  | .block => net.lookupHost (hostPort target.host target.port) = none
  | .proxy o =>
      o.protocol = .shadowsocks →
        net.lookupHost (hostPort target.host target.port) = o.serverAddr net ∧
          (o.routingMark = 0 ∨ o.serverAddr net = none)

theorem connectTcpDefault_eq_none_iff {host : Str} {port : UInt16} :
    connectTcpDefault net host port = none ↔ net.lookupHost (hostPort host port) = none :=
  Option.map_eq_none_iff

/-- Shadowsocks dials its server over TCP. -/
theorem handleTcp_shadowsocks {o : ProxyOutbound} (h : o.protocol = .shadowsocks)
    (target : Target) :
    Leaf.handleTcp net healthy target (.proxy o)
      = (o.serverAddr net).map fun addr => ⟨.tcp, none, addr, o.routingMark⟩ := by
  have hready : o.ready = true := by rw [ProxyOutbound.ready, h]; rfl
  rw [Leaf.handleTcp, if_pos hready, ProxyOutbound.dial, h]

/-- **When a leaf's tunnel** takes the connection of its `handle_tcp`. -/
theorem connectTcp_host_iff (hnet : net.ReadsAddresses) (l : Leaf) (target : Target) :
    l.connectTcp net healthy target.host target.port = l.handleTcp net healthy target ↔
      l.TunnelHarmless net target := by
  cases l with
  | direct o =>
      rw [Leaf.connectTcp, resolveTargetWithDns_host hnet]
      exact ⟨fun _ => trivial, fun _ => rfl⟩
  | block => exact connectTcpDefault_eq_none_iff
  | proxy o =>
      by_cases hss : o.protocol = .shadowsocks
      · rw [handleTcp_shadowsocks hss, Leaf.connectTcp, if_pos hss, connectTcpDefault,
          Leaf.TunnelHarmless]
        -- compare the two lookups: only the address and the mark can differ
        cases net.lookupHost (hostPort target.host target.port) with
        | none => cases o.serverAddr net <;> simp [hss]
        | some addr => cases o.serverAddr net <;> simp [hss, eq_comm]
      · rw [Leaf.connectTcp, if_neg hss]
        exact ⟨fun _ h => absurd h hss, fun _ => rfl⟩

/-! ### Selectors -/

/-- A leaf's streams go where they may: those of a proxy to its server, those of block nowhere. -/
def Leaf.StaysWithin (net : Net) (opened : Option Conn) : Leaf → Prop
  | .direct _ => True
  | .block => opened = none
  | .proxy o => ∀ conn, opened = some conn → o.serverAddr net = some conn.remote

theorem dial_remote {o : ProxyOutbound} {conn : Conn} (h : o.dial net healthy = some conn) :
    o.serverAddr net = some conn.remote := by
  have hmap : ∀ f : SocketAddr → Conn, (∀ addr, (f addr).remote = addr) →
      (o.serverAddr net).map f = some conn → o.serverAddr net = some conn.remote := by
    intro f hf hsome
    obtain ⟨addr, haddr, rfl⟩ := Option.map_eq_some_iff.mp hsome
    rw [haddr, hf]
  unfold ProxyOutbound.dial at h
  split at h
  · split at h
    · cases h
    · exact hmap _ (fun _ => rfl) h
  · split at h
    · cases h
    · exact hmap _ (fun _ => rfl) h
  · exact hmap _ (fun _ => rfl) h

/-- What a leaf opens by itself is within its bounds. -/
theorem handleTcp_staysWithin (l : Leaf) (target : Target) :
    l.StaysWithin net (l.handleTcp net healthy target) := by
  cases l with
  | direct o => trivial
  | block => rfl
  | proxy o =>
      intro conn h
      rw [Leaf.handleTcp] at h
      split at h
      · exact dial_remote h
      · cases h

/-- The selector opens exactly what the selected leaf would, with and without live counters, and no
    connection that is not the leaf's. -/
def SelectorOpens (registry : Registry) (net : Net) (healthy : ProxyOutbound → Bool) (fuel : Nat)
    (g : SelectorOutbound) (l : Leaf) (target : Target) : Prop :=
  DynOutbound.handleTcp registry net healthy target fuel (.selector g)
      = l.handleTcp net healthy target ∧
    DynOutbound.handleTcpLive registry net healthy target fuel (.selector g)
      = l.handleTcp net healthy target ∧
    l.StaysWithin net (DynOutbound.handleTcp registry net healthy target fuel (.selector g))

/-- **A selector** opens what the leaf selected in its tree would open unless that leaf is block, or
    Shadowsocks, and dialling the target makes a difference. -/
theorem selector_opens_iff (hnet : net.ReadsAddresses) {fuel : Nat} {g : SelectorOutbound}
    {l : Leaf} (h : selectedLeaf registry fuel (.selector g) = some l) (target : Target) :
    SelectorOpens registry net healthy fuel g l target ↔ l.TunnelHarmless net target := by
  have hleaf : l.connectTcp net healthy target.host target.port = l.handleTcp net healthy target ↔
      l.TunnelHarmless net target := connectTcp_host_iff hnet l target
  rw [SelectorOpens, DynOutbound.handleTcpLive_eq, handleTcp_selector h, ← hleaf]
  constructor
  · rintro ⟨heq, -, -⟩
    exact heq
  · intro heq
    refine ⟨heq, heq, ?_⟩
    rw [heq]
    exact handleTcp_staysWithin l target

end

/-! ### Two selectors -/

/-- A system that knows no names: texts are addresses or are not found. -/
def literalNet : Net where
  lookupHost := SocketAddr.fromStr
  lookupHostPort host port := (IpAddr.fromStr host).map fun ip => ⟨ip, port⟩
  queryUpstream _ := none

theorem literalNet_readsAddresses : literalNet.ReadsAddresses := by
  intro ip port
  show (IpAddr.fromStr ip.display).map _ = _
  rw [IpAddr.fromStr_display]
  rfl

/-- A selector with the one member `member`. -/
def soleSelector (member : Str) : SelectorOutbound :=
  { tag := "proxy".toList, outbounds := [member], allTags := [member], selected := member }

/-- A Trojan server behind a url-test group, a Shadowsocks server and block. -/
def exampleRegistry : Registry := fun tag =>
  if tag = "auto".toList then
    some (.urlTest { tag, outbounds := ["trojan".toList], allTags := ["trojan".toList],
                     selected := none })
  else if tag = "trojan".toList then
    some (.leaf (.proxy ⟨.trojan, "198.51.100.7".toList, 443, 0, []⟩))
  else if tag = "ss".toList then
    some (.leaf (.proxy ⟨.shadowsocks, "198.51.100.8".toList, 8388, 0, []⟩))
  else if tag = "block".toList then some (.leaf .block)
  else none

/-- `203.0.113.5:80`. -/
def exampleTarget : Target := .socket ⟨.v4 0xcb007105#32, 80⟩

theorem selector_opens_trojan :
    selectedLeaf exampleRegistry 3 (.selector (soleSelector "auto".toList))
        = some (.proxy ⟨.trojan, "198.51.100.7".toList, 443, 0, []⟩) ∧
      SelectorOpens exampleRegistry literalNet (fun _ => false) 3 (soleSelector "auto".toList)
        (.proxy ⟨.trojan, "198.51.100.7".toList, 443, 0, []⟩) exampleTarget := by
  have hleaf : selectedLeaf exampleRegistry 3 (.selector (soleSelector "auto".toList))
      = some (.proxy ⟨.trojan, "198.51.100.7".toList, 443, 0, []⟩) := by decide
  refine ⟨hleaf, (selector_opens_iff literalNet_readsAddresses hleaf exampleTarget).mpr ?_⟩
  intro h
  cases h

/-- With block or the Shadowsocks server selected, the selector dials the target. -/
theorem selector_dials_target :
    (selectedLeaf exampleRegistry 2 (.selector (soleSelector "block".toList)) = some .block ∧
        DynOutbound.handleTcp exampleRegistry literalNet (fun _ => false) exampleTarget 2
            (.selector (soleSelector "block".toList))
          = some ⟨.tcp, none, ⟨.v4 0xcb007105#32, 80⟩, 0⟩ ∧
        ¬ SelectorOpens exampleRegistry literalNet (fun _ => false) 2
            (soleSelector "block".toList) .block exampleTarget) ∧
      (selectedLeaf exampleRegistry 2 (.selector (soleSelector "ss".toList))
          = some (.proxy ⟨.shadowsocks, "198.51.100.8".toList, 8388, 0, []⟩) ∧
        ¬ SelectorOpens exampleRegistry literalNet (fun _ => false) 2 (soleSelector "ss".toList)
            (.proxy ⟨.shadowsocks, "198.51.100.8".toList, 8388, 0, []⟩) exampleTarget) := by
  have hblock : DynOutbound.handleTcp exampleRegistry literalNet (fun _ => false) exampleTarget 2
      (.selector (soleSelector "block".toList)) = some ⟨.tcp, none, ⟨.v4 0xcb007105#32, 80⟩, 0⟩ := by
    decide
  refine ⟨⟨by decide, hblock, ?_⟩, by decide, ?_⟩
  · rintro ⟨hnone, -, -⟩
    rw [hblock] at hnone
    cases hnone
  · rintro ⟨hsame, -, -⟩
    revert hsame
    decide

end Reflex.Outbound
