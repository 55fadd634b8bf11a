import Reflex.Inbound.Mixed
import Reflex.Inbound.TunUdp

namespace Reflex.Inbound

open RustStd Transition Outbound

/-!
# Inbounds — UDP associations of SOCKS5

`handle_socks5_udp_associate` of `inbound/mixed.rs`: a datagram of a client names its target in a
header, and all packets of the association are handed to the dispatcher with one reply channel.
What comes back gets a header too.

A reply is the payload, the client's address and the address it is to come from; both the header and
the destination of the datagram are made of the second.

* `parseSocks5Udp_wrap` — the header that is written is the one that is read;
* `replies_name_remote_iff` — when the replies of an association name the remotes they come from.
-/

/-! ### The header -/

/-- `ATYP_IPV4`. -/
def atypIpv4 : UInt8 := 0x01

/-- `ATYP_DOMAIN`. -/
def atypDomain : UInt8 := 0x03

/-- `ATYP_IPV6`. -/
def atypIpv6 : UInt8 := 0x04

/-- `parse_socks5_udp`. -/
def parseSocks5Udp (buf : Bytes) : Except ConnError (Bytes × Target) :=
  if buf.length < 4 then .error (.message "udp packet too short".toList)
  else if byteAt buf 2 ≠ 0 then .error (.message "fragmented UDP not supported".toList)
  else
    let atyp := byteAt buf 3
    if atyp = atypIpv4 then
      if buf.length < 10 then .error (.message "truncated ipv4".toList)
      else
        .ok (buf.drop 10, .socket ⟨.v4 (Ipv4Addr.ofOctets (slice buf 4 4)), portAt buf 8⟩)
    else if atyp = atypIpv6 then
      if buf.length < 22 then .error (.message "truncated ipv6".toList)
      else
        .ok (buf.drop 22, .socket ⟨.v6 (Ipv6Addr.ofOctets (slice buf 4 16)), portAt buf 20⟩)
    else if atyp = atypDomain then
      if buf.length ≤ 4 then .error (.message "truncated domain len".toList)
      else
        let dlen := (byteAt buf 4).toNat
        if buf.length < 5 + dlen + 2 then .error (.message "truncated domain".toList)
        else
          match fromUtf8 (slice buf 5 dlen) with
          | none => .error .invalidUtf8
          | some domain => .ok (buf.drop (5 + dlen + 2), .domain domain (portAt buf (5 + dlen)))
    else .error (.message ("unknown atyp 0x".toList ++ hex02 atyp))

/-- `wrap_socks5_udp`. -/
def wrapSocks5Udp (data : Bytes) (dst : SocketAddr) : Bytes :=
  [0x00, 0x00, 0x00]
    ++ (match dst.ip with
      | .v4 a => atypIpv4 :: (a.octets ++ portBytes dst.port)
      | .v6 a => atypIpv6 :: (a.octets ++ portBytes dst.port))
    ++ data

/-- A header with an IPv4 address. -/
private theorem parseSocks5Udp_ipv4 (a : Ipv4Addr) (port : UInt16) (data : Bytes) :
    parseSocks5Udp ([0x00, 0x00, 0x00, atypIpv4] ++ (a.octets ++ (portBytes port ++ data)))
      = .ok (data, .socket ⟨.v4 a, port⟩) := by
  set buf := [0x00, 0x00, 0x00, atypIpv4] ++ (a.octets ++ (portBytes port ++ data)) with hbuf
  have hlen : buf.length = 10 + data.length := by
    simp only [hbuf, List.length_append, Ipv4Addr.length_octets, length_portBytes,
      List.length_cons, List.length_nil]
    omega
  have hip : slice buf 4 4 = a.octets := slice_middle rfl a.length_octets
  have hport : portAt buf 8 = port := by
    rw [hbuf, ← List.append_assoc]
    exact portAt_middle (by simp) port data
  have hdata : buf.drop 10 = data := by
    rw [hbuf, ← List.append_assoc, ← List.append_assoc]
    exact List.drop_left' (by simp)
  have hfrag : byteAt buf 2 = 0 := rfl
  have hatyp : byteAt buf 3 = atypIpv4 := rfl
  simp only [parseSocks5Udp, hatyp]
  rw [if_neg (by omega), if_neg (by simp [hfrag]), if_pos trivial, if_neg (by omega), hip,
    hport, hdata,
    Ipv4Addr.ofOctets_octets]

/-- A header with an IPv6 address. -/
private theorem parseSocks5Udp_ipv6 (a : Ipv6Addr) (port : UInt16) (data : Bytes) :
    parseSocks5Udp ([0x00, 0x00, 0x00, atypIpv6] ++ (a.octets ++ (portBytes port ++ data)))
      = .ok (data, .socket ⟨.v6 a, port⟩) := by
  set buf := [0x00, 0x00, 0x00, atypIpv6] ++ (a.octets ++ (portBytes port ++ data)) with hbuf
  have hlen : buf.length = 22 + data.length := by
    simp only [hbuf, List.length_append, Ipv6Addr.length_octets, length_portBytes,
      List.length_cons, List.length_nil]
    omega
  have hip : slice buf 4 16 = a.octets := slice_middle rfl a.length_octets
  have hport : portAt buf 20 = port := by
    rw [hbuf, ← List.append_assoc]
    exact portAt_middle (by simp) port data
  have hdata : buf.drop 22 = data := by
    rw [hbuf, ← List.append_assoc, ← List.append_assoc]
    exact List.drop_left' (by simp)
  have hfrag : byteAt buf 2 = 0 := rfl
  have hatyp : byteAt buf 3 = atypIpv6 := rfl
  simp only [parseSocks5Udp, hatyp]
  rw [if_neg (by omega), if_neg (by simp [hfrag]), if_neg (by decide), if_pos trivial,
    if_neg (by omega), hip, hport, hdata, Ipv6Addr.ofOctets_octets]

/-- **The header that is written is read back.** -/
theorem parseSocks5Udp_wrap (data : Bytes) (dst : SocketAddr) :
    parseSocks5Udp (wrapSocks5Udp data dst) = .ok (data, .socket dst) := by
  obtain ⟨ip, port⟩ := dst
  rcases ip with a | a
  · rw [wrapSocks5Udp, ← parseSocks5Udp_ipv4 a port data]
    simp only [List.append_assoc, List.cons_append, List.nil_append]
  · rw [wrapSocks5Udp, ← parseSocks5Udp_ipv6 a port data]
    simp only [List.append_assoc, List.cons_append, List.nil_append]

/-! ### Associations -/

/-- A datagram that was sent to a client, and the packet and the payload it answers with. -/
structure Returned where
  packet : InboundUdpPacket
  data : Bytes
  sentTo : SocketAddr
  wrapped : Bytes
  deriving DecidableEq

/-- An association: the packets that were handed to the dispatcher, all with its reply channel, and
    the datagrams that were sent back. -/
structure Association where
  dispatched : List InboundUdpPacket := []
  returned : List Returned := []
  deriving DecidableEq

/-- A datagram comes in, or an outbound answers a packet it was given: it sends the payload, the
    source of the packet and the address the payload comes from. -/
inductive AssociationAction where
  | recv (src : SocketAddr) (buf : Bytes)
  | reply (packet : InboundUdpPacket) (data : Bytes) (spoofedSrc : SocketAddr)
  deriving DecidableEq

namespace Association

/-- The reply task: the header of a reply is its second field, where it is sent to as well. -/
def replyTask (r : App.Reply) : SocketAddr × Bytes := (r.addr, wrapSocks5Udp r.data r.addr)

/-- One step of an association: a datagram of the client is dispatched, or a reply to one goes back. -/
def step (tag : Str) (s : Association) : AssociationAction → Option Association
  | .recv src buf =>
      match parseSocks5Udp buf with
      | .ok (data, target) =>
          some { s with dispatched := s.dispatched ++ [⟨data, src, target, tag, none, none⟩] }
      | .error _ => some s
  | .reply packet data spoofedSrc =>
      if packet ∈ s.dispatched then
        let (sentTo, wrapped) := replyTask ⟨data, packet.src, spoofedSrc⟩
        some { s with returned := s.returned ++ [⟨packet, data, sentTo, wrapped⟩] }
      else none

end Association

/-- `t` is the remote that a client had named as its target, or the address the direct outbound finds
    for it. -/
def IsRemote (net : Net) (hasResolver : Bool) (target t : Target) : Prop :=
  t = target ∨ ∃ addr, net.resolveTargetWithDns hasResolver target = some addr ∧ t = .socket addr

/-- The client gets the payload under a header that names the remote. -/
def Returned.NamesRemote (net : Net) (hasResolver : Bool) (r : Returned) : Prop :=
  r.sentTo = r.packet.src ∧
    ∃ t, parseSocks5Udp r.wrapped = .ok (r.data, t) ∧ IsRemote net hasResolver r.packet.target t

/-- An answer is harmless if the client had sent to its own address. -/
def AssociationAction.SentToItself (net : Net) (hasResolver : Bool) : AssociationAction → Prop
  | .recv .. => True
  | .reply packet _ _ => IsRemote net hasResolver packet.target (.socket packet.src)

/-- What the client gets names its own address. -/
theorem namesRemote_wrap (net : Net) (hasResolver : Bool) (packet : InboundUdpPacket) (data : Bytes) :
    Returned.NamesRemote net hasResolver
        ⟨packet, data, packet.src, wrapSocks5Udp data packet.src⟩
      ↔ IsRemote net hasResolver packet.target (.socket packet.src) := by
  have hwrap := parseSocks5Udp_wrap data packet.src
  constructor
  · rintro ⟨-, t, ht, hremote⟩
    obtain ⟨-, rfl⟩ := Prod.mk.inj (Except.ok.inj (hwrap.symm.trans ht))
    exact hremote
  · exact fun hremote => ⟨rfl, _, hwrap, hremote⟩

/-- One answer: the datagrams that were sent keep naming their remotes just when it is harmless. -/
theorem namesRemote_step {tag : Str} (net : Net) (hasResolver : Bool) {s s' : Association}
    {a : AssociationAction} (h : Association.step tag s a = some s') :
    (∀ r ∈ s'.returned, r.NamesRemote net hasResolver) ↔
      (∀ r ∈ s.returned, r.NamesRemote net hasResolver) ∧ a.SentToItself net hasResolver := by
  cases a with
  | recv src buf =>
      simp only [Association.step] at h
      split at h
      · obtain rfl := Option.some.inj h
        exact ⟨fun hs => ⟨hs, trivial⟩, And.left⟩
      · obtain rfl := Option.some.inj h
        exact ⟨fun hs => ⟨hs, trivial⟩, And.left⟩
  | reply packet data spoofedSrc =>
      obtain ⟨-, h⟩ := Option.ite_none_right_eq_some.mp h
      obtain rfl := Option.some.inj h
      rw [List.forall_mem_append, List.forall_mem_singleton]
      exact and_congr_right' (namesRemote_wrap net hasResolver packet data)

/-- **Replies name the client.** In every run of an association, with any remotes in any order, all
    datagrams that were sent back are read by the inbound's own parser as the payload and the remote
    the client had sent to exactly when every answered packet had been sent by the client to its own
    address. -/
theorem replies_name_remote_iff {tag : Str} {acts : List AssociationAction} {s : Association}
    (hrun : run (Association.step tag) {} acts = some s) (net : Net) (hasResolver : Bool) :
    (∀ r ∈ s.returned, r.NamesRemote net hasResolver) ↔
      ∀ a ∈ acts, a.SentToItself net hasResolver := by
  have hiff := run_iff_forall (P := fun s => ∀ r ∈ s.returned, r.NamesRemote net hasResolver)
    (fun s a s' (h : Association.step tag s a = some s') => namesRemote_step net hasResolver h) hrun
  exact hiff.trans (and_iff_right fun r hr => (nomatch hr))

/-- A client at 127.0.0.1:50000 sends to itself. -/
def selfAddressed : List AssociationAction :=
  [.recv localPeer (wrapSocks5Udp [0xAB] localPeer),
    .reply ⟨[0xAB], localPeer, .socket localPeer, [], none, none⟩ [0xCD] localPeer]

theorem replies_name_remote_iff_selfAddressed :
    ∃ s, run (Association.step []) {} selfAddressed = some s ∧ s.returned ≠ [] ∧
      ∀ net hasResolver, ∀ r ∈ s.returned, r.NamesRemote net hasResolver := by
  have hany : (run (Association.step []) {} selfAddressed).any (fun s => s.returned ≠ []) = true := by
    decide
  obtain ⟨s, hrun, hne⟩ := (Option.any_eq_true _ _).mp hany
  refine ⟨s, hrun, of_decide_eq_true hne, fun net hasResolver => ?_⟩
  refine (replies_name_remote_iff hrun net hasResolver).mpr fun a ha => ?_
  rcases List.mem_pair.mp ha with rfl | rfl
  · trivial
  · exact .inl rfl

/-- The two remotes of the example, 1.2.3.4:53 and 5.6.7.8:53. -/
def firstRemote : SocketAddr := ⟨.v4 0x01020304#32, 53⟩
def secondRemote : SocketAddr := ⟨.v4 0x05060708#32, 53⟩

/-- A client that sends to two remotes, which answer with the same payload. -/
def twoRemotes : List AssociationAction :=
  [.recv localPeer (wrapSocks5Udp [0xAB] firstRemote),
    .recv localPeer (wrapSocks5Udp [0xAB] secondRemote),
    .reply ⟨[0xAB], localPeer, .socket secondRemote, [], none, none⟩ [0xCD] secondRemote,
    .reply ⟨[0xAB], localPeer, .socket firstRemote, [], none, none⟩ [0xCD] firstRemote]

/-- The answers of the two remotes cannot be told apart; both name the client. -/
theorem replies_name_remote_twoRemotes :
    (run (Association.step []) {} twoRemotes).map (·.returned.map fun r => (r.sentTo, r.wrapped))
        = some (List.replicate 2 (localPeer, wrapSocks5Udp [0xCD] localPeer)) ∧
      parseSocks5Udp (wrapSocks5Udp [0xCD] localPeer) = .ok ([0xCD], .socket localPeer) ∧
      ¬ ∀ net hasResolver s, run (Association.step []) {} twoRemotes = some s →
        ∀ r ∈ s.returned, r.NamesRemote net hasResolver := by
  refine ⟨by decide, parseSocks5Udp_wrap [0xCD] localPeer, fun hall => ?_⟩
  have hany : (run (Association.step []) {} twoRemotes).any (fun s =>
      ⟨⟨[0xAB], localPeer, .socket secondRemote, [], none, none⟩, [0xCD], localPeer,
        wrapSocks5Udp [0xCD] localPeer⟩ ∈ s.returned) = true := by decide
  obtain ⟨s, hrun, hmem⟩ := (Option.any_eq_true _ _).mp hany
  have hnames := hall ⟨fun _ => none, fun _ _ => none, fun _ => none⟩ false s hrun _
    (of_decide_eq_true hmem)
  rcases (namesRemote_wrap ..).mp hnames with h | ⟨addr, haddr, h⟩
  · exact absurd h (by decide)
  · obtain rfl := Option.some.inj haddr
    exact absurd h (by decide)

end Reflex.Inbound
