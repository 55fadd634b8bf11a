import Reflex.App.UdpSessions
import Reflex.Lib.Datagrams
import Reflex.Outbound.SocksDialogue

namespace Reflex.Socks

open RustStd ByteStream Inbound Transition Datagrams

/-!
# Outbounds — UDP through a SOCKS5 server

`socks5_udp` of `outbound/socks.rs` with `handle_socks5_udp_associate` of `inbound/mixed.rs` on the other
side: the address of the relay is negotiated over TCP, and datagrams go there and come back under a header.

* `parseSocks5Udp_buildDgram_iff` — the header that the client writes is read back exactly if the host has at
  most 255 bytes;
* `relay_negotiated` — where the client sends its datagrams after both of its handshakes;
* `session_conserves` — what a session carries in every run, with any loss and any order of delivery.
-/

/-! ### The header -/

/-- What is written in front of a host that fits. -/
theorem parseSocks5Udp_buildDgram {target : Target} (h : Fits target) (data : Bytes) :
    parseSocks5Udp (buildDgram target data) = .ok (data, target) := by
  obtain ⟨host, port⟩ | addr := target
  · have hlen := length_eq_toNat h
    have hutf := fromUtf8_utf8 host
    have hbuf : buildDgram (.domain host port) data = ([0x00, 0x00, 0x00, atypDomain] ++
        [UInt8.ofNat (utf8 host).length]) ++ (utf8 host ++ (portBytes port ++ data)) := by
      simp [buildDgram]
    set name := utf8 host with hname
    set buf := buildDgram (.domain host port) data
    -- the fields at their positions, up to the payload
    have hatyp : byteAt buf 3 = atypDomain := by
      rw [hbuf]
      rfl
    have hfrag : byteAt buf 2 = 0 := by
      rw [hbuf]
      rfl
    have hdlen : (byteAt buf 4).toNat = name.length := by
      rw [hlen, hbuf]
      rfl
    have hbufLen : buf.length = 5 + name.length + 2 + data.length := by
      rw [hbuf]
      simp only [List.length_append, length_portBytes, List.length_cons, List.length_nil]
      omega
    have hdomain : slice buf 5 name.length = name := by
      rw [hbuf]
      exact slice_middle rfl rfl
    have hport : portAt buf (5 + name.length) = port := by
      rw [hbuf, ← List.append_assoc]
      exact portAt_middle (by simp; omega) port data
    have hdata : buf.drop (5 + name.length + 2) = data := by
      rw [hbuf, ← List.append_assoc, ← List.append_assoc]
      exact List.drop_left' (by simp; omega)
    simp only [parseSocks5Udp, hatyp, hdlen]
    rw [if_neg (by omega), if_neg (by simp [hfrag]), if_neg (by decide), if_neg (by decide), if_pos trivial,
      if_neg (by omega), if_neg (by omega), hdomain, hutf, hport, hdata]
  · -- an address is written as the server does
    have hwrap : buildDgram (.socket addr) data = wrapSocks5Udp data addr := by
      obtain ⟨ip | ip, port⟩ := addr
      · rfl
      · rfl
    rw [hwrap, parseSocks5Udp_wrap]

/-- What the inbound reads: a header with one of the three types of addresses, all of it there. -/
theorem parseSocks5Udp_cases {buf data : Bytes} {target : Target}
    (h : parseSocks5Udp buf = .ok (data, target)) :
    (byteAt buf 3 = atypIpv4 ∧ 10 ≤ buf.length ∧ data = buf.drop 10 ∧ Fits target) ∨
      (byteAt buf 3 = atypIpv6 ∧ 22 ≤ buf.length ∧ data = buf.drop 22 ∧ Fits target) ∨
      (byteAt buf 3 = atypDomain ∧ 5 + (byteAt buf 4).toNat + 2 ≤ buf.length ∧
        data = buf.drop (5 + (byteAt buf 4).toNat + 2) ∧ Fits target) := by
  simp only [parseSocks5Udp] at h
  split_ifs at h with hlen hfrag h4 hlen4 h6 hlen6 hd hlend hdom
  · obtain ⟨rfl, rfl⟩ := Prod.mk.inj (Except.ok.inj h)
    exact .inl ⟨h4, by omega, rfl, trivial⟩
  · obtain ⟨rfl, rfl⟩ := Prod.mk.inj (Except.ok.inj h)
    exact .inr (.inl ⟨h6, by omega, rfl, trivial⟩)
  · cases hutf : fromUtf8 (slice buf 5 (byteAt buf 4).toNat) with
    | none =>
      rw [hutf] at h
      cases h
    | some domain =>
      rw [hutf] at h
      obtain ⟨rfl, rfl⟩ := Prod.mk.inj (Except.ok.inj h)
      refine .inr (.inr ⟨hd, by omega, rfl, ?_⟩)
      -- the host is a slice as long as its length byte says
      show (utf8 domain).length ≤ 255
      have hlt := (byteAt buf 4).toNat_lt
      rw [(fromUtf8_eq_some_iff _ _).mp hutf, length_slice (by omega)]
      omega

/-- Hosts that are read are short. -/
theorem fits_of_parseSocks5Udp {buf data : Bytes} {target : Target}
    (h : parseSocks5Udp buf = .ok (data, target)) : Fits target := by
  rcases parseSocks5Udp_cases h with ⟨-, -, -, hfits⟩ | ⟨-, -, -, hfits⟩ | ⟨-, -, -, hfits⟩
  · exact hfits
  · exact hfits
  · exact hfits

/-- **The header of the client** is read back by the server exactly for a target whose host fits into its length
    byte. -/
theorem parseSocks5Udp_buildDgram_iff (target : Target) (data : Bytes) :
    parseSocks5Udp (buildDgram target data) = .ok (data, target) ↔ Fits target :=
  ⟨fits_of_parseSocks5Udp, fun h => parseSocks5Udp_buildDgram h data⟩

/-- The client takes the same header off that the inbound reads. -/
theorem socks5UdpStripHeader_of_parse {buf data : Bytes} {target : Target}
    (h : parseSocks5Udp buf = .ok (data, target)) : socks5UdpStripHeader buf = .ok data := by
  rcases parseSocks5Udp_cases h with ⟨h3, hlen, rfl, -⟩ | ⟨h3, hlen, rfl, -⟩ | ⟨h3, hlen, rfl, -⟩
  · simp only [socks5UdpStripHeader, h3]
    rw [if_neg (by omega), if_pos trivial]
    exact if_neg (by omega)
  · simp only [socks5UdpStripHeader, h3]
    rw [if_neg (by omega), if_neg (by decide), if_pos trivial]
    exact if_neg (by omega)
  · simp only [socks5UdpStripHeader, h3]
    rw [if_neg (by omega), if_neg (by decide), if_neg (by decide), if_pos trivial, if_neg (by omega)]
    exact if_neg (by omega)

theorem socks5UdpStripHeader_wrap (data : Bytes) (dst : SocketAddr) :
    socks5UdpStripHeader (wrapSocks5Udp data dst) = .ok data :=
  socks5UdpStripHeader_of_parse (parseSocks5Udp_wrap data dst)

/-! ### The relay -/

/-- The address that datagrams are sent to, if the server names `addr`. -/
def relayOf (proxy addr : SocketAddr) : SocketAddr :=
  if isUnspecified addr.ip then ⟨proxy.ip, addr.port⟩ else addr

theorem replaceUnspecified_some (proxy addr : SocketAddr) :
    replaceUnspecified (some proxy) addr = .ok (relayOf proxy addr) :=
  (apply_ite Except.ok _ _ _).symm

theorem causal_readBound (atyp : UInt8) : Causal .unexpectedEof (readBound atyp) := by
  refine .ite ((causal_readBytes 6).bind fun _ => causal_pure _ _) ?_
  exact .ite ((causal_readBytes 18).bind fun _ => causal_pure _ _) (causal_bail _ _)

theorem causal_readRelay (proxy : Option SocketAddr) : Causal .unexpectedEof (readRelay proxy) :=
  (causal_readBytes 4).bind fun _ => (causal_ensure _ _).bind fun _ => (causal_ensure _ _).bind fun _ =>
    (causal_readBound _).bind fun _ => causal_ofExcept _ _

theorem causal_askRelay (proxy : Option SocketAddr) : Causal .unexpectedEof (askRelay proxy) :=
  (causal_writeAll _ _).bind fun _ => causal_readRelay proxy

theorem portAt_end {front : Bytes} {pos : Nat} (hfront : front.length = pos) (port : UInt16) :
    portAt (front ++ portBytes port) pos = port := by
  have h := portAt_middle hfront port []
  rwa [List.append_nil] at h

theorem reads_readBound_v4 (ip : Ipv4Addr) (port : UInt16) :
    Reads (readBound 0x01) (ip.octets ++ portBytes port) ⟨.v4 ip, port⟩ := by
  have hlen : (ip.octets ++ portBytes port).length = 6 := by
    rw [List.length_append, ip.length_octets, length_portBytes]
  refine (reads_readBytes hlen).bind_nil (reads_pure ?_)
  rw [slice_append_left (by simp), portAt_end ip.length_octets]
  rw [slice, List.drop_zero, List.take_of_length_le (by simp), Ipv4Addr.ofOctets_octets]

theorem reads_readBound_v6 (ip : Ipv6Addr) (port : UInt16) :
    Reads (readBound 0x04) (ip.octets ++ portBytes port) ⟨.v6 ip, port⟩ := by
  have hlen : (ip.octets ++ portBytes port).length = 18 := by
    rw [List.length_append, ip.length_octets, length_portBytes]
  refine (reads_readBytes hlen).bind_nil (reads_pure ?_)
  rw [slice_append_left (by simp), portAt_end ip.length_octets]
  rw [slice, List.drop_zero, List.take_of_length_le (by simp), Ipv6Addr.ofOctets_octets]

theorem reads_readRelay (proxy addr : SocketAddr) :
    Reads (readRelay (some proxy)) (replyBytes 0x00 addr) (relayOf proxy addr) := by
  have hfinish (a : SocketAddr) : Reads (ofExcept (replaceUnspecified (some proxy) a)) [] (relayOf proxy a) :=
    reads_ofExcept (replaceUnspecified_some proxy a)
  obtain ⟨ip | ip, port⟩ := addr
  · have hbytes : replyBytes 0x00 ⟨.v4 ip, port⟩
        = [0x05, 0x00, 0x00, 0x01] ++ (ip.octets ++ portBytes port) := by simp [replyBytes, portBytes]
    have hhdr : Reads (readBytes 4) [0x05, 0x00, 0x00, 0x01] [0x05, 0x00, 0x00, 0x01] := reads_readBytes rfl
    rw [hbytes]
    refine hhdr.bind ((reads_ensure rfl _).bind ((reads_ensure rfl _).bind ?_))
    exact (reads_readBound_v4 ip port).bind_nil (hfinish _)
  · have hbytes : replyBytes 0x00 ⟨.v6 ip, port⟩
        = [0x05, 0x00, 0x00, 0x04] ++ (ip.octets ++ portBytes port) := by simp [replyBytes, portBytes]
    have hhdr : Reads (readBytes 4) [0x05, 0x00, 0x00, 0x04] [0x05, 0x00, 0x00, 0x04] := reads_readBytes rfl
    rw [hbytes]
    refine hhdr.bind ((reads_ensure rfl _).bind ((reads_ensure rfl _).bind ?_))
    exact (reads_readBound_v6 ip port).bind_nil (hfinish _)

section Relay

variable (client : SocksOutboundConfig) (server : MixedInboundConfig) (peer proxy : SocketAddr)
  (bindUdp : Option SocketAddr)

/-- The target of the request for an association, 0.0.0.0:0. -/
def placeholder : Target := .socket ⟨.v4 0, 0⟩

theorem socks5Request_placeholder :
    socks5Request server peer bindUdp ⟨[0x05, 0x03, 0x00, 0x01, 0, 0, 0, 0, 0, 0], []⟩
      = serveCommand server peer bindUdp 0x03 placeholder ⟨[], []⟩ := by
  have hport : Reads readPort (beBytes 2 (0 : UInt16).toNat) 0 := reads_readPort 0
  have haddr : Reads (readSocks5Addr 0x01) (Ipv4Addr.octets 0 ++ beBytes 2 (0 : UInt16).toNat) placeholder := by
    refine (reads_readExact _ (Ipv4Addr.length_octets 0)).bind (hport.bind_nil (reads_pure ?_))
    rw [Ipv4Addr.ofOctets_octets]
    rfl
  have hbytes : ([0x05, 0x03, 0x00, 0x01, 0, 0, 0, 0, 0, 0] : Bytes)
      = requestBytes 0x03 (0x01 :: Ipv4Addr.octets 0) placeholder := by decide
  rw [hbytes]
  exact socks5Request_apply server peer bindUdp 0x03 haddr

theorem decides_askRelay :
    Dialogue.Decides (askRelay (some proxy)) (socks5Request server peer bindUdp) (Serves server bindUdp 0x03)
      (relayOf proxy (bindUdp.getD ⟨.v4 0, 0⟩)) (handedFor server bindUdp 0x03 placeholder) := by
  have hread := socks5Request_placeholder server peer bindUdp
  by_cases hserves : Serves server bindUdp 0x03
  · rw [serveCommand_of_serves server peer bindUdp hserves] at hread
    have hreply := reads_readRelay proxy (bindUdp.getD ⟨.v4 0, 0⟩) [] []
    rw [List.append_nil] at hreply
    exact Dialogue.Meets.decides (Dialogue.Outcome.call (causal_readRelay _) hreply hread) hserves
  · obtain ⟨e, hnone | hcode⟩ := serveCommand_of_not_serves server peer bindUdp hserves placeholder
    · rw [hnone] at hread
      have hreply : readRelay (some proxy) ⟨[], []⟩ = (.error .unexpectedEof, ⟨[], []⟩) := rfl
      exact (Dialogue.Outcome.call (causal_readRelay _) hreply hread).decides_not hserves _ _
    · rw [hcode] at hread
      have hreply : readRelay (some proxy) ⟨[0x05, 0x07, 0x00, 0x01, 0, 0, 0, 0, 0, 0], []⟩
          = (.error (.message "socks5 udp: UDP ASSOCIATE refused, REP=0x07".toList),
            ⟨[0, 0, 0, 0, 0, 0], []⟩) := rfl
      exact (Dialogue.Outcome.call (causal_readRelay _) hreply hread).decides_not hserves _ _

/-- What comes after the negotiation of a method. -/
def afterMethodUdp (method : UInt8) : Handler ConnError SocketAddr := do
  if method = 0x02 then
    sendCredentials client relayTexts.auth
    askRelay (some proxy)
  else askRelay (some proxy)

theorem causal_afterMethodUdp (method : UInt8) :
    Causal .unexpectedEof (afterMethodUdp client proxy method) :=
  .ite ((causal_sendCredentials client _).bind fun _ => causal_askRelay _) (causal_askRelay _)

theorem causal_socks5UdpAssociateGetRelay :
    Causal .unexpectedEof (socks5UdpAssociateGetRelay client (some proxy)) :=
  (causal_negotiateMethod client _).bind fun method => causal_afterMethodUdp client proxy method

theorem decides_afterMethodUdp (hlogin : AsksLogin client server → LoggedIn client server) :
    Dialogue.Decides (afterMethodUdp client proxy (chosenMethod client server))
      (if chosenMethod client server = 0x02 then do authenticate server; socks5Request server peer bindUdp
        else socks5Request server peer bindUdp)
      (Serves server bindUdp 0x03) (relayOf proxy (bindUdp.getD ⟨.v4 0, 0⟩))
      (handedFor server bindUdp 0x03 placeholder) := by
  have hask := decides_askRelay server peer proxy bindUdp
  unfold afterMethodUdp
  by_cases hasks : AsksLogin client server
  · have hmethod := (chosenMethod_eq_iff client server).mpr hasks
    rw [if_pos hmethod, if_pos hmethod]
    have hin := hlogin hasks
    refine Dialogue.Decides.iff (and_iff_right hin) ?_
    exact Dialogue.Decides.bind (causal_sendCredentials client _) (causal_authenticate server)
      (fun _ => causal_askRelay _) (fun _ => causal_socks5Request server peer bindUdp)
      (decides_credentials client server _ hin.user_le hin.pass_le) fun _ => hask
  · have hmethod := mt (chosenMethod_eq_iff client server).mp hasks
    rw [if_neg hmethod, if_neg hmethod]
    exact hask

theorem decides_relay (hlogin : AsksLogin client server → LoggedIn client server) :
    Dialogue.Decides (socks5UdpAssociateGetRelay client (some proxy)) (listener server peer bindUdp)
      (Serves server bindUdp 0x03) (relayOf proxy (bindUdp.getD ⟨.v4 0, 0⟩))
      (handedFor server bindUdp 0x03 placeholder) := by
  have hclient := causal_afterMethodUdp client proxy
  refine Dialogue.Decides.congr (causal_socks5UdpAssociateGetRelay client proxy)
    (causal_handleSocks5 server peer bindUdp) (listener_eq client server peer bindUdp hclient) ?_
  refine Dialogue.Decides.iff (and_iff_right trivial) ?_
  exact Dialogue.Decides.bind (causal_negotiateMethod client _) (causal_negotiate server) hclient
    (causal_afterMethod server peer bindUdp) ((meets_negotiate client server _).decides trivial)
    fun _ => decides_afterMethodUdp client server peer proxy bindUdp hlogin

/-- **The relay.** After a first handshake that succeeded, the second one succeeds in every order of delivery
    just when the inbound can bind a socket, and the client sends its datagrams to that socket: to the address
    of the server, where the socket is bound to an unspecified one.

    For an unspecified address the client looks up the name of the proxy once more.  Here this second lookup gives
    an address, `proxy`; where it gives none, the client fails although the inbound has answered. -/
theorem relay_negotiated {peer₁ peer₂ : SocketAddr} {bind₁ bind₂ : Option SocketAddr}
    {t : Dialogue.Delivered}
    (hends : Dialogue.Ends (socks5Handshake client placeholder 0x03) (listener server peer₁ bind₁) t)
    (hok : result (socks5Handshake client placeholder 0x03) t.toClient = .ok ()) :
    ∃ t', Dialogue.Ends (socks5UdpAssociateGetRelay client (some proxy)) (listener server peer₂ bind₂) t' ∧
      (∀ s, Dialogue.Reachable (socks5UdpAssociateGetRelay client (some proxy)) (listener server peer₂ bind₂) s →
        Relation.ReflTransGen (Dialogue.Step (socks5UdpAssociateGetRelay client (some proxy))
          (listener server peer₂ bind₂)) s t') ∧
      (∀ relay, result (socks5UdpAssociateGetRelay client (some proxy)) t'.toClient = .ok relay ↔
        ∃ addr, bind₂ = some addr ∧ relay = relayOf proxy addr) ∧
      (∀ handed, result (listener server peer₂ bind₂) t'.toServer = .ok handed ↔
        ∃ addr, bind₂ = some addr ∧ handed = .udpAssociation addr) := by
  -- the end of the first handshake says that the login agrees and that UDP is enabled
  obtain ⟨t₁, hends₁, -, hclient₁, -, -⟩ := (decides_handshake client server peer₁ bind₁ 0x03 placeholder).ends
    (causal_socks5Handshake client 0x03 placeholder) (causal_listener server peer₁ bind₁)
  obtain rfl := Dialogue.Ends.unique (causal_socks5Handshake client 0x03 placeholder)
    (causal_listener server peer₁ bind₁) hends hends₁
  obtain ⟨⟨hlogin, -, hserves⟩, -⟩ := (hclient₁ ()).mp hok
  have hudp : server.network.hasUdp = true := by
    rcases hserves with h | ⟨-, h, -⟩
    · cases h
    · exact h
  have hserves₂ (q : SocketAddr → Prop) :
      Serves server bind₂ 0x03 ∧ q (bind₂.getD ⟨.v4 0, 0⟩) ↔ ∃ addr, bind₂ = some addr ∧ q addr := by
    constructor
    · rintro ⟨h | ⟨-, -, h⟩, hq⟩
      · cases h
      · obtain ⟨addr, rfl⟩ := Option.isSome_iff_exists.mp h
        exact ⟨addr, rfl, hq⟩
    · rintro ⟨addr, rfl, hq⟩
      exact ⟨.inr ⟨rfl, hudp, rfl⟩, hq⟩
  obtain ⟨t', hends', hreach, hclient, hserver, -⟩ := (decides_relay client server peer₂ proxy bind₂ hlogin).ends
    (causal_socks5UdpAssociateGetRelay client proxy) (causal_listener server peer₂ bind₂)
  refine ⟨t', hends', hreach, fun relay => ?_, fun handed => ?_⟩
  · exact (hclient relay).trans (hserves₂ fun addr => relay = relayOf proxy addr)
  · exact (hserver handed).trans (hserves₂ fun addr => handed = .udpAssociation addr)

end Relay

/-- A client and an inbound without a login; the inbound is bound to an unspecified address. -/
def openClient : SocksOutboundConfig := ⟨none, none, none⟩
def openServer : MixedInboundConfig := ⟨[], .tcpUdp, none, none⟩
def unspecified : SocketAddr := ⟨.v4 0, 40000⟩

theorem relay_negotiated_openServer :
    ∃ t', Dialogue.Ends (socks5UdpAssociateGetRelay openClient (some localPeer))
        (listener openServer localPeer (some unspecified)) t' ∧
      result (socks5UdpAssociateGetRelay openClient (some localPeer)) t'.toClient
        = .ok ⟨localPeer.ip, 40000⟩ := by
  obtain ⟨t, hends, -, hclient, -, -⟩ :=
    (decides_handshake openClient openServer localPeer (some unspecified) 0x03 placeholder).ends
      (causal_socks5Handshake openClient 0x03 placeholder)
      (causal_listener openServer localPeer (some unspecified))
  have hlogin : ¬ AsksLogin openClient openServer := fun h => absurd h.1 (by decide)
  have hok := (hclient ()).mpr ⟨⟨fun h => absurd h hlogin, trivial, .inr ⟨rfl, rfl, rfl⟩⟩, rfl⟩
  obtain ⟨t', hends', -, hrelay, -⟩ := relay_negotiated openClient openServer localPeer hends hok
  exact ⟨t', hends', (hrelay _).mpr ⟨unspecified, rfl, rfl⟩⟩

/-! ### Sessions -/

/-- A session of `socks5_udp` and the association that serves it: the payloads it was given, the datagrams to
    the relay and back, and what went into its reply channel. -/
structure UdpSession where
  given : Multiset Bytes := 0
  up : Network Bytes := {}
  relay : Association := {}
  down : Network Bytes := {}
  replied : List App.Reply := []

/-- What happens to a session: a payload comes from `upstream_rx`, an outbound of the other side answers a
    packet, and datagrams arrive or get lost on both ways. -/
inductive UdpSessionAction where
  | upstream (data : Bytes)
  | atRelay (dgram : Bytes)
  | lostUp (dgram : Bytes)
  | answer (packet : InboundUdpPacket) (data : Bytes) (spoofedSrc : SocketAddr)
  | atClient (dgram : Bytes)
  | lostDown (dgram : Bytes)

namespace UdpSession

/-- The packet of the session is sent at once. -/
def start (packet : InboundUdpPacket) : UdpSession where
  given := {packet.data}
  up := Network.send {} (buildDgram packet.target packet.data)

/-- The receiving loop: a datagram whose header cannot be taken off is skipped. -/
def receive (packet : InboundUdpPacket) (s : UdpSession) (dgram : Bytes) : UdpSession :=
  match socks5UdpStripHeader dgram with
  | .ok payload =>
      { s with replied := s.replied ++ [⟨payload, packet.src, packet.target.toSocketAddrLossy⟩] }
  | .error _ => s

/-- One step; `addr` is the address of the client's socket. -/
def step (packet : InboundUdpPacket) (addr : SocketAddr) (tag : Str) (s : UdpSession) :
    UdpSessionAction → Option UdpSession
  | .upstream data =>
      some { s with given := data ::ₘ s.given, up := s.up.send (buildDgram packet.target data) }
  | .atRelay dgram => do
      let up ← s.up.deliver dgram
      let relay ← s.relay.step tag (.recv addr dgram)
      return { s with up, relay }
  | .lostUp dgram => do
      let up ← s.up.lose dgram
      return { s with up }
  | .answer p data spoofedSrc => do
      let relay ← s.relay.step tag (.reply p data spoofedSrc)
      let (sentTo, wrapped) := Association.replyTask ⟨data, p.src, spoofedSrc⟩
      return { s with relay, down := if sentTo = addr then s.down.send wrapped else s.down }
  | .atClient dgram => do
      let down ← s.down.deliver dgram
      return receive packet { s with down } dgram
  | .lostDown dgram => do
      let down ← s.down.lose dgram
      return { s with down }

/-- What a datagram carries. -/
def payload (dgram : Bytes) : Bytes :=
  match socks5UdpStripHeader dgram with
  | .ok payload => payload
  | .error _ => []

theorem payload_of_parse {dgram data : Bytes} {target : Target}
    (h : parseSocks5Udp dgram = .ok (data, target)) : payload dgram = data := by
  rw [payload, socks5UdpStripHeader_of_parse h]

/-- What holds in every state of a session. -/
structure Faithful (packet : InboundUdpPacket) (addr : SocketAddr) (s : UdpSession) : Prop where
  made : ∀ dgram ∈ s.up.inFlight + s.up.lost, ∃ data, dgram = buildDgram packet.target data
  carried : Fits packet.target →
    Carried payload s.given s.up (s.relay.dispatched.map (·.data) : List Bytes)
  fits : ∀ p ∈ s.relay.dispatched, p.src = addr ∧ Fits p.target
  target : Fits packet.target → ∀ p ∈ s.relay.dispatched, p.target = packet.target
  wrapped : ∀ dgram ∈ s.down.inFlight + s.down.lost, ∃ data dst, dgram = wrapSocks5Udp data dst
  returned : Carried payload (s.relay.returned.map (·.data) : List Bytes) s.down
    (s.replied.map (·.data) : List Bytes)
  replied : ∀ r ∈ s.replied, r.addr = packet.src ∧ r.spoofedSrc = packet.target.toSocketAddrLossy

theorem faithful_start (packet : InboundUdpPacket) (addr : SocketAddr) : Faithful packet addr (start packet) where
  made dgram hd := by
    refine ⟨packet.data, ?_⟩
    rw [start, Network.send, Multiset.add_zero] at hd
    exact Multiset.mem_singleton.mp hd
  carried hfits := by
    have hsend := (carried_empty payload).send (buildDgram packet.target packet.data)
    rwa [payload_of_parse (parseSocks5Udp_buildDgram hfits packet.data)] at hsend
  fits p hp := by cases hp
  target _ p hp := by cases hp
  wrapped dgram hd := absurd hd (Multiset.notMem_zero dgram)
  returned := carried_empty payload
  replied r hr := by cases hr

/-- A datagram of the client is handed on as it was meant, if its host fits. -/
theorem Faithful.atRelay {packet : InboundUdpPacket} {addr : SocketAddr} {tag : Str} {s : UdpSession}
    {dgram : Bytes} {up : Network Bytes} {relay : Association} (hs : Faithful packet addr s)
    (hup : s.up.deliver dgram = some up) (hrelay : s.relay.step tag (.recv addr dgram) = some relay) :
    Faithful packet addr { s with up, relay } := by
  -- the datagram was made from a payload for the target of the session
  obtain ⟨sent, hsent⟩ := hs.made dgram (Multiset.mem_add.mpr (.inl (Network.mem_of_deliver hup)))
  have hmade : ∀ d ∈ up.inFlight + up.lost, ∃ data, d = buildDgram packet.target data :=
    fun d hd => hs.made d (Network.mem_of_deliver_of_mem hup hd)
  simp only [Association.step] at hrelay
  cases hparse : parseSocks5Udp dgram with
  | ok r =>
    obtain ⟨data, target⟩ := r
    rw [hparse] at hrelay
    obtain rfl := Option.some.inj hrelay
    -- a target that fits is read back
    have htarget (hfits : Fits packet.target) : target = packet.target := by
      rw [hsent, parseSocks5Udp_buildDgram hfits sent] at hparse
      exact (Prod.mk.inj (Except.ok.inj hparse)).2.symm
    refine { hs with made := hmade, carried := fun hfits => ?_, fits := ?_, target := fun hfits => ?_ }
    · have hdeliver := (hs.carried hfits).deliver hup
      rw [payload_of_parse hparse] at hdeliver
      rwa [List.map_append, List.map_singleton, coe_append_singleton]
    · refine List.forall_mem_append.mpr ⟨hs.fits, ?_⟩
      exact List.forall_mem_singleton.mpr ⟨rfl, fits_of_parseSocks5Udp hparse⟩
    · exact List.forall_mem_append.mpr ⟨hs.target hfits, List.forall_mem_singleton.mpr (htarget hfits)⟩
  | error e =>
    rw [hparse] at hrelay
    obtain rfl := Option.some.inj hrelay
    refine { hs with made := hmade, carried := fun hfits => ?_ }
    rw [hsent, parseSocks5Udp_buildDgram hfits sent] at hparse
    cases hparse

/-- An answer is sent back to the client. -/
theorem Faithful.answer {packet p : InboundUdpPacket} {addr spoofedSrc : SocketAddr} {tag : Str}
    {s : UdpSession} {data : Bytes} {relay : Association} (hs : Faithful packet addr s)
    (hrelay : s.relay.step tag (.reply p data spoofedSrc) = some relay) :
    Faithful packet addr { s with
      relay, down := if p.src = addr then s.down.send (wrapSocks5Udp data p.src) else s.down } := by
  obtain ⟨hmem, hrelay⟩ := Option.ite_none_right_eq_some.mp hrelay
  obtain rfl := Option.some.inj hrelay
  rw [if_pos (hs.fits p hmem).1]
  refine { hs with wrapped := ?_, returned := ?_ }
  · intro dgram hd
    rw [Network.send, Multiset.cons_add, Multiset.mem_cons] at hd
    rcases hd with rfl | hd
    · exact ⟨data, p.src, rfl⟩
    · exact hs.wrapped dgram hd
  · have hsend := hs.returned.send (wrapSocks5Udp data p.src)
    rw [payload_of_parse (parseSocks5Udp_wrap data p.src)] at hsend
    rwa [List.map_append, List.map_singleton, coe_append_singleton]

/-- What arrives at the client goes into the reply channel. -/
theorem Faithful.atClient {packet : InboundUdpPacket} {addr : SocketAddr} {s : UdpSession} {dgram : Bytes}
    {down : Network Bytes} (hs : Faithful packet addr s) (hdown : s.down.deliver dgram = some down) :
    Faithful packet addr (receive packet { s with down } dgram) := by
  obtain ⟨data, dst, hdgram⟩ := hs.wrapped dgram (Multiset.mem_add.mpr (.inl (Network.mem_of_deliver hdown)))
  have hparse : parseSocks5Udp dgram = .ok (data, .socket dst) := by rw [hdgram, parseSocks5Udp_wrap]
  rw [receive, socks5UdpStripHeader_of_parse hparse]
  refine { hs with wrapped := ?_, returned := ?_, replied := ?_ }
  · exact fun d hd => hs.wrapped d (Network.mem_of_deliver_of_mem hdown hd)
  · have hdeliver := hs.returned.deliver hdown
    rw [payload_of_parse hparse] at hdeliver
    rwa [List.map_append, List.map_singleton, coe_append_singleton]
  · exact List.forall_mem_append.mpr ⟨hs.replied, List.forall_mem_singleton.mpr ⟨rfl, rfl⟩⟩

theorem faithful_step {packet : InboundUdpPacket} {addr : SocketAddr} {tag : Str} {s s' : UdpSession}
    {a : UdpSessionAction} (h : step packet addr tag s a = some s') (hs : Faithful packet addr s) :
    Faithful packet addr s' := by
  cases a with
  | upstream data =>
    obtain rfl := Option.some.inj h
    refine { hs with made := ?_, carried := fun hfits => ?_ }
    · intro dgram hd
      rw [Network.send, Multiset.cons_add, Multiset.mem_cons] at hd
      -- a datagram in flight is the new one, or was there before
      rcases hd with rfl | hd
      · exact ⟨data, rfl⟩
      · exact hs.made dgram hd
    · have hsend := (hs.carried hfits).send (buildDgram packet.target data)
      rwa [payload_of_parse (parseSocks5Udp_buildDgram hfits data)] at hsend
  | atRelay dgram =>
    obtain ⟨up, hup, h⟩ := Option.bind_eq_some_iff.mp h
    obtain ⟨relay, hrelay, hs'⟩ := Option.bind_eq_some_iff.mp h
    obtain rfl := Option.some.inj hs'
    exact hs.atRelay hup hrelay
  | lostUp dgram =>
    obtain ⟨up, hup, hs'⟩ := Option.bind_eq_some_iff.mp h
    obtain rfl := Option.some.inj hs'
    exact { hs with
      made := fun d hd => hs.made d (Network.mem_of_lose_of_mem hup hd)
      carried := fun hfits => (hs.carried hfits).lose hup }
  | answer p data spoofedSrc =>
    obtain ⟨relay, hrelay, hs'⟩ := Option.bind_eq_some_iff.mp h
    obtain rfl := Option.some.inj hs'
    exact hs.answer hrelay
  | atClient dgram =>
    obtain ⟨down, hdown, hs'⟩ := Option.bind_eq_some_iff.mp h
    obtain rfl := Option.some.inj hs'
    exact hs.atClient hdown
  | lostDown dgram =>
    obtain ⟨down, hdown, hs'⟩ := Option.bind_eq_some_iff.mp h
    obtain rfl := Option.some.inj hs'
    exact { hs with
      wrapped := fun d hd => hs.wrapped d (Network.mem_of_lose_of_mem hdown hd)
      returned := hs.returned.lose hdown }

/-- **A session carries what it was given.** In every run, with any loss and any order of delivery:

    * if the host of the target has at most 255 bytes (`Fits`), each payload that the session was given is handed
      on by the inbound once, is lost or is under way; a longer host does not fit its length byte, and what becomes
      of the payloads for it is left open;
    * whatever is handed on has the session's target if its host has at most 255 bytes, and never otherwise;
    * for every host, each answer of an outbound goes into the session's reply channel once, is lost or is under
      way, and it goes there under the session's source and target. -/
theorem session_conserves {packet : InboundUdpPacket} {addr : SocketAddr} {tag : Str}
    {acts : List UdpSessionAction} {s : UdpSession}
    (hrun : run (step packet addr tag) (start packet) acts = some s) :
    (Fits packet.target →
        s.given = (s.up.inFlight + s.up.lost).map payload + (s.relay.dispatched.map (·.data) : List Bytes)) ∧
      (∀ p ∈ s.relay.dispatched, p.src = addr ∧ (p.target = packet.target ↔ Fits packet.target)) ∧
      ((s.relay.returned.map (·.data) : List Bytes) : Multiset Bytes)
        = (s.down.inFlight + s.down.lost).map payload + (s.replied.map (·.data) : List Bytes) ∧
      ∀ r ∈ s.replied, r.addr = packet.src ∧ r.spoofedSrc = packet.target.toSocketAddrLossy := by
  have hs : Faithful packet addr s := invariant_of_steps
    (fun s a s' (h : step packet addr tag s a = some s') hs => faithful_step h hs) hrun
    (faithful_start packet addr)
  refine ⟨hs.carried, fun p hp => ⟨(hs.fits p hp).1, ?_⟩, hs.returned, hs.replied⟩
  constructor
  · intro htarget
    rw [← htarget]
    exact (hs.fits p hp).2
  · exact fun hfits => hs.target hfits p hp

/-- A packet to a domain and one more payload: the first is answered, the second gets lost. -/
def answeredPacket : InboundUdpPacket :=
  ⟨[0x01], secondRemote, .domain "a.example".toList 53, [], none, none⟩
def answered : List UdpSessionAction :=
  [.upstream [0x02], .lostUp (buildDgram answeredPacket.target [0x02]),
    .atRelay (buildDgram answeredPacket.target [0x01]),
    .answer { answeredPacket with src := localPeer } [0x03] localPeer,
    .atClient (wrapSocks5Udp [0x03] localPeer)]

theorem session_conserves_answered :
    ∃ s, run (step answeredPacket localPeer []) (start answeredPacket) answered = some s ∧
      s.replied = [⟨[0x03], secondRemote, ⟨.v4 0, 53⟩⟩] ∧
      s.given = (s.up.inFlight + s.up.lost).map payload + (s.relay.dispatched.map (·.data) : List Bytes) := by
  have hany : (run (step answeredPacket localPeer []) (start answeredPacket) answered).any
      (fun s => s.replied = [⟨[0x03], secondRemote, ⟨.v4 0, 53⟩⟩]) = true := by decide
  obtain ⟨s, hrun, hreplied⟩ := (Option.any_eq_true _ _).mp hany
  refine ⟨s, hrun, of_decide_eq_true hreplied, (session_conserves hrun).1 ?_⟩
  show (utf8 "a.example".toList).length ≤ 255
  decide

end UdpSession

end Reflex.Socks
