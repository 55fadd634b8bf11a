import Reflex.App.UdpSessions
import Reflex.Inbound.Tun

namespace Reflex.Inbound

open RustStd Transition App

/-!
# Inbounds — UDP through the TUN device

`inbound/tun.rs`: a UDP packet read from the device is handed to the dispatcher with the reply
channel of its flow, and a task for each flow makes packets of the replies that come through the
channel and writes them to the device.

A reply is the payload, the client's address and the address it is to come from, as
`DirectOutbound::handle_udp` sends it.  The task takes the second of the three for the source of its
packet, which is the client's own address.

* `readUdp_build` — a built packet reads as its endpoints and its payload, up to what the 16-bit
  length can say;
* `TunUdp.Inv` — each reply channel belongs to the client whose packets were handed on with it;
* `reply_written_iff` — when a reply comes back from where the packet went to.

Lengths are `u16` and wrap, as they do in a release build.
-/

/-! ### Reading -/

/-- `IPPROTO_UDP`. -/
def ipprotoUdp : UInt8 := 17

/-- Source, destination and payload of a UDP packet. -/
structure Datagram where
  src : SocketAddr
  dst : SocketAddr
  data : Bytes
  deriving DecidableEq, Repr

/-- What `parse_udp_v4` and `parse_udp_v6` make of a UDP header and what follows it. -/
def parseUdp (udp : Bytes) (srcIp dstIp : IpAddr) : Option Datagram :=
  if udp.length < 8 then none
  else
    let length := (portAt udp 4).toNat
    let payloadLen := min (length - 8) (udp.length - 8)
    some
      { src := ⟨srcIp, portAt udp 0⟩
        dst := ⟨dstIp, portAt udp 2⟩
        data := slice udp 8 payloadLen }

/-- `parse_udp_v4`. -/
def parseUdpV4 (udp : Bytes) (srcIp dstIp : Ipv4Addr) : Option Datagram :=
  parseUdp udp (.v4 srcIp) (.v4 dstIp)

/-- `parse_udp_v6`. -/
def parseUdpV6 (udp : Bytes) (srcIp dstIp : Ipv6Addr) : Option Datagram :=
  parseUdp udp (.v6 srcIp) (.v6 dstIp)

/-- `process_ipv4`, up to what it gives to `dispatch_udp`. -/
def readUdpV4 (raw : Bytes) : Option Datagram :=
  if raw.length < 20 then none
  else
    let ihl := (byteAt raw 0 &&& 0x0F).toNat * 4
    if raw.length < ihl || ihl < 20 then none
    else
      let flagsFrag := portAt raw 6
      if byteAt raw 9 ≠ ipprotoUdp then none
      else if flagsFrag &&& 0x2000 ≠ 0 || flagsFrag &&& 0x1FFF ≠ 0 then none
      else parseUdpV4 (raw.drop ihl) (.ofOctets (slice raw 12 4)) (.ofOctets (slice raw 16 4))

/-- `process_ipv6`, up to what it gives to `dispatch_udp`. -/
def readUdpV6 (raw : Bytes) : Option Datagram :=
  if raw.length < 40 then none
  else if byteAt raw 6 ≠ ipprotoUdp then none
  else parseUdpV6 (raw.drop 40) (.ofOctets (slice raw 8 16)) (.ofOctets (slice raw 24 16))

/-- The UDP packet in `raw`, by its version. -/
def readUdp (raw : Bytes) : Option Datagram :=
  match version raw with
  | some .v4 => readUdpV4 raw
  | some .v6 => readUdpV6 raw
  | none => none

/-! ### Building -/

/-- `udp_checksum_v4`. -/
def udpChecksumV4 (src dst : Ipv4Addr) (udp : Bytes) : UInt16 :=
  checksumWithPseudoV4 src.octets dst.octets ipprotoUdp udp

/-- `udp_checksum_v6`. -/
def udpChecksumV6 (src dst : Ipv6Addr) (udp : Bytes) : UInt16 :=
  checksumWithPseudoV6 src.octets dst.octets ipprotoUdp udp

/-- The UDP header without its checksum, and the payload. -/
def udpUnsummed (srcPort dstPort udpLen : UInt16) (payload : Bytes) : Bytes :=
  portBytes srcPort ++ portBytes dstPort ++ portBytes udpLen ++ [0x00, 0x00] ++ payload

/-- `build_udp_reply_v4`. -/
def buildUdpReplyV4 (src : Ipv4Addr) (srcPort : UInt16) (dst : Ipv4Addr) (dstPort : UInt16)
    (payload : Bytes) : Bytes :=
  let udpLen := UInt16.ofNat (8 + payload.length)
  let totalLen := 20 + udpLen
  let pkt : Bytes := [0x45, 0x00] ++ portBytes totalLen
    ++ [0x00, 0x00, 0x40, 0x00, 64, ipprotoUdp, 0x00, 0x00] ++ src.octets ++ dst.octets
  let pkt := copyFromSlice pkt 10 (portBytes (internetChecksum (pkt.take 20)))
  let udpStart := pkt.length
  let pkt := pkt ++ udpUnsummed srcPort dstPort udpLen payload
  copyFromSlice pkt (udpStart + 6) (portBytes (udpChecksumV4 src dst (pkt.drop udpStart)))

/-- `build_udp_reply_v6`. -/
def buildUdpReplyV6 (src : Ipv6Addr) (srcPort : UInt16) (dst : Ipv6Addr) (dstPort : UInt16)
    (payload : Bytes) : Bytes :=
  let udpLen := UInt16.ofNat (8 + payload.length)
  let pkt : Bytes := [0x60, 0x00, 0x00, 0x00] ++ portBytes udpLen ++ [ipprotoUdp, 64]
    ++ src.octets ++ dst.octets
  let udpStart := pkt.length
  let pkt := pkt ++ udpUnsummed srcPort dstPort udpLen payload
  copyFromSlice pkt (udpStart + 6) (portBytes (udpChecksumV6 src dst (pkt.drop udpStart)))

/-- `build_udp_reply_packet`. -/
def buildUdpReplyPacket (src dst : SocketAddr) (payload : Bytes) : Option Bytes :=
  match src.ip, dst.ip with
  | .v4 s, .v4 d => some (buildUdpReplyV4 s src.port d dst.port payload)
  | .v6 s, .v6 d => some (buildUdpReplyV6 s src.port d dst.port payload)
  | _, _ => none

/-- What a built UDP packet is behind its IP header. -/
def udpSummed (srcPort dstPort : UInt16) (sum : UInt16) (payload : Bytes) : Bytes :=
  portBytes srcPort ++ (portBytes dstPort ++ (portBytes (UInt16.ofNat (8 + payload.length))
    ++ (portBytes sum ++ payload)))

@[simp] theorem length_portBytes (port : UInt16) : (portBytes port).length = 2 := length_beBytes _ _

theorem portAt_middle {front : Bytes} {pos : Nat} (hfront : front.length = pos) (port : UInt16)
    (rest : Bytes) : portAt (front ++ (portBytes port ++ rest)) pos = port :=
  portAt_of_slice (slice_middle hfront (length_portBytes port))

/-- The checksum takes the place of the zeros, wherever the UDP header starts. -/
theorem copyFromSlice_udpUnsummed {front : Bytes} (srcPort dstPort sum : UInt16)
    (payload : Bytes) :
    copyFromSlice
        (front ++ udpUnsummed srcPort dstPort (UInt16.ofNat (8 + payload.length)) payload)
        (front.length + 6) (portBytes sum)
      = front ++ udpSummed srcPort dstPort sum payload := by
  have hsplit : front ++ udpUnsummed srcPort dstPort (UInt16.ofNat (8 + payload.length)) payload
      = (front ++ portBytes srcPort ++ portBytes dstPort
          ++ portBytes (UInt16.ofNat (8 + payload.length))) ++ ([0x00, 0x00] ++ payload) := by
    simp only [udpUnsummed, List.append_assoc]
  rw [hsplit, copyFromSlice_middle (by simp) (by simp)]
  simp only [udpSummed, List.append_assoc]

/-- What the UDP header and the payload read as. -/
theorem parseUdp_udpSummed (srcPort dstPort sum : UInt16) (payload : Bytes) (srcIp dstIp : IpAddr) :
    parseUdp (udpSummed srcPort dstPort sum payload) srcIp dstIp
      = some ⟨⟨srcIp, srcPort⟩, ⟨dstIp, dstPort⟩,
          payload.take ((8 + payload.length) % 2 ^ 16 - 8)⟩ := by
  have hlen : (udpSummed srcPort dstPort sum payload).length = 8 + payload.length := by
    simp only [udpSummed, List.length_append, length_portBytes]
    omega
  have hsrc : portAt (udpSummed srcPort dstPort sum payload) 0 = srcPort :=
    @portAt_middle [] 0 rfl srcPort _
  have hdst : portAt (udpSummed srcPort dstPort sum payload) 2 = dstPort :=
    portAt_middle (length_portBytes srcPort) dstPort _
  have hudpLen : portAt (udpSummed srcPort dstPort sum payload) 4
      = UInt16.ofNat (8 + payload.length) := by
    rw [udpSummed, ← List.append_assoc]
    exact portAt_middle (by simp) _ _
  have hdrop : (udpSummed srcPort dstPort sum payload).drop 8 = payload := by
    simp only [udpSummed, ← List.append_assoc]
    exact List.drop_left' (by simp)
  rw [parseUdp, if_neg (by omega), hsrc, hdst, hudpLen, hlen, UInt16.toNat_ofNat',
    Nat.add_sub_cancel_left]
  -- the length field cannot say more than there is
  have hmod : (8 + payload.length) % 2 ^ 16 - 8 ≤ payload.length := by
    have := Nat.mod_le (8 + payload.length) (2 ^ 16)
    omega
  simp only [slice, hdrop, Nat.min_eq_left hmod]

/-- A built IPv4 packet, part by part. -/
theorem buildUdpReplyV4_eq (src dst : Ipv4Addr) (srcPort dstPort : UInt16) (payload : Bytes) :
    ∃ totalLen ipSum udpSum, buildUdpReplyV4 src srcPort dst dstPort payload
      = ([0x45, 0x00] ++ portBytes totalLen ++ [0x00, 0x00, 0x40, 0x00, 64, ipprotoUdp]
          ++ portBytes ipSum) ++ (src.octets ++ (dst.octets
            ++ udpSummed srcPort dstPort udpSum payload)) := by
  have hsplit : ∀ totalLen : UInt16, [0x45, 0x00] ++ portBytes totalLen
      ++ [0x00, 0x00, 0x40, 0x00, 64, ipprotoUdp, 0x00, 0x00] ++ src.octets ++ dst.octets
        = ([0x45, 0x00] ++ portBytes totalLen ++ [0x00, 0x00, 0x40, 0x00, 64, ipprotoUdp])
          ++ ([0x00, 0x00] ++ (src.octets ++ dst.octets)) := by
    intro totalLen
    simp only [List.append_assoc, List.cons_append, List.nil_append]
  rw [buildUdpReplyV4, copyFromSlice_udpUnsummed, hsplit, copyFromSlice_middle (by simp) (by simp),
    List.append_assoc (_ ++ portBytes (internetChecksum _)), List.append_assoc src.octets]
  exact ⟨_, _, _, rfl⟩

/-- A built IPv6 packet, part by part. -/
theorem buildUdpReplyV6_eq (src dst : Ipv6Addr) (srcPort dstPort : UInt16) (payload : Bytes) :
    ∃ udpLen udpSum, buildUdpReplyV6 src srcPort dst dstPort payload
      = ([0x60, 0x00, 0x00, 0x00] ++ portBytes udpLen ++ [ipprotoUdp, 64])
          ++ (src.octets ++ (dst.octets ++ udpSummed srcPort dstPort udpSum payload)) := by
  rw [buildUdpReplyV6, copyFromSlice_udpUnsummed, List.append_assoc _ dst.octets,
    List.append_assoc _ src.octets]
  exact ⟨_, _, rfl⟩

/-- What an IPv4 packet without options and fragments reads as. -/
private theorem readUdp_ipv4 (totalLen ipSum : UInt16) (src dst : Ipv4Addr) (udp : Bytes) :
    readUdp (([0x45, 0x00] ++ portBytes totalLen ++ [0x00, 0x00, 0x40, 0x00, 64, ipprotoUdp]
        ++ portBytes ipSum) ++ (src.octets ++ (dst.octets ++ udp))) = parseUdpV4 udp src dst := by
  set front := [0x45, 0x00] ++ portBytes totalLen ++ [0x00, 0x00, 0x40, 0x00, 64, ipprotoUdp]
    ++ portBytes ipSum with hdef
  have hfront : front.length = 12 := by simp [hdef]
  set raw := front ++ (src.octets ++ (dst.octets ++ udp)) with hraw
  have hlen : raw.length = 20 + udp.length := by
    simp only [hraw, List.length_append, hfront, Ipv4Addr.length_octets]
    omega
  have hfirst : byteAt raw 0 = 0x45 := rfl
  have hversion : version raw = some .v4 := by
    rw [version, if_neg (List.ne_nil_of_length_pos (by omega)), hfirst]
    rfl
  have hihl : (byteAt raw 0 &&& 0x0F).toNat * 4 = 20 := by rw [hfirst]; rfl
  have hflags : portAt raw 6 = 0x4000 := rfl
  have hproto : byteAt raw 9 = ipprotoUdp := rfl
  have hsrc : slice raw 12 4 = src.octets := slice_middle hfront src.length_octets
  have hdst : slice raw 16 4 = dst.octets := by
    rw [hraw, ← List.append_assoc]
    exact slice_middle (by simp [hfront]) dst.length_octets
  have hudp : raw.drop 20 = udp := by
    rw [hraw, ← List.append_assoc, ← List.append_assoc]
    exact List.drop_left' (by simp [hfront])
  rw [readUdp, hversion]
  show readUdpV4 raw = parseUdpV4 udp src dst
  rw [readUdpV4, if_neg (by omega), hihl, if_neg (by simp [hlen]), hproto, hflags,
    if_neg (by simp), if_neg (by decide), hudp, hsrc, hdst, Ipv4Addr.ofOctets_octets,
    Ipv4Addr.ofOctets_octets]

/-- What an IPv6 packet reads as. -/
private theorem readUdp_ipv6 (udpLen : UInt16) (src dst : Ipv6Addr) (udp : Bytes) :
    readUdp (([0x60, 0x00, 0x00, 0x00] ++ portBytes udpLen ++ [ipprotoUdp, 64])
        ++ (src.octets ++ (dst.octets ++ udp))) = parseUdpV6 udp src dst := by
  set front := [0x60, 0x00, 0x00, 0x00] ++ portBytes udpLen ++ [ipprotoUdp, 64] with hdef
  have hfront : front.length = 8 := by simp [hdef]
  set raw := front ++ (src.octets ++ (dst.octets ++ udp)) with hraw
  have hlen : raw.length = 40 + udp.length := by
    simp only [hraw, List.length_append, hfront, Ipv6Addr.length_octets]
    omega
  have hfirst : byteAt raw 0 = 0x60 := rfl
  have hversion : version raw = some .v6 := by
    rw [version, if_neg (List.ne_nil_of_length_pos (by omega)), hfirst]
    rfl
  have hproto : byteAt raw 6 = ipprotoUdp := rfl
  have hsrc : slice raw 8 16 = src.octets := slice_middle hfront src.length_octets
  have hdst : slice raw 24 16 = dst.octets := by
    rw [hraw, ← List.append_assoc]
    exact slice_middle (by simp [hfront]) dst.length_octets
  have hudp : raw.drop 40 = udp := by
    rw [hraw, ← List.append_assoc, ← List.append_assoc]
    exact List.drop_left' (by simp [hfront])
  rw [readUdp, hversion]
  show readUdpV6 raw = parseUdpV6 udp src dst
  rw [readUdpV6, if_neg (by omega), if_neg (by simp [hproto]), hudp, hsrc, hdst,
    Ipv6Addr.ofOctets_octets, Ipv6Addr.ofOctets_octets]

/-- **A built packet** reads as its endpoints and its payload, cut off where the length field wraps
    around. -/
theorem readUdp_build {src dst : SocketAddr} {payload pkt : Bytes}
    (h : buildUdpReplyPacket src dst payload = some pkt) :
    readUdp pkt = some ⟨src, dst, payload.take ((8 + payload.length) % 2 ^ 16 - 8)⟩ := by
  obtain ⟨srcIp, srcPort⟩ := src
  obtain ⟨dstIp, dstPort⟩ := dst
  rcases srcIp with s | s <;> rcases dstIp with d | d <;> simp only [buildUdpReplyPacket] at h
  · obtain rfl := Option.some.inj h
    obtain ⟨totalLen, ipSum, udpSum, hpkt⟩ := buildUdpReplyV4_eq s d srcPort dstPort payload
    rw [hpkt, readUdp_ipv4, parseUdpV4, parseUdp_udpSummed]
  · cases h
  · cases h
  · obtain rfl := Option.some.inj h
    obtain ⟨udpLen, udpSum, hpkt⟩ := buildUdpReplyV6_eq s d srcPort dstPort payload
    rw [hpkt, readUdp_ipv6, parseUdpV6, parseUdp_udpSummed]

/-- The payload survives just when the length field can hold it. -/
theorem take_wrapped_eq_iff (payload : Bytes) :
    payload.take ((8 + payload.length) % 2 ^ 16 - 8) = payload ↔ payload.length + 8 < 2 ^ 16 := by
  rw [List.take_eq_self_iff]
  constructor
  · intro h
    by_contra hbig
    have := Nat.mod_lt (8 + payload.length) (show 0 < 2 ^ 16 by decide)
    omega
  · intro h
    rw [Nat.mod_eq_of_lt (by omega)]
    omega

/-! ### The inbound -/

/-- `UdpEntry`; `replyTx` is the number of the reply channel. -/
structure UdpEntry where
  replyTx : Nat
  lastSeen : Nat

/-- The session table, and for each reply channel the address its task writes to; the packets that
    were handed to the dispatcher, each with its reply channel, and what was written to the device. -/
structure TunUdp where
  now : Nat := 0
  udpSessions : SocketAddr × SocketAddr → Option UdpEntry := fun _ => none
  tasks : List SocketAddr := []
  dispatched : List (InboundUdpPacket × Nat) := []
  written : List Bytes := []

/-- The packet that is handed to the dispatcher. -/
def Datagram.inbound (d : Datagram) (tag : Str) : InboundUdpPacket :=
  { data := d.data, src := d.src, target := .socket d.dst, inboundTag := tag }

namespace TunUdp

/-- `sessions.entry(key).or_insert_with`: the reply channel of the flow.  A new one has a task that
    holds the source of the packet. -/
def sessionOf (s : TunUdp) (key : SocketAddr × SocketAddr) : Nat × TunUdp :=
  match s.udpSessions key with
  | some entry =>
      (entry.replyTx,
        { s with
          udpSessions := Function.update s.udpSessions key (some { entry with lastSeen := s.now }) })
  | none =>
      (s.tasks.length,
        { s with
          udpSessions := Function.update s.udpSessions key (some ⟨s.tasks.length, s.now⟩)
          tasks := s.tasks ++ [key.1] })

/-- `dispatch_udp`. -/
def dispatchUdp (s : TunUdp) (tag : Str) (d : Datagram) : TunUdp :=
  let (replyTx, s) := s.sessionOf (d.src, d.dst)
  { s with dispatched := s.dispatched ++ [(d.inbound tag, replyTx)] }

/-- The reply task of a channel takes a reply.  It does not look at the spoofed source. -/
def reply (s : TunUdp) (replyTx : Nat) (r : Reply) : Option TunUdp :=
  s.tasks[replyTx]?.map fun src =>
    match buildUdpReplyPacket r.addr src r.data with
    | some pkt => { s with written := s.written ++ [pkt] }
    | none => s

/-- A packet is read, a reply arrives at a reply task, the table is collected, or time passes. -/
inductive Action where
  | packet (raw : Bytes)
  | reply (replyTx : Nat) (r : Reply)
  | gc
  | tick (elapsed : Nat)
  deriving DecidableEq

/-- One step of the inbound with the given tag and idle timeout. -/
def step (tag : Str) (timeout : Nat) (s : TunUdp) : Action → Option TunUdp
  | .packet raw =>
      match readUdp raw with
      | some d => some (s.dispatchUdp tag d)
      | none => some s
  | .reply replyTx r => s.reply replyTx r
  | .gc =>
      some { s with
        udpSessions := fun key => (s.udpSessions key).filter fun e => s.now - e.lastSeen < timeout }
  | .tick elapsed => some { s with now := s.now + elapsed }

/-- A reply is written to the device as a packet that reads as `d`. -/
def WritesBack (s : TunUdp) (replyTx : Nat) (r : Reply) (d : Datagram) : Prop :=
  ∃ pkt s', s.reply replyTx r = some s' ∧ s'.written = s.written ++ [pkt] ∧ readUdp pkt = some d

/-- The tasks belong to the clients: that of a session, and that of a packet handed on. -/
structure Inv (s : TunUdp) : Prop where
  sessions : ∀ key entry, s.udpSessions key = some entry → s.tasks[entry.replyTx]? = some key.1
  dispatched : ∀ p ∈ s.dispatched, s.tasks[p.2]? = some p.1.src

/-! ### What the steps do -/

variable {s s' : TunUdp}

theorem inv_new : Inv {} := ⟨fun _ _ h => (nomatch h), fun _ h => (nomatch h)⟩

/-- A task stays where it is when another is added. -/
private theorem task_append {tasks : List SocketAddr} {i : Nat} {src : SocketAddr}
    (h : tasks[i]? = some src) (new : SocketAddr) : (tasks ++ [new])[i]? = some src := by
  rw [List.getElem?_append_left (List.getElem?_eq_some_iff.mp h).1, h]

/-- The channel that a flow is given has a task for its source. -/
theorem sessionOf_spec (hs : s.Inv) (key : SocketAddr × SocketAddr) :
    (s.sessionOf key).2.Inv ∧ (s.sessionOf key).2.tasks[(s.sessionOf key).1]? = some key.1 ∧
      (s.sessionOf key).2.dispatched = s.dispatched := by
  rcases hkey : s.udpSessions key with _ | entry <;> simp only [sessionOf, hkey]
  · have hlast : (s.tasks ++ [key.1])[s.tasks.length]? = some key.1 := List.getElem?_concat_length
    refine ⟨⟨fun key' entry' h => ?_, fun p hp => task_append (hs.dispatched p hp) _⟩, hlast,
      trivial⟩
    rcases update_eq_some h with ⟨rfl, rfl⟩ | ⟨-, h⟩
    · exact hlast
    · exact task_append (hs.sessions key' entry' h) _
  · have htask := hs.sessions key entry hkey
    refine ⟨⟨fun key' entry' h => ?_, hs.dispatched⟩, htask, trivial⟩
    rcases update_eq_some h with ⟨rfl, rfl⟩ | ⟨-, h⟩
    · exact htask
    · exact hs.sessions key' entry' h

/-- What a step can do: hand a datagram that it can read to the dispatcher, or drop sessions and nothing else. -/
theorem step_cases {tag : Str} {timeout : Nat} {a : Action} (h : step tag timeout s a = some s') :
    (∃ raw d, a = .packet raw ∧ readUdp raw = some d ∧ s' = s.dispatchUdp tag d) ∨
      ((∀ raw, a = .packet raw → readUdp raw = none) ∧ s'.tasks = s.tasks ∧
        s'.dispatched = s.dispatched ∧
        ∀ key entry, s'.udpSessions key = some entry → s.udpSessions key = some entry) := by
  cases a with
  | packet raw =>
      rcases hread : readUdp raw with _ | d <;> simp only [step, hread] at h
      · obtain rfl := Option.some.inj h
        refine .inr ⟨fun raw' hraw => ?_, rfl, rfl, fun _ _ h => h⟩
        rw [← Action.packet.inj hraw, hread]
      · exact .inl ⟨raw, d, rfl, hread, (Option.some.inj h).symm⟩
  | reply replyTx r =>
      obtain ⟨src, -, rfl⟩ := Option.map_eq_some_iff.mp h
      refine .inr ⟨fun raw hraw => (nomatch hraw), ?_⟩
      split
      · exact ⟨rfl, rfl, fun _ _ h => h⟩
      · exact ⟨rfl, rfl, fun _ _ h => h⟩
  | gc =>
      obtain rfl := Option.some.inj h
      refine .inr ⟨fun raw hraw => (nomatch hraw), rfl, rfl, fun key entry hentry => ?_⟩
      exact (Option.filter_eq_some_iff.mp hentry).1
  | tick elapsed =>
      obtain rfl := Option.some.inj h
      exact .inr ⟨fun raw hraw => (nomatch hraw), rfl, rfl, fun _ _ h => h⟩

theorem Inv.step {tag : Str} {timeout : Nat} {a : Action} (h : step tag timeout s a = some s')
    (hs : s.Inv) : s'.Inv := by
  rcases step_cases h with ⟨raw, d, -, -, rfl⟩ | ⟨-, htasks, hdispatched, hsessions⟩
  · obtain ⟨hinv, htask, -⟩ := sessionOf_spec hs (d.src, d.dst)
    refine ⟨hinv.sessions, fun p hp => ?_⟩
    rcases List.mem_append.mp hp with hp | hp
    · exact hinv.dispatched p hp
    · rw [List.mem_singleton.mp hp]
      exact htask
  · refine ⟨fun key entry hentry => ?_, fun p hp => ?_⟩
    · rw [htasks]
      exact hs.sessions key entry (hsessions key entry hentry)
    · rw [htasks]
      exact hs.dispatched p (hdispatched ▸ hp)

/-- What has been handed to the dispatcher stays so. -/
theorem dispatched_step {tag : Str} {timeout : Nat} {a : Action}
    (h : TunUdp.step tag timeout s a = some s') (hs : s.Inv) {p : InboundUdpPacket × Nat}
    (hp : p ∈ s.dispatched) : p ∈ s'.dispatched := by
  rcases step_cases h with ⟨raw, d, -, -, rfl⟩ | ⟨-, -, hdispatched, -⟩
  · obtain ⟨-, -, hsame⟩ := sessionOf_spec hs (d.src, d.dst)
    refine List.mem_append_left _ (?_ : p ∈ (s.sessionOf (d.src, d.dst)).2.dispatched)
    rw [hsame]
    exact hp
  · rw [hdispatched]
    exact hp

/-- Every packet that was read has been handed on. -/
theorem dispatched_of_read {tag : Str} {timeout : Nat} {acts : List Action} {raw : Bytes}
    {d : Datagram} (hrun : run (TunUdp.step tag timeout) {} acts = some s)
    (hraw : .packet raw ∈ acts) (hread : readUdp raw = some d) :
    ∃ replyTx, (d.inbound tag, replyTx) ∈ s.dispatched := by
  obtain ⟨before, later, rfl⟩ := List.append_of_mem hraw
  obtain ⟨t, ht, hrest⟩ := run_append_eq_some.mp hrun
  obtain ⟨u, hu, hlater⟩ := Option.bind_eq_some_iff.mp hrest
  have hinv : t.Inv := invariant_of_steps (fun _ _ _ => Inv.step) ht inv_new
  obtain ⟨raw', d', hraw', hread', rfl⟩ | ⟨hnone, -⟩ := step_cases hu
  · obtain rfl := Action.packet.inj hraw'
    obtain rfl : d = d' := Option.some.inj (hread.symm.trans hread')
    refine ⟨(t.sessionOf (d.src, d.dst)).1, ?_⟩
    have hkeep : ∀ u a u', TunUdp.step tag timeout u a = some u' →
        u.Inv ∧ (d.inbound tag, (t.sessionOf (d.src, d.dst)).1) ∈ u.dispatched →
        u'.Inv ∧ (d.inbound tag, (t.sessionOf (d.src, d.dst)).1) ∈ u'.dispatched :=
      fun u a u' hstep h => ⟨h.1.step hstep, dispatched_step hstep h.1 h.2⟩
    exact (invariant_of_steps hkeep hlater
      ⟨hinv.step hu, List.mem_append_right _ (List.mem_singleton.mpr rfl)⟩).2
  · rw [hnone raw rfl] at hread
    cases hread

/-- A reply that follows the convention is written as a packet from the client to the client. -/
theorem writesBack_iff (hs : s.Inv) {packet : InboundUdpPacket} {replyTx : Nat}
    (hp : (packet, replyTx) ∈ s.dispatched) (data : Bytes) (spoofedSrc : SocketAddr) (d : Datagram) :
    s.WritesBack replyTx ⟨data, packet.src, spoofedSrc⟩ d ↔
      d = ⟨packet.src, packet.src, data.take ((8 + data.length) % 2 ^ 16 - 8)⟩ := by
  have htask : s.tasks[replyTx]? = some packet.src := hs.dispatched _ hp
  obtain ⟨pkt, hpkt⟩ : ∃ pkt, buildUdpReplyPacket packet.src packet.src data = some pkt := by
    rcases hip : packet.src.ip with a | a <;> simp [buildUdpReplyPacket, hip]
  have hread := readUdp_build hpkt
  have hreply : s.reply replyTx ⟨data, packet.src, spoofedSrc⟩
      = some { s with written := s.written ++ [pkt] } := by
    rw [reply, htask, Option.map_some, hpkt]
  constructor
  · rintro ⟨pkt', s', hs', hwritten, hd⟩
    obtain rfl := Option.some.inj (hreply.symm.trans hs')
    obtain rfl := List.singleton_injective (List.append_cancel_left hwritten)
    exact Option.some.inj (hd.symm.trans hread)
  · rintro rfl
    exact ⟨pkt, _, hreply, rfl, hread⟩

/-- **Replies to the device.** Every UDP packet that was read has been handed on with a reply
    channel, and a reply that an outbound sends through it, with the client's address in the second
    place, is written back as a packet from the destination to the source with that payload exactly
    when the two are the same and the length field can hold the payload. -/
theorem reply_written_iff {tag : Str} {timeout : Nat} {acts : List Action} {raw : Bytes}
    {d : Datagram} (hrun : run (TunUdp.step tag timeout) {} acts = some s)
    (hraw : .packet raw ∈ acts) (hread : readUdp raw = some d) :
    (∃ replyTx, (d.inbound tag, replyTx) ∈ s.dispatched) ∧
      ∀ replyTx, (d.inbound tag, replyTx) ∈ s.dispatched → ∀ payload spoofedSrc,
        (s.WritesBack replyTx ⟨payload, d.src, spoofedSrc⟩ ⟨d.dst, d.src, payload⟩ ↔
          d.src = d.dst ∧ payload.length + 8 < 2 ^ 16) := by
  have hinv : s.Inv := invariant_of_steps (fun _ _ _ => Inv.step) hrun inv_new
  refine ⟨dispatched_of_read hrun hraw hread, fun replyTx hp payload spoofedSrc => ?_⟩
  refine (writesBack_iff hinv hp payload spoofedSrc ⟨d.dst, d.src, payload⟩).trans ?_
  rw [Datagram.inbound, Datagram.mk.injEq, ← take_wrapped_eq_iff payload]
  constructor
  · rintro ⟨hdst, -, hdata⟩
    exact ⟨hdst.symm, hdata.symm⟩
  · rintro ⟨hdst, hdata⟩
    exact ⟨hdst.symm, rfl, hdata.symm⟩

/-- A query from 10.0.0.2:5000 to 10.0.0.1:53, without checksums. -/
def someQuery : Bytes :=
  [0x45, 0, 0, 29, 0, 0, 0x40, 0, 64, 17, 0, 0, 10, 0, 0, 2, 10, 0, 0, 1,
    0x13, 0x88, 0, 53, 0, 9, 0, 0, 0xAB]

/-- The same packet from and to 10.0.0.2:5000. -/
def someEcho : Bytes :=
  [0x45, 0, 0, 29, 0, 0, 0x40, 0, 64, 17, 0, 0, 10, 0, 0, 2, 10, 0, 0, 2,
    0x13, 0x88, 0x13, 0x88, 0, 9, 0, 0, 0xAB]

/-- 10.0.0.2:5000. -/
def someClient : SocketAddr := ⟨.v4 0x0A000002#32, 5000⟩

/-- 10.0.0.1:53. -/
def someServer : SocketAddr := ⟨.v4 0x0A000001#32, 53⟩

theorem reply_written_iff_echo :
    ∃ s, run (TunUdp.step [] 300) {} [.packet someEcho] = some s ∧
      ∃ replyTx, s.WritesBack replyTx ⟨[0xCD], someClient, someClient⟩
        ⟨someClient, someClient, [0xCD]⟩ := by
  have hread : readUdp someEcho = some ⟨someClient, someClient, [0xAB]⟩ := by decide
  obtain ⟨s, hrun⟩ := Option.isSome_iff_exists.mp
    (show (run (TunUdp.step [] 300) {} [.packet someEcho]).isSome = true by decide)
  obtain ⟨⟨replyTx, hp⟩, hiff⟩ := reply_written_iff hrun (List.mem_singleton.mpr rfl) hread
  exact ⟨s, hrun, replyTx, (hiff replyTx hp [0xCD] someClient).mpr ⟨rfl, by decide⟩⟩

/-- The answer to a query is written as a packet from the client to itself. -/
theorem reply_written_query :
    readUdp someQuery = some ⟨someClient, someServer, [0xAB]⟩ ∧
      ∃ s replyTx, run (TunUdp.step [] 300) {} [.packet someQuery] = some s ∧
        ((⟨someClient, someServer, [0xAB]⟩ : Datagram).inbound [], replyTx) ∈ s.dispatched ∧
        s.WritesBack replyTx ⟨[0xCD], someClient, someServer⟩ ⟨someClient, someClient, [0xCD]⟩ ∧
        ¬ s.WritesBack replyTx ⟨[0xCD], someClient, someServer⟩
          ⟨someServer, someClient, [0xCD]⟩ := by
  have hread : readUdp someQuery = some ⟨someClient, someServer, [0xAB]⟩ := by decide
  obtain ⟨s, hrun⟩ := Option.isSome_iff_exists.mp
    (show (run (TunUdp.step [] 300) {} [.packet someQuery]).isSome = true by decide)
  have hinv : s.Inv := invariant_of_steps (fun _ _ _ => Inv.step) hrun inv_new
  obtain ⟨replyTx, hp⟩ := dispatched_of_read hrun (List.mem_singleton.mpr rfl) hread
  refine ⟨hread, s, replyTx, hrun, hp, (writesBack_iff hinv hp ..).mpr rfl, fun h => ?_⟩
  exact absurd ((writesBack_iff hinv hp ..).mp h) (by decide)

end TunUdp

end Reflex.Inbound
