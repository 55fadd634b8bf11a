import Reflex.Inbound.TunChecksums
import Reflex.Inbound.TunUdp

namespace Reflex.Inbound

open RustStd OnesComplement

/-!
# Inbounds — the packets of UDP replies

`build_udp_reply_packet` of `inbound/tun.rs`, for all endpoints and payloads.

* `udpSummed_verifies` — the checksum of a datagram verifies, however long the payload is said to be;
* `toNat_udpChecksum_eq_zero_iff` — it is zero when the sum is a multiple of `0xFFFF`: zero is not
  replaced by `0xFFFF`;
* `buildUdpReplyPacket_wellFormed_iff` — when a reply is what it should be.
-/

/-! ### Well-formed replies -/

/-- The version of the packets that carry an address. -/
def ipVersion : IpAddr → Version
  | .v4 _ => .v4
  | .v6 _ => .v6

/-- The length of the IP header of a reply. -/
def Version.replyHeaderLen : Version → Nat
  | .v4 => 20
  | .v6 => 40

/-- The pseudo header for the UDP checksum of a packet. -/
def udpPseudoHeader (v : Version) (pkt : Bytes) : Bytes :=
  match v with
  | .v4 => slice pkt 12 4 ++ slice pkt 16 4 ++ [0, ipprotoUdp] ++ beBytes 2 (pkt.drop 20).length
  | .v6 => slice pkt 8 16 ++ slice pkt 24 16 ++ beBytes 4 (pkt.drop 40).length
      ++ [0, 0, 0, ipprotoUdp]

/-- The length that the IP header should state: of the packet, or of what follows the header. -/
def Version.ipLengthField (v : Version) (pkt : Bytes) : Prop :=
  match v with
  | .v4 => (portAt pkt 2).toNat = pkt.length
  | .v6 => (portAt pkt 4).toNat = pkt.length - 40

/-- A packet as a reply with `payload` from `src` to `dst` should be: its lengths are the real ones, its
    checksums verify, the UDP checksum is not zero, which would stand for none, and it reads as what was
    put into it.  The addition for the IPv4 length does not overflow. -/
structure WellFormedReply (v : Version) (src dst : SocketAddr) (payload pkt : Bytes) : Prop where
  ipLength : v.ipLengthField pkt
  udpLength : (portAt pkt (v.replyHeaderLen + 4)).toNat = pkt.length - v.replyHeaderLen
  header : v = .v4 → Verifies (pkt.take 20)
  segment : Verifies (udpPseudoHeader v pkt ++ pkt.drop v.replyHeaderLen)
  checksum : portAt pkt (v.replyHeaderLen + 6) ≠ 0
  read : readUdp pkt = some ⟨src, dst, payload⟩
  noOverflow : v = .v4 → 20 + (UInt16.ofNat (8 + payload.length)).toNat < 2 ^ 16

/-- The longest payload that the length fields can describe. -/
def Version.maxPayload : Version → Nat
  | .v4 => 65507
  | .v6 => 65527

/-- The sum of the words of a reply that its UDP checksum covers. -/
def replyWords (src dst : SocketAddr) (payload : Bytes) : Nat :=
  sumWords (ipOctets src.ip) + sumWords (ipOctets dst.ip) + ipprotoUdp.toNat + src.port.toNat
    + dst.port.toNat + 2 * (8 + payload.length) + sumWords payload

/-! ### The datagram -/

section Datagram

variable (srcPort dstPort : UInt16) (payload : Bytes)

/-- The datagram before its checksum is computed. -/
def udpZeroed : Bytes := udpUnsummed srcPort dstPort (UInt16.ofNat (8 + payload.length)) payload

theorem length_udpZeroed : (udpZeroed srcPort dstPort payload).length = 8 + payload.length := by
  simp only [udpZeroed, udpUnsummed, List.length_append, length_portBytes, List.length_cons,
    List.length_nil]

theorem length_udpSummed (sum : UInt16) :
    (udpSummed srcPort dstPort sum payload).length = 8 + payload.length := by
  simp only [udpSummed, List.length_append, length_portBytes]
  omega

theorem sumWords_udpZeroed : sumWords (udpZeroed srcPort dstPort payload)
    = srcPort.toNat + dstPort.toNat + (UInt16.ofNat (8 + payload.length)).toNat + sumWords payload := by
  have hzeros : sumWords [0x00, 0x00] = 0 := rfl
  simp only [udpZeroed, udpUnsummed, List.append_assoc]
  rw [sumWords_append (by rw [length_portBytes]), sumWords_append (by rw [length_portBytes]),
    sumWords_append (by rw [length_portBytes]), sumWords_append rfl, hzeros, sumWords_portBytes,
    sumWords_portBytes, sumWords_portBytes]
  omega

/-- **The checksum** of a datagram verifies. -/
theorem udpSummed_verifies {pseudo : Bytes} (heven : pseudo.length % 2 = 0)
    (hfits : sumWords pseudo + sumWords (udpZeroed srcPort dstPort payload) < 2 ^ 32) :
    Verifies (pseudo ++ udpSummed srcPort dstPort
      (finishChecksum (sumWords pseudo + sumWords (udpZeroed srcPort dstPort payload))) payload) := by
  set zeroed := udpZeroed srcPort dstPort payload with hzeroed
  set sum := finishChecksum (sumWords pseudo + sumWords zeroed) with hsum
  have hcopy : copyFromSlice zeroed 6 (portBytes sum) = udpSummed srcPort dstPort sum payload := by
    have hfront := @copyFromSlice_udpUnsummed [] srcPort dstPort sum payload
    rwa [List.nil_append, List.nil_append, List.length_nil, Nat.zero_add] at hfront
  have hzero : slice zeroed 6 2 = [0, 0] := by
    have hsplit : zeroed = (portBytes srcPort ++ portBytes dstPort
        ++ portBytes (UInt16.ofNat (8 + payload.length))) ++ ([0x00, 0x00] ++ payload) := by
      simp only [hzeroed, udpZeroed, udpUnsummed, List.append_assoc]
    rw [hsplit]
    exact slice_middle (by simp) rfl
  have hlen : 6 + 2 ≤ zeroed.length := by
    rw [hzeroed, length_udpZeroed]
    omega
  rw [Verifies, sumWords_append heven, ← hcopy, hsum]
  exact foldCarries_summed (by decide) hlen hzero hfits

end Datagram

/-! ### The packet -/

/-- The parts of a packet that is built: the IP header in `front`, and the pseudo header that the UDP
    checksum is computed with. -/
structure ReplyParts (v : Version) (src dst : SocketAddr) (payload pkt front pseudo : Bytes) : Prop where
  eq : pkt = front ++ udpSummed src.port dst.port (finishChecksum
    (sumWords pseudo + sumWords (udpZeroed src.port dst.port payload))) payload
  length_front : front.length = v.replyHeaderLen
  ipLength : v.ipLengthField pkt ↔ 8 + payload.length < 2 ^ 16 ∧ payload.length ≤ v.maxPayload
  header : v = .v4 → Verifies front
  pseudo_eq : udpPseudoHeader v pkt = pseudo
  even_pseudo : pseudo.length % 2 = 0
  sum_pseudo : 8 + payload.length < 2 ^ 16 → sumWords pseudo = sumWords (ipOctets src.ip)
    + sumWords (ipOctets dst.ip) + ipprotoUdp.toNat + (8 + payload.length)

theorem buildUdpReplyV4_parts (src dst : Ipv4Addr) (srcPort dstPort : UInt16) (payload : Bytes) :
    ∃ front pseudo, ReplyParts .v4 ⟨.v4 src, srcPort⟩ ⟨.v4 dst, dstPort⟩ payload
      (buildUdpReplyV4 src srcPort dst dstPort payload) front pseudo := by
  set totalLen : UInt16 := 20 + UInt16.ofNat (8 + payload.length) with htotal
  set zeroed : Bytes := [0x45, 0x00] ++ portBytes totalLen
    ++ [0x00, 0x00, 0x40, 0x00, 64, ipprotoUdp, 0x00, 0x00] ++ src.octets ++ dst.octets with hzeroed
  have hzlen : zeroed.length = 20 := by simp [hzeroed]
  set front := copyFromSlice zeroed 10 (portBytes (internetChecksum zeroed)) with hfront
  have hfields : EqOutside _ zeroed front :=
    eqOutside_copyFromSlice (length_beBytes 2 _) (by rw [hzlen]; decide)
  have hflen : front.length = 20 := hfields.length_eq.trans hzlen
  set pseudo := src.octets ++ dst.octets ++ [0, ipprotoUdp] ++ beBytes 2 (8 + payload.length) with hpseudo
  have hpkt : buildUdpReplyV4 src srcPort dst dstPort payload
      = front ++ udpSummed srcPort dstPort (finishChecksum
        (sumWords pseudo + sumWords (udpZeroed srcPort dstPort payload))) payload := by
    have hlen := length_udpZeroed srcPort dstPort payload
    have htake : zeroed.take 20 = zeroed := List.take_of_length_le hzlen.le
    have hdrop : (front ++ udpZeroed srcPort dstPort payload).drop front.length
        = udpZeroed srcPort dstPort payload := List.drop_left
    rw [buildUdpReplyV4, copyFromSlice_udpUnsummed, ← htotal, ← hzeroed, htake, ← hfront]
    rw [← udpZeroed, hdrop, udpChecksumV4, checksumWithPseudoV4, hlen]
  -- the fields of the header, in front of which the checksum is not
  have hsrc : slice front 12 4 = src.octets := by
    rw [hfields.slice_eq fun i hlo _ hc => by omega, hzeroed, List.append_assoc _ src.octets]
    exact slice_middle (by simp) src.length_octets
  have hdst : slice front 16 4 = dst.octets := by
    rw [hfields.slice_eq fun i hlo _ hc => by omega, hzeroed, ← List.append_nil dst.octets]
    exact slice_middle (by simp) dst.length_octets
  have hlenField : portAt front 2 = totalLen := by
    apply portAt_of_slice
    rw [hfields.slice_eq fun i _ hhi hc => by omega, hzeroed]
    simp only [List.append_assoc]
    exact slice_middle rfl (length_portBytes _)
  have hzero : slice zeroed 10 2 = [0, 0] := by
    have hsplit : zeroed = ([0x45, 0x00] ++ portBytes totalLen
        ++ [0x00, 0x00, 0x40, 0x00, 64, ipprotoUdp]) ++ ([0, 0] ++ (src.octets ++ dst.octets)) := by
      simp only [hzeroed, List.append_assoc, List.cons_append, List.nil_append]
    rw [hsplit]
    exact slice_middle (by simp) rfl
  have hfits : 0 + sumWords zeroed < 2 ^ 32 := by
    have hsum := sumWords_le zeroed
    rw [hzlen] at hsum
    omega
  refine ⟨front, pseudo, hpkt, hflen, ?_, fun _ => ?_, ?_, by simp [hpseudo], fun hshort => ?_⟩
  · rw [hpkt]
    show (portAt (front ++ _) 2).toNat = (front ++ _).length ↔ _
    rw [portAt, slice_append_left (by omega), ← portAt, hlenField, List.length_append, hflen,
      length_udpSummed, htotal, UInt16.toNat_add, UInt16.toNat_ofNat']
    show (20 + (8 + payload.length) % 2 ^ 16) % 2 ^ 16 = _ ↔ _ ∧ payload.length ≤ 65507
    omega
  · have hverifies := foldCarries_summed (by decide) (by rw [hzlen]; decide) hzero hfits
    rw [Nat.zero_add, Nat.zero_add] at hverifies
    rw [Verifies, hfront, internetChecksum, hverifies]
  · rw [hpkt, udpPseudoHeader, slice_append_left (by omega), slice_append_left (by omega), hsrc, hdst,
      List.drop_left' hflen, length_udpSummed]
  · have hproto : sumWords [0, ipprotoUdp] = ipprotoUdp.toNat := rfl
    rw [hpseudo, List.append_assoc, List.append_assoc, sumWords_append (by simp),
      sumWords_append (by simp), sumWords_append rfl, sumWords_beBytes_two, hproto,
      Nat.mod_eq_of_lt hshort]
    simp only [ipOctets, Nat.add_assoc]

theorem buildUdpReplyV6_parts (src dst : Ipv6Addr) (srcPort dstPort : UInt16) (payload : Bytes) :
    ∃ front pseudo, ReplyParts .v6 ⟨.v6 src, srcPort⟩ ⟨.v6 dst, dstPort⟩ payload
      (buildUdpReplyV6 src srcPort dst dstPort payload) front pseudo := by
  set udpLen : UInt16 := UInt16.ofNat (8 + payload.length) with hudpLen
  set front : Bytes := [0x60, 0x00, 0x00, 0x00] ++ portBytes udpLen ++ [ipprotoUdp, 64]
    ++ src.octets ++ dst.octets with hfront
  have hflen : front.length = 40 := by simp [hfront]
  set pseudo := src.octets ++ dst.octets ++ beBytes 4 (8 + payload.length) ++ [0, 0, 0, ipprotoUdp]
    with hpseudo
  -- the packet is its front and the datagram with the checksum in it
  have hpkt : buildUdpReplyV6 src srcPort dst dstPort payload
      = front ++ udpSummed srcPort dstPort (finishChecksum
        (sumWords pseudo + sumWords (udpZeroed srcPort dstPort payload))) payload := by
    have hlen := length_udpZeroed srcPort dstPort payload
    have hdrop : (front ++ udpZeroed srcPort dstPort payload).drop front.length
        = udpZeroed srcPort dstPort payload := List.drop_left
    rw [buildUdpReplyV6, copyFromSlice_udpUnsummed, ← hudpLen, ← hfront]
    rw [← udpZeroed, hdrop, udpChecksumV6, checksumWithPseudoV6_eq (by simp) (by simp), hlen]
  -- where the front has the addresses and the length
  have hsrc : slice front 8 16 = src.octets := by
    rw [hfront, List.append_assoc _ src.octets]
    exact slice_middle (by simp) src.length_octets
  have hdst : slice front 24 16 = dst.octets := by
    rw [hfront, ← List.append_nil dst.octets]
    exact slice_middle (by simp) dst.length_octets
  have hlenField : portAt front 4 = udpLen := by
    apply portAt_of_slice
    rw [hfront]
    simp only [List.append_assoc]
    exact slice_middle rfl (length_portBytes _)
  refine ⟨front, pseudo, hpkt, hflen, ?_, fun hv => absurd hv (by decide), ?_, by simp [hpseudo],
    fun hshort => ?_⟩
  · rw [hpkt]
    show (portAt (front ++ _) 4).toNat = (front ++ _).length - 40 ↔ _
    rw [portAt, slice_append_left (by omega), ← portAt, hlenField, List.length_append, hflen,
      length_udpSummed, hudpLen, UInt16.toNat_ofNat']
    -- the length field is narrowed to 16 bits
    show (8 + payload.length) % 2 ^ 16 = _ ↔ _ ∧ payload.length ≤ 65527
    omega
  · have hread : ∀ rest pos len, pos + len ≤ 40 → slice (front ++ rest) pos len = slice front pos len :=
      fun rest pos len h => slice_append_left (hflen.symm ▸ h)
    rw [hpkt, udpPseudoHeader, hread _ 8 16 (by decide), hread _ 24 16 (by decide), hsrc, hdst,
      List.drop_left' hflen, length_udpSummed]
  · -- the sum over the pseudo-header, part by part
    have hproto : sumWords [0, 0, 0, ipprotoUdp] = ipprotoUdp.toNat := rfl
    rw [hpseudo, List.append_assoc, List.append_assoc, sumWords_append (by simp),
      sumWords_append (by simp), sumWords_append (by simp), hproto,
      sumWords_beBytes_four hshort, ipOctets, ipOctets]
    omega

theorem buildUdpReplyPacket_parts {src dst : SocketAddr} (h : ipVersion src.ip = ipVersion dst.ip)
    (payload : Bytes) : ∃ pkt front pseudo, buildUdpReplyPacket src dst payload = some pkt ∧
      ReplyParts (ipVersion src.ip) src dst payload pkt front pseudo := by
  obtain ⟨srcIp, srcPort⟩ := src
  obtain ⟨dstIp, dstPort⟩ := dst
  rcases srcIp with s | s <;> rcases dstIp with d | d
  · obtain ⟨front, pseudo, hparts⟩ := buildUdpReplyV4_parts s d srcPort dstPort payload
    exact ⟨_, front, pseudo, rfl, hparts⟩
  · cases h
  · cases h
  · obtain ⟨front, pseudo, hparts⟩ := buildUdpReplyV6_parts s d srcPort dstPort payload
    exact ⟨_, front, pseudo, rfl, hparts⟩

theorem buildUdpReplyPacket_eq_none {src dst : SocketAddr} (h : ipVersion src.ip ≠ ipVersion dst.ip)
    (payload : Bytes) : buildUdpReplyPacket src dst payload = none := by
  obtain ⟨srcIp, srcPort⟩ := src
  obtain ⟨dstIp, dstPort⟩ := dst
  rcases srcIp with s | s <;> rcases dstIp with d | d
  · exact absurd rfl h
  · rfl
  · rfl
  · exact absurd rfl h

theorem Version.maxPayload_le (v : Version) : v.maxPayload ≤ 65527 := by
  cases v <;> decide

/-- **The sum** that the UDP checksum is computed from, of a payload that fits. -/
theorem ReplyParts.sum_eq {v : Version} {src dst : SocketAddr} {payload pkt front pseudo : Bytes}
    (h : ReplyParts v src dst payload pkt front pseudo) (hfit : payload.length ≤ v.maxPayload) :
    sumWords pseudo + sumWords (udpZeroed src.port dst.port payload) = replyWords src dst payload ∧
      replyWords src dst payload < 2 ^ 32 ∧ replyWords src dst payload ≠ 0 := by
  have hshort : 8 + payload.length < 2 ^ 16 := by
    have := v.maxPayload_le
    omega
  have hsum : sumWords pseudo + sumWords (udpZeroed src.port dst.port payload)
      = replyWords src dst payload := by
    rw [h.sum_pseudo hshort, sumWords_udpZeroed, UInt16.toNat_ofNat_of_lt' hshort, replyWords]
    omega
  have hsrc : (ipOctets src.ip).length ≤ 16 := by cases src.ip <;> simp [ipOctets]
  have hdst : (ipOctets dst.ip).length ≤ 16 := by cases dst.ip <;> simp [ipOctets]
  have hsrcSum := sumWords_le (ipOctets src.ip)
  have hdstSum := sumWords_le (ipOctets dst.ip)
  have hpayload := sumWords_le payload
  have hsrcPort := src.port.toNat_lt
  have hdstPort := dst.port.toNat_lt
  have hproto : ipprotoUdp.toNat = 17 := rfl
  refine ⟨hsum, ?_, ?_⟩
  · rw [replyWords]
    omega
  · rw [replyWords]
    omega

/-- Zero is computed, and written, for the sums that are a multiple of `0xFFFF`. -/
theorem toNat_udpChecksum_eq_zero_iff {sum : Nat} (hfits : sum < 2 ^ 32) (hsum : sum ≠ 0) :
    finishChecksum sum = 0 ↔ 0xFFFF ∣ sum := by
  rw [← UInt16.toNat_inj, toNat_finishChecksum hfits]
  exact (complement_eq_zero_iff (by decide)).trans (and_iff_right hsum)

/-- The fields of the UDP header, behind the IP header. -/
theorem ReplyParts.ports {v : Version} {src dst : SocketAddr} {payload pkt front pseudo : Bytes}
    (h : ReplyParts v src dst payload pkt front pseudo) :
    portAt pkt (v.replyHeaderLen + 4) = UInt16.ofNat (8 + payload.length) ∧
      portAt pkt (v.replyHeaderLen + 6) = finishChecksum
        (sumWords pseudo + sumWords (udpZeroed src.port dst.port payload)) ∧
      pkt.length = v.replyHeaderLen + (8 + payload.length) := by
  have hfront := h.length_front
  rw [h.eq]
  refine ⟨?_, ?_, ?_⟩
  · rw [udpSummed, ← List.append_assoc, ← List.append_assoc]
    exact portAt_middle (by simp [hfront]) _ _
  · rw [udpSummed, ← List.append_assoc, ← List.append_assoc, ← List.append_assoc]
    exact portAt_middle (by simp [hfront]) _ _
  · rw [List.length_append, length_udpSummed, hfront]

/-- **A built packet** is well-formed exactly when the payload fits and the UDP checksum is not zero. -/
theorem ReplyParts.wellFormed_iff {v : Version} {src dst : SocketAddr}
    {payload pkt front pseudo : Bytes} (h : ReplyParts v src dst payload pkt front pseudo)
    (hbuild : buildUdpReplyPacket src dst payload = some pkt) :
    WellFormedReply v src dst payload pkt ↔
      payload.length ≤ v.maxPayload ∧ ¬ 0xFFFF ∣ replyWords src dst payload := by
  obtain ⟨hudpLen, hchecksum, hlen⟩ := h.ports
  constructor
  · intro hw
    have hfit := (h.ipLength.mp hw.ipLength).2
    -- a checksum of zero means none, and comes out where the words cancel
    obtain ⟨hsum, hfits, hpos⟩ := h.sum_eq hfit
    refine ⟨hfit, fun hdvd => hw.checksum ?_⟩
    rw [hchecksum, hsum]
    exact (toNat_udpChecksum_eq_zero_iff hfits hpos).mpr hdvd
  · rintro ⟨hfit, hdvd⟩
    obtain ⟨hsum, hfits, hpos⟩ := h.sum_eq hfit
    have hmax := v.maxPayload_le
    have hshort : 8 + payload.length < 2 ^ 16 := by omega
    have hword : (UInt16.ofNat (8 + payload.length)).toNat = 8 + payload.length :=
      UInt16.toNat_ofNat_of_lt' hshort
    have hdrop : pkt.drop v.replyHeaderLen = udpSummed src.port dst.port (finishChecksum
        (sumWords pseudo + sumWords (udpZeroed src.port dst.port payload))) payload := by
      rw [h.eq]
      exact List.drop_left' h.length_front
    refine ⟨h.ipLength.mpr ⟨hshort, hfit⟩, ?_, ?_, ?_, ?_, ?_, ?_⟩
    · rw [hudpLen, hword, hlen, Nat.add_sub_cancel_left]
    · rintro rfl
      have hfront : front.length = 20 := h.length_front
      rw [h.eq, List.take_left' hfront]
      exact h.header rfl
    · rw [h.pseudo_eq, hdrop]
      exact udpSummed_verifies _ _ _ h.even_pseudo (hsum ▸ hfits)
    · rw [hchecksum, hsum]
      exact mt (toNat_udpChecksum_eq_zero_iff hfits hpos).mp hdvd
    · rw [readUdp_build hbuild, (take_wrapped_eq_iff payload).mpr (by omega)]
    · rintro rfl
      have hfit : payload.length ≤ 65507 := hfit
      omega

/-- A reply is a well-formed packet, if there is one, exactly when the addresses are of different
    families, so that there is none, or the payload fits and its checksum is not computed as zero. -/
theorem buildUdpReplyPacket_wellFormed_iff (src dst : SocketAddr) (payload : Bytes) :
    (∀ pkt, buildUdpReplyPacket src dst payload = some pkt →
      WellFormedReply (ipVersion src.ip) src dst payload pkt) ↔
    (ipVersion src.ip ≠ ipVersion dst.ip ∨
      payload.length ≤ (ipVersion src.ip).maxPayload ∧ ¬ 0xFFFF ∣ replyWords src dst payload) := by
  by_cases hver : ipVersion src.ip = ipVersion dst.ip
  · obtain ⟨pkt, front, pseudo, hbuild, hparts⟩ := buildUdpReplyPacket_parts hver payload
    rw [or_iff_right (not_not.mpr hver), ← hparts.wellFormed_iff hbuild]
    constructor
    · exact fun h => h pkt hbuild
    · intro h pkt' hbuild'
      obtain rfl := Option.some.inj (hbuild.symm.trans hbuild')
      exact h
  · refine iff_of_true (fun pkt hbuild => ?_) (.inl hver)
    rw [buildUdpReplyPacket_eq_none hver] at hbuild
    cases hbuild

/-- Two bytes from 10.0.0.1:53 to 10.0.0.2:5000, with which all words add up to `0xFFFF`. -/
theorem not_wellFormed_zero_checksum :
    ¬ ∀ pkt, buildUdpReplyPacket TunUdp.someServer TunUdp.someClient [0xD8, 0x1A] = some pkt →
      WellFormedReply .v4 TunUdp.someServer TunUdp.someClient [0xD8, 0x1A] pkt := by
  intro h
  have hver : ipVersion TunUdp.someServer.ip = ipVersion TunUdp.someClient.ip := rfl
  obtain ⟨pkt, front, pseudo, hbuild, hparts⟩ := buildUdpReplyPacket_parts hver [0xD8, 0x1A]
  have hwell := (hparts.wellFormed_iff hbuild).mp (h pkt hbuild)
  exact absurd hwell.2 (by decide)

end Reflex.Inbound
