import Reflex.Inbound.TunChecksums

namespace Reflex.Inbound

open RustStd

/-!
# Inbounds — what the TUN device gets back

`process_ipv4` and `process_ipv6` of `inbound/tun.rs`, up to the packet that they write back to the
device: TCP packets are rewritten, and echo requests answered.  UDP packets are handed to the dispatcher
and nothing is written for them here.

A fragment of an IPv4 packet is dropped if it is one of TCP or UDP, and not if it is one of ICMP.  What
then looks like an echo request may be user data, if others come before it, and has a checksum over data
that this packet does not hold, if others follow (`Version.isFragment`).

* `summed_spec` — the checksums of a packet that is written, and what they leave as it was;
* `TunConfig.writeBack_eq` — what is written is the packet that was read, with other endpoints or
  another ICMP type, and with its checksums;
* `TunConfig.not_isFragment_of_intact` — an answered fragment is not sound;
* `TunConfig.writeBack_intact_iff` — a packet that is written is sound exactly when it is not a fragment
  and the words of the IPv4 options cancel out: the header checksum is the one of a header without
  options.
-/

/-- `IPPROTO_ICMP`. -/
def ipprotoIcmp : UInt8 := 1

/-- `IPPROTO_ICMPV6`. -/
def ipprotoIcmpv6 : UInt8 := 58

/-! ### Echo -/

/-- `handle_icmpv4`: the packet written back to the device, if any. -/
def handleIcmpv4 (raw : Bytes) (ihl : Nat) (srcIp dstIp : Ipv4Addr) (inet4Addr : Option Ipv4Addr) :
    Option Bytes :=
  let payload := raw.drop ihl
  if payload.length < 8 then none
  else if byteAt payload 0 ≠ 8 || byteAt payload 1 ≠ 0 then none
  else if inet4Addr.any fun selfAddr => dstIp ≠ selfAddr then none
  else
    let pkt := copyFromSlice raw 12 dstIp.octets
    let pkt := copyFromSlice pkt 16 srcIp.octets
    let pkt := copyFromSlice pkt ihl [0]
    let pkt := copyFromSlice pkt (ihl + 2) [0, 0]
    let pkt := copyFromSlice pkt (ihl + 2) (portBytes (internetChecksum (pkt.drop ihl)))
    some (recomputeIpv4Checksum pkt)

/-- `recompute_icmpv6_checksum`. -/
def recomputeIcmpv6Checksum (pkt : Bytes) : Bytes :=
  if pkt.length < 40 + 8 then pkt
  else
    let srcIp := slice pkt 8 16
    let dstIp := slice pkt 24 16
    let pkt := copyFromSlice pkt (40 + 2) [0, 0]
    copyFromSlice pkt (40 + 2)
      (portBytes (checksumWithPseudoV6 srcIp dstIp ipprotoIcmpv6 (pkt.drop 40)))

/-- `handle_icmpv6`. -/
def handleIcmpv6 (raw : Bytes) (srcIp dstIp : Ipv6Addr) (inet6Addr : Option Ipv6Addr) : Option Bytes :=
  if raw.length < 48 then none
  else if byteAt raw 40 ≠ 128 then none
  else if inet6Addr.any fun selfAddr => dstIp ≠ selfAddr then none
  else
    let pkt := copyFromSlice raw 8 dstIp.octets
    let pkt := copyFromSlice pkt 24 srcIp.octets
    let pkt := copyFromSlice pkt 40 [129]
    some (recomputeIcmpv6Checksum pkt)

namespace TunConfig

variable (cfg : TunConfig)

/-- `process_ipv4`, up to what is written back. -/
def writeBackV4 (s : Tun) (order : List UInt16) (raw : Bytes) : Option Bytes :=
  if raw.length < 20 then none
  else
    let ihl := (byteAt raw 0 &&& 0x0F).toNat * 4
    if raw.length < ihl || ihl < 20 then none
    else if byteAt raw 9 = ipprotoIcmp then
      handleIcmpv4 raw ihl (.ofOctets (slice raw 12 4)) (.ofOctets (slice raw 16 4)) cfg.inet4Addr
    else (cfg.processIpv4 s order raw).1

/-- `process_ipv6`, up to what is written back. -/
def writeBackV6 (s : Tun) (order : List UInt16) (raw : Bytes) : Option Bytes :=
  if raw.length < 40 then none
  else if byteAt raw 6 = ipprotoIcmpv6 then
    handleIcmpv6 raw (.ofOctets (slice raw 8 16)) (.ofOctets (slice raw 24 16)) cfg.inet6Addr
  else (cfg.processIpv6 s order raw).1

/-- The packet written back to the device for one that was read. -/
def writeBack (s : Tun) (order : List UInt16) (raw : Bytes) : Option Bytes :=
  match version raw with
  | some .v4 => cfg.writeBackV4 s order raw
  | some .v6 => cfg.writeBackV6 s order raw
  | none => none

end TunConfig

/-! ### Sound packets -/

/-- What is written back: TCP packets and echo replies. -/
inductive Transport where
  | tcp
  | icmp
  deriving DecidableEq, Repr

/-- The protocol number. -/
def Transport.proto : Transport → Version → UInt8
  | .tcp, _ => ipprotoTcp
  | .icmp, .v4 => ipprotoIcmp
  | .icmp, .v6 => ipprotoIcmpv6

/-- Where the checksum stands in a segment. -/
def Transport.sumAt : Transport → Nat
  | .tcp => 16
  | .icmp => 2

/-- How much the code changes at the front of a segment: both ports, or the type of the message. -/
def Transport.frontLen : Transport → Nat
  | .tcp => 4
  | .icmp => 1

/-- The length of an IP header. -/
def Version.headerLen : Version → Bytes → Nat
  | .v4, raw => (byteAt raw 0 &&& 0x0F).toNat * 4
  | .v6, _ => 40

/-- The protocol of a packet that is written back. -/
def Version.transport (v : Version) (raw : Bytes) : Transport :=
  match v with
  | .v4 => if byteAt raw 9 = ipprotoIcmp then .icmp else .tcp
  | .v6 => if byteAt raw 6 = ipprotoIcmpv6 then .icmp else .tcp

/-- The longest packet that the length field of a version can describe. -/
def Version.maxLen : Version → Nat
  | .v4 => 0xFFFF
  | .v6 => 40 + 0xFFFF

/-- The pseudo header of the segment at `off`; ICMP has none over IPv4. -/
def pseudoHeader (v : Version) (t : Transport) (pkt : Bytes) (off : Nat) : Bytes :=
  match v, t with
  | .v4, .tcp =>
      slice pkt 12 4 ++ slice pkt 16 4 ++ [0, ipprotoTcp] ++ beBytes 2 (pkt.drop off).length
  | .v4, .icmp => []
  | .v6, t => slice pkt 8 16 ++ slice pkt 24 16 ++ beBytes 4 (pkt.drop off).length
      ++ [0, 0, 0, t.proto .v6]

/-- Do other fragments of the same packet follow?  Over IPv6 a fragment has a header of its own, and is
    not looked into. -/
def Version.moreFragments : Version → Bytes → Bool
  | .v4, raw => portAt raw 6 &&& 0x2000 ≠ 0
  | .v6, _ => false

/-- Do others come before it?  It then starts in the middle of the segment. -/
def Version.laterFragment : Version → Bytes → Bool
  | .v4, raw => portAt raw 6 &&& 0x1FFF ≠ 0
  | .v6, _ => false

/-- A part of a packet. -/
def Version.isFragment (v : Version) (raw : Bytes) : Bool := v.moreFragments raw || v.laterFragment raw

/-- Where the code writes: the addresses, the front of the segment, and the checksums. -/
def Written (v : Version) (t : Transport) (off i : Nat) : Prop :=
  (v.family.srcAt ≤ i ∧ i < v.family.srcAt + v.family.addrLen + v.family.addrLen) ∨
  (off ≤ i ∧ i < off + t.frontLen) ∨
  (off + t.sumAt ≤ i ∧ i < off + t.sumAt + 2) ∨
  (v = .v4 ∧ 10 ≤ i ∧ i < 12)

/-- The fields that may change.  A later fragment has only those of its IP header: what is behind it is
    user data. -/
def Rewritten (v : Version) (raw : Bytes) (i : Nat) : Prop :=
  Written v (v.transport raw) (v.headerLen raw) i ∧
    (v.laterFragment raw = true → i < v.headerLen raw)

/-- A packet that was written back for `raw`: its checksums verify, the header checksum over all of the
    header, it differs from `raw` in the rewritten fields only, and what was added up for the checksums
    fits a `u32`.  The checksum of a segment covers the fragments that follow as well, whatever they
    hold. -/
structure Intact (v : Version) (raw pkt : Bytes) : Prop where
  fields : EqOutside (Rewritten v raw) raw pkt
  header : v = .v4 → Verifies (pkt.take (v.headerLen raw))
  segment : ∀ rest, (v.moreFragments raw = false → rest = []) →
    Verifies (pseudoHeader v (v.transport raw) pkt (v.headerLen raw)
      ++ (pkt.drop (v.headerLen raw) ++ rest))
  headerFits : sumWords (pkt.take 20) < 2 ^ 32
  segmentFits : sumWords (pseudoHeader v (v.transport raw) pkt (v.headerLen raw)
    ++ pkt.drop (v.headerLen raw)) < 2 ^ 32

/-! ### Checksums -/

/-- The checksum of the segment at `off`. -/
def segmentChecksum (v : Version) (t : Transport) (off : Nat) (pkt : Bytes) : UInt16 :=
  finishChecksum (sumWords (pseudoHeader v t pkt off) + sumWords (pkt.drop off))

/-- A packet with its checksums. -/
def summed (v : Version) (t : Transport) (off : Nat) (pkt : Bytes) : Bytes :=
  let pkt := withChecksum (segmentChecksum v t off) pkt (off + t.sumAt)
  match v with
  | .v4 => withChecksum (fun pkt => internetChecksum (pkt.take 20)) pkt 10
  | .v6 => pkt

/-- The pseudo header does not change with the checksums. -/
theorem pseudoHeader_congr {v : Version} {t : Transport} {off : Nat} {changed : Nat → Prop}
    {pkt pkt' : Bytes} (h : EqOutside changed pkt pkt')
    (hchanged : ∀ i, changed i → i < v.family.srcAt ∨
      v.family.srcAt + v.family.addrLen + v.family.addrLen ≤ i) :
    pseudoHeader v t pkt' off = pseudoHeader v t pkt off := by
  have hdrop : (pkt'.drop off).length = (pkt.drop off).length := by
    rw [List.length_drop, List.length_drop, h.length_eq]
  cases v with
  | v4 =>
      have hsrc : slice pkt' 12 4 = slice pkt 12 4 := h.slice_eq fun i hlo hhi hi => by
        have := hchanged i hi
        simp only [Version.family, Family.ipv4] at this
        omega
      have hdst : slice pkt' 16 4 = slice pkt 16 4 := h.slice_eq fun i hlo hhi hi => by
        have := hchanged i hi
        simp only [Version.family, Family.ipv4] at this
        omega
      cases t with
      | tcp => rw [pseudoHeader, pseudoHeader, hsrc, hdst, hdrop]
      | icmp => rfl
  | v6 =>
      have hsrc : slice pkt' 8 16 = slice pkt 8 16 := h.slice_eq fun i hlo hhi hi => by
        have := hchanged i hi
        simp only [Version.family, Family.ipv6] at this
        omega
      have hdst : slice pkt' 24 16 = slice pkt 24 16 := h.slice_eq fun i hlo hhi hi => by
        have := hchanged i hi
        simp only [Version.family, Family.ipv6] at this
        omega
      rw [pseudoHeader, pseudoHeader, hsrc, hdst, hdrop]

/-- A pseudo header is a whole number of words, twenty at most. -/
theorem length_pseudoHeader {v : Version} (t : Transport) (off : Nat) {pkt : Bytes}
    (h : v.family.srcAt + v.family.addrLen + v.family.addrLen ≤ pkt.length) :
    (pseudoHeader v t pkt off).length % 2 = 0 ∧ (pseudoHeader v t pkt off).length ≤ 40 := by
  cases v with
  | v4 =>
      cases t with
      | tcp =>
          have h : 20 ≤ pkt.length := h
          simp [pseudoHeader, length_slice (show 12 + 4 ≤ pkt.length by omega),
            length_slice (show 16 + 4 ≤ pkt.length by omega)]
      | icmp => simp [pseudoHeader]
  | v6 =>
      have h : 40 ≤ pkt.length := h
      simp [pseudoHeader, length_slice (show 8 + 16 ≤ pkt.length by omega),
        length_slice (show 24 + 16 ≤ pkt.length by omega)]

/-- What is added up for a segment fits a `u32`. -/
theorem segment_fits {v : Version} (t : Transport) (off : Nat) {pkt : Bytes}
    (h : v.family.srcAt + v.family.addrLen + v.family.addrLen ≤ pkt.length)
    (hmax : pkt.length ≤ v.maxLen) :
    sumWords (pseudoHeader v t pkt off) + sumWords (pkt.drop off) < 2 ^ 32 := by
  have hmax : pkt.length ≤ 40 + 0xFFFF := by
    cases v with
    | v4 => exact hmax.trans (by decide)
    | v6 => exact hmax
  have hfront := sumWords_le (pseudoHeader v t pkt off)
  have hlen := (length_pseudoHeader t off h).2
  have hdrop := sumWords_le (pkt.drop off)
  rw [List.length_drop] at hdrop
  omega

/-- The checksum of the segment, in the packet: it verifies, and nothing else changes. -/
theorem segment_verifies {v : Version} (t : Transport) {off : Nat} {pkt : Bytes}
    (hoff : v.family.srcAt + v.family.addrLen + v.family.addrLen ≤ off)
    (hlen : off + t.sumAt + 2 ≤ pkt.length) (hmax : pkt.length ≤ v.maxLen) :
    let summedPkt := withChecksum (segmentChecksum v t off) pkt (off + t.sumAt)
    foldCarries (sumWords (pseudoHeader v t summedPkt off) + sumWords (summedPkt.drop off)) = 0xFFFF := by
  intro summedPkt
  set zeroed := copyFromSlice pkt (off + t.sumAt) [0, 0] with hzeroed
  have hzeros : EqOutside _ pkt zeroed := eqOutside_copyFromSlice rfl hlen
  have hsummed : EqOutside _ zeroed summedPkt :=
    eqOutside_copyFromSlice (length_beBytes _ _) (hzeros.length_eq.symm ▸ hlen)
  have hpseudo : pseudoHeader v t summedPkt off = pseudoHeader v t zeroed off :=
    pseudoHeader_congr hsummed fun i hi => .inr (by omega)
  have hzdrop : zeroed.drop off = copyFromSlice (pkt.drop off) t.sumAt [0, 0] :=
    drop_copyFromSlice (by omega)
  have hdrop : summedPkt.drop off = copyFromSlice (zeroed.drop off) t.sumAt
      (portBytes (segmentChecksum v t off zeroed)) :=
    drop_copyFromSlice (by rw [hzeros.length_eq]; omega)
  have hfits : sumWords (pseudoHeader v t zeroed off) + sumWords (zeroed.drop off) < 2 ^ 32 :=
    segment_fits t off (by rw [hzeros.length_eq]; omega) (by rwa [hzeros.length_eq])
  have hzero : slice (zeroed.drop off) t.sumAt 2 = [0, 0] := by
    rw [hzdrop]
    exact slice_copyFromSlice_self (by rw [List.length_drop]; omega) rfl
  have heven : t.sumAt % 2 = 0 := by cases t <;> rfl
  have hzlen : t.sumAt + 2 ≤ (zeroed.drop off).length := by
    rw [List.length_drop, hzeros.length_eq]
    omega
  rw [hpseudo, hdrop, segmentChecksum]
  exact foldCarries_summed heven hzlen hzero hfits

/-- The header checksum: it covers the first twenty bytes. -/
theorem header_verifies_iff {pkt : Bytes} {off : Nat} (hoff : 20 ≤ off) (hlen : off ≤ pkt.length) :
    Verifies ((withChecksum (fun pkt => internetChecksum (pkt.take 20)) pkt 10).take off)
      ↔ 0xFFFF ∣ sumWords (slice pkt 20 (off - 20)) := by
  set summedPkt := withChecksum (fun pkt => internetChecksum (pkt.take 20)) pkt 10 with hsummed
  have hfields : EqOutside _ pkt summedPkt := eqOutside_withChecksum (by omega)
  have hoptions : slice summedPkt 20 (off - 20) = slice pkt 20 (off - 20) :=
    hfields.slice_eq fun i hlo _ hi => by omega
  have hsplit : summedPkt.take off = summedPkt.take 20 ++ slice summedPkt 20 (off - 20) := by
    have htake : summedPkt.take (20 + (off - 20))
        = summedPkt.take 20 ++ (summedPkt.drop 20).take (off - 20) := List.take_add
    rwa [Nat.add_sub_cancel' hoff] at htake
  have hfront : (summedPkt.take 20).length = 20 := List.length_take_of_le (by
    rw [hfields.length_eq]
    omega)
  have hzeroed : (copyFromSlice pkt 10 [0, 0]).take 20 = copyFromSlice (pkt.take 20) 10 [0, 0] :=
    take_copyFromSlice (by omega) (by decide)
  have htake : summedPkt.take 20 = copyFromSlice (copyFromSlice (pkt.take 20) 10 [0, 0]) 10
      (portBytes (finishChecksum (0 + sumWords (copyFromSlice (pkt.take 20) 10 [0, 0])))) := by
    rw [hsummed, withChecksum, Nat.zero_add, ← hzeroed]
    refine take_copyFromSlice ?_ (show 10 + 2 ≤ 20 by decide)
    rw [length_copyFromSlice (show 10 + 2 ≤ pkt.length by omega)]
    omega
  have hfits : 0 + sumWords (copyFromSlice (pkt.take 20) 10 [0, 0]) < 2 ^ 32 := by
    have := sumWords_le (copyFromSlice (pkt.take 20) 10 [0, 0])
    rw [← hzeroed, List.length_take] at this
    rw [← hzeroed]
    omega
  have htaken : (pkt.take 20).length = 20 := List.length_take_of_le (by omega)
  have hiff := verifies_summed (sumWords (slice pkt 20 (off - 20))) (by decide)
    (by rw [length_copyFromSlice (by rw [htaken]; decide)]; omega)
    (slice_copyFromSlice_self (by omega) rfl) hfits
  rw [Verifies, hsplit, sumWords_append (by rw [hfront]), hoptions, htake]
  rwa [Nat.zero_add] at hiff

/-- **Checksums.**  Those of a packet that is written, and what they leave as it was. -/
theorem summed_spec {v : Version} (t : Transport) {off : Nat} {pkt : Bytes}
    (hoff : v.family.srcAt + v.family.addrLen + v.family.addrLen ≤ off)
    (hlen : off + t.sumAt + 2 ≤ pkt.length) (hmax : pkt.length ≤ v.maxLen) :
    EqOutside (fun i => (off + t.sumAt ≤ i ∧ i < off + t.sumAt + 2) ∨ (v = .v4 ∧ 10 ≤ i ∧ i < 12))
      pkt (summed v t off pkt) ∧
    Verifies (pseudoHeader v t (summed v t off pkt) off ++ (summed v t off pkt).drop off) ∧
    (v = .v4 → (Verifies ((summed v t off pkt).take off)
      ↔ 0xFFFF ∣ sumWords (slice pkt 20 (off - 20)))) := by
  have hsegment := segment_verifies t hoff hlen hmax
  set segPkt := withChecksum (segmentChecksum v t off) pkt (off + t.sumAt) with hsegPkt
  have hfields : EqOutside _ pkt segPkt := eqOutside_withChecksum hlen
  -- the pseudo-header has an even length, so that its words and those of the segment add up
  have heven : ∀ pkt' : Bytes, pkt'.length = pkt.length →
      (pseudoHeader v t pkt' off).length % 2 = 0 :=
    fun pkt' h => (length_pseudoHeader t off (by omega)).1
  cases v with
  | v4 =>
      -- the header checksum is made last, and touches neither segment nor options
      have hoff : 20 ≤ off := hoff
      set sumPkt := withChecksum (fun pkt => internetChecksum (pkt.take 20)) segPkt 10 with hsum
      have hheader : EqOutside _ segPkt sumPkt :=
        eqOutside_withChecksum (by rw [hfields.length_eq]; omega)
      have hsumPkt : summed .v4 t off pkt = sumPkt := rfl
      have hpseudo : pseudoHeader .v4 t sumPkt off = pseudoHeader .v4 t segPkt off :=
        pseudoHeader_congr hheader fun i hi => .inl hi.2
      have hdrop : sumPkt.drop off = segPkt.drop off := hheader.drop_eq fun i hi hc => by omega
      have hoptions : slice segPkt 20 (off - 20) = slice pkt 20 (off - 20) :=
        hfields.slice_eq fun i _ hhi hc => by omega
      rw [hsumPkt]
      refine ⟨(hfields.trans hheader).mono fun i hi => ?_, ?_, fun _ => ?_⟩
      · exact hi.imp id fun hc => ⟨rfl, hc⟩
      · rw [Verifies, hpseudo, hdrop, sumWords_append (heven segPkt hfields.length_eq)]
        exact hsegment
      · rw [← hoptions]
        exact header_verifies_iff hoff (by rw [hfields.length_eq]; omega)
  | v6 =>
      have hsumPkt : summed .v6 t off pkt = segPkt := rfl
      rw [hsumPkt]
      refine ⟨hfields.mono fun i hi => .inl hi, ?_, fun hv => absurd hv (by decide)⟩
      rw [Verifies, sumWords_append (heven segPkt hfields.length_eq)]
      exact hsegment

/-! ### What is written back -/

theorem recomputeIpv4Checksum_eq {pkt : Bytes} (h : 20 ≤ pkt.length) :
    recomputeIpv4Checksum pkt
      = withChecksum (fun pkt => internetChecksum (pkt.take 20)) pkt 10 := by
  rw [recomputeIpv4Checksum, if_neg (by omega)]
  rfl

/-- The checksum of a segment over IPv6, with the addresses read before it is cleared. -/
theorem withChecksum_ipv6 (t : Transport) {off : Nat} {pkt : Bytes} (hoff : 40 ≤ off)
    (hlen : off + t.sumAt + 2 ≤ pkt.length) :
    withChecksum (segmentChecksum .v6 t off) pkt (off + t.sumAt)
      = copyFromSlice (copyFromSlice pkt (off + t.sumAt) [0, 0]) (off + t.sumAt)
          (portBytes (checksumWithPseudoV6 (slice pkt 8 16) (slice pkt 24 16) (t.proto .v6)
            ((copyFromSlice pkt (off + t.sumAt) [0, 0]).drop off))) := by
  have hzeros : EqOutside _ pkt (copyFromSlice pkt (off + t.sumAt) [0, 0]) :=
    eqOutside_copyFromSlice rfl hlen
  have hsrc : slice (copyFromSlice pkt (off + t.sumAt) [0, 0]) 8 16 = slice pkt 8 16 :=
    hzeros.slice_eq fun i _ hhi hc => by omega
  have hdst : slice (copyFromSlice pkt (off + t.sumAt) [0, 0]) 24 16 = slice pkt 24 16 :=
    hzeros.slice_eq fun i _ hhi hc => by omega
  rw [withChecksum, segmentChecksum, pseudoHeader, hsrc, hdst,
    checksumWithPseudoV6_eq (by rw [length_slice (by omega)]) (by rw [length_slice (by omega)])]

/-- What `recompute_checksums` does to a TCP packet is to make the checksums of header and segment anew. -/
theorem recomputeChecksums_eq {v : Version} {off : Nat} {pkt : Bytes}
    (hoff : v.family.srcAt + v.family.addrLen + v.family.addrLen ≤ off)
    (hlen : off + 18 ≤ pkt.length) : v.family.recomputeChecksums pkt off = summed v .tcp off pkt := by
  cases v with
  | v4 =>
      have hoff : 20 ≤ off := hoff
      have hzeros : EqOutside _ pkt (copyFromSlice pkt (off + 16) [0, 0]) :=
        eqOutside_copyFromSlice rfl hlen
      have hsrc : slice (copyFromSlice pkt (off + 16) [0, 0]) 12 4 = slice pkt 12 4 :=
        hzeros.slice_eq fun i _ hhi hc => by omega
      have hdst : slice (copyFromSlice pkt (off + 16) [0, 0]) 16 4 = slice pkt 16 4 :=
        hzeros.slice_eq fun i _ hhi hc => by omega
      have htcp : recomputeTcpChecksumV4 pkt off
          = withChecksum (segmentChecksum .v4 .tcp off) pkt (off + 16) := by
        rw [recomputeTcpChecksumV4, recomputeTcpChecksum, if_neg (by omega), withChecksum,
          segmentChecksum, pseudoHeader, hsrc, hdst]
        rfl
      have hfields : EqOutside _ pkt (withChecksum (segmentChecksum .v4 .tcp off) pkt (off + 16)) :=
        eqOutside_withChecksum hlen
      show recomputeIpv4Checksum (recomputeTcpChecksumV4 pkt off) = _
      rw [htcp, recomputeIpv4Checksum_eq (by rw [hfields.length_eq]; omega)]
      rfl
  | v6 =>
      show recomputeTcpChecksumV6 pkt off = withChecksum (segmentChecksum .v6 .tcp off) pkt (off + 16)
      rw [recomputeTcpChecksumV6, recomputeTcpChecksum, if_neg (by omega)]
      exact (withChecksum_ipv6 .tcp hoff hlen).symm

/-- A packet before its checksums are computed: only addresses and the front of the segment differ. -/
def Edited (v : Version) (t : Transport) (off : Nat) (raw pkt : Bytes) : Prop :=
  EqOutside (fun i => (v.family.srcAt ≤ i ∧ i < v.family.srcAt + v.family.addrLen + v.family.addrLen) ∨
    (off ≤ i ∧ i < off + t.frontLen)) raw pkt

/-- A rewritten TCP packet is the packet with other addresses and ports, and with its checksums made anew. -/
theorem rewrite_eq {v : Version} {raw : Bytes} {off : Nat} {src dst : SocketAddr}
    (hoff : v.family.srcAt + v.family.addrLen + v.family.addrLen ≤ off) (hlen : off + 20 ≤ raw.length)
    (hsrc : v.family.contains src.ip = true) (hdst : v.family.contains dst.ip = true) :
    ∃ pkt, Edited v .tcp off raw pkt ∧ v.family.rewrite raw off src dst = summed v .tcp off pkt := by
  set F := v.family with hF
  have h₁ : EqOutside _ raw (copyFromSlice raw F.srcAt (ipOctets src.ip)) :=
    eqOutside_copyFromSlice (F.length_octets hsrc) (by omega)
  set p₁ := copyFromSlice raw F.srcAt (ipOctets src.ip)
  have h₂ : EqOutside _ p₁ (copyFromSlice p₁ (F.srcAt + F.addrLen) (ipOctets dst.ip)) :=
    eqOutside_copyFromSlice (F.length_octets hdst) (by rw [h₁.length_eq]; omega)
  set p₂ := copyFromSlice p₁ (F.srcAt + F.addrLen) (ipOctets dst.ip)
  have h₃ : EqOutside _ p₂ (copyFromSlice p₂ off (portBytes src.port)) :=
    eqOutside_copyFromSlice (length_beBytes 2 _) (by rw [h₂.length_eq, h₁.length_eq]; omega)
  set p₃ := copyFromSlice p₂ off (portBytes src.port)
  have h₄ : EqOutside _ p₃ (copyFromSlice p₃ (off + 2) (portBytes dst.port)) :=
    eqOutside_copyFromSlice (length_beBytes 2 _)
      (by rw [h₃.length_eq, h₂.length_eq, h₁.length_eq]; omega)
  set p₄ := copyFromSlice p₃ (off + 2) (portBytes dst.port)
  have hedited : Edited v .tcp off raw p₄ := by
    refine (((h₁.trans h₂).trans h₃).trans h₄).mono fun i hi => ?_
    rw [Transport.frontLen, ← hF]
    omega
  refine ⟨p₄, hedited, ?_⟩
  show F.recomputeChecksums p₄ off = _
  exact recomputeChecksums_eq hoff (by rw [hedited.length_eq]; omega)

/-- An answer over IPv4 is the request with its type and its addresses edited, and with its checksums made anew. -/
theorem handleIcmpv4_eq_some {raw pkt : Bytes} {ihl : Nat} {srcIp dstIp : Ipv4Addr}
    {inet4Addr : Option Ipv4Addr} (hihl : 20 ≤ ihl)
    (h : handleIcmpv4 raw ihl srcIp dstIp inet4Addr = some pkt) :
    ihl + 8 ≤ raw.length ∧
      ∃ edited, Edited .v4 .icmp ihl raw edited ∧ pkt = summed .v4 .icmp ihl edited ∧
        edited[ihl]? ≠ raw[ihl]? := by
  rw [handleIcmpv4] at h
  dsimp only at h
  split at h
  · cases h
  rename_i hshort
  split at h
  · cases h
  rename_i hecho
  split at h
  · cases h
  have hlen : ihl + 8 ≤ raw.length := by
    rw [List.length_drop] at hshort
    omega
  have h₁ : EqOutside _ raw (copyFromSlice raw 12 dstIp.octets) :=
    eqOutside_copyFromSlice dstIp.length_octets (by omega)
  set p₁ := copyFromSlice raw 12 dstIp.octets
  have h₂ : EqOutside _ p₁ (copyFromSlice p₁ 16 srcIp.octets) :=
    eqOutside_copyFromSlice srcIp.length_octets (by rw [h₁.length_eq]; omega)
  set p₂ := copyFromSlice p₁ 16 srcIp.octets
  have h₃ : EqOutside _ p₂ (copyFromSlice p₂ ihl [0]) :=
    eqOutside_copyFromSlice List.length_singleton (by rw [h₂.length_eq, h₁.length_eq]; omega)
  set p₃ := copyFromSlice p₂ ihl [0]
  have hedited : Edited .v4 .icmp ihl raw p₃ := by
    refine ((h₁.trans h₂).trans h₃).mono fun i hi => ?_
    simp only [Version.family, Family.ipv4, Transport.frontLen]
    omega
  -- the type of a request is 8, and that of its answer 0
  have hrequest : raw[ihl]? = some 8 := by
    rw [byteAt, List.getD_eq_getElem?_getD, List.getElem?_drop, Nat.add_zero,
      List.getElem?_eq_getElem (show ihl < raw.length by omega)] at hecho
    rw [List.getElem?_eq_getElem (show ihl < raw.length by omega)]
    simp only [Bool.or_eq_true, decide_eq_true_eq, not_or, not_not] at hecho
    exact congrArg some hecho.1
  have hanswer : p₃[ihl]? = some 0 := by
    have hslice : slice p₃ ihl 1 = [0] :=
      slice_copyFromSlice_self (by rw [h₂.length_eq, h₁.length_eq]; omega) rfl
    have hhead := congrArg (·[0]?) hslice
    simpa [slice] using hhead
  have hfields : EqOutside _ p₃ (withChecksum (segmentChecksum .v4 .icmp ihl) p₃ (ihl + 2)) :=
    eqOutside_withChecksum (by rw [hedited.length_eq]; omega)
  have hsegment : withChecksum (segmentChecksum .v4 .icmp ihl) p₃ (ihl + 2)
      = copyFromSlice (copyFromSlice p₃ (ihl + 2) [0, 0]) (ihl + 2)
          (portBytes (internetChecksum ((copyFromSlice p₃ (ihl + 2) [0, 0]).drop ihl))) := by
    rw [withChecksum, segmentChecksum, pseudoHeader, internetChecksum, sumWords, Nat.zero_add]
  refine ⟨hlen, p₃, hedited, ?_, by rw [hanswer, hrequest]; decide⟩
  rw [← Option.some.inj h, ← hsegment, recomputeIpv4Checksum_eq]
  · rfl
  · rw [hfields.length_eq, hedited.length_eq]
    omega

/-- An answer over IPv6 is the request with its type and its addresses edited, and with its checksum made anew. -/
theorem handleIcmpv6_eq_some {raw pkt : Bytes} {srcIp dstIp : Ipv6Addr} {inet6Addr : Option Ipv6Addr}
    (h : handleIcmpv6 raw srcIp dstIp inet6Addr = some pkt) :
    48 ≤ raw.length ∧
      ∃ edited, Edited .v6 .icmp 40 raw edited ∧ pkt = summed .v6 .icmp 40 edited := by
  rw [handleIcmpv6] at h
  split at h
  · cases h
  rename_i hshort
  split at h
  · cases h
  split at h
  · cases h
  have h₁ : EqOutside _ raw (copyFromSlice raw 8 dstIp.octets) :=
    eqOutside_copyFromSlice dstIp.length_octets (by omega)
  set p₁ := copyFromSlice raw 8 dstIp.octets
  have h₂ : EqOutside _ p₁ (copyFromSlice p₁ 24 srcIp.octets) :=
    eqOutside_copyFromSlice srcIp.length_octets (by rw [h₁.length_eq]; omega)
  set p₂ := copyFromSlice p₁ 24 srcIp.octets
  have h₃ : EqOutside _ p₂ (copyFromSlice p₂ 40 [129]) :=
    eqOutside_copyFromSlice List.length_singleton (by rw [h₂.length_eq, h₁.length_eq]; omega)
  set p₃ := copyFromSlice p₂ 40 [129]
  have hedited : Edited .v6 .icmp 40 raw p₃ := by
    refine ((h₁.trans h₂).trans h₃).mono fun i hi => ?_
    simp only [Version.family, Family.ipv6, Transport.frontLen]
    omega
  have hlen : ¬ p₃.length < 40 + 8 := by
    rw [hedited.length_eq]
    omega
  refine ⟨by omega, p₃, hedited, ?_⟩
  rw [← Option.some.inj h, recomputeIcmpv6Checksum, if_neg hlen]
  exact (withChecksum_ipv6 .icmp (by decide) (show 40 + 2 + 2 ≤ p₃.length by omega)).symm

/-- A TCP packet that is written back. -/
theorem handleTcp_eq_some {v : Version} {cfg : TunConfig} {s : Tun} {order : List UInt16}
    {raw pkt : Bytes} (h : (v.family.handleTcp (cfg.inet v) s.now order s.nat raw).1 = some pkt) :
    ∃ seg src dst, v.family.segment raw = some seg ∧ v.family.contains src.ip = true ∧
      v.family.contains dst.ip = true ∧ pkt = v.family.rewrite raw seg.tcpOff src dst := by
  rw [Family.handleTcp] at h
  split at h
  · rename_i addr next seg haddr hnext hseg
    obtain ⟨haddrIp, next', hnext', hnextIp⟩ := TunConfig.inet_spec haddr
    obtain rfl := Option.some.inj (hnext.symm.trans hnext')
    split at h
    · -- a packet of the listener
      split at h
      · rename_i origSrc origDst nat hback
        split at h
        · rename_i hboth
          rw [Bool.and_eq_true] at hboth
          exact ⟨seg, origDst, origSrc, hseg, hboth.1, hboth.2, (Option.some.inj h).symm⟩
        · cases h
      · cases h
    · split at h
      · cases h
      · exact ⟨seg, _, _, hseg, hnextIp, haddrIp, (Option.some.inj h).symm⟩
  · cases h

/-- Where the code finds the TCP header. -/
theorem tcpAt_eq_headerLen {v : Version} {raw : Bytes} {off : Nat}
    (h : v.family.tcpAt raw = some off) : off = v.headerLen raw := by
  cases v with
  | v4 =>
      have h : tcpAtV4 raw = some off := h
      simp only [tcpAtV4] at h
      split at h
      · cases h
      split at h
      · cases h
      split at h
      · cases h
      split at h
      · cases h
      exact (Option.some.inj h).symm
  | v6 =>
      have h : tcpAtV6 raw = some off := h
      rw [tcpAtV6] at h
      split at h
      · cases h
      split at h
      · cases h
      exact (Option.some.inj h).symm

theorem handleTcp_summed {v : Version} {cfg : TunConfig} {s : Tun} {order : List UInt16}
    {raw pkt : Bytes} (h : (v.family.handleTcp (cfg.inet v) s.now order s.nat raw).1 = some pkt) :
    v.family.srcAt + v.family.addrLen + v.family.addrLen ≤ v.headerLen raw ∧
      v.headerLen raw + 20 ≤ raw.length ∧
      ∃ edited, Edited v .tcp (v.headerLen raw) raw edited ∧
        pkt = summed v .tcp (v.headerLen raw) edited := by
  obtain ⟨seg, src, dst, hseg, hsrc, hdst, rfl⟩ := handleTcp_eq_some h
  obtain ⟨hoff, hlen, -, -⟩ := Family.segment_eq_some hseg
  have hbound := v.family.le_of_tcpAt hoff
  rw [tcpAt_eq_headerLen hoff] at hbound hlen ⊢
  exact ⟨hbound, hlen, rewrite_eq hbound hlen hsrc hdst⟩

/-- **What is written back**: the packet that was read, with other endpoints or another type, and with
    its checksums. -/
theorem TunConfig.writeBack_eq {cfg : TunConfig} {s : Tun} {order : List UInt16} {raw pkt : Bytes}
    {v : Version} (hv : version raw = some v) (h : cfg.writeBack s order raw = some pkt) :
    v.family.srcAt + v.family.addrLen + v.family.addrLen ≤ v.headerLen raw ∧
      v.headerLen raw + (v.transport raw).sumAt + 2 ≤ raw.length ∧
      ∃ edited, Edited v (v.transport raw) (v.headerLen raw) raw edited ∧
        pkt = summed v (v.transport raw) (v.headerLen raw) edited := by
  rw [writeBack, hv] at h
  cases v with
  | v4 =>
      have h : cfg.writeBackV4 s order raw = some pkt := h
      simp only [writeBackV4] at h
      split at h
      · cases h
      split at h
      · cases h
      -- behind the checks of `process_ipv4` the header lies within the packet
      rename_i hihl
      simp only [Bool.or_eq_true, decide_eq_true_eq, not_or, not_lt] at hihl
      split at h
      · -- an echo request, which `handle_icmpv4` answers
        rename_i hicmp
        have ht : Version.transport .v4 raw = .icmp := if_pos hicmp
        obtain ⟨hlen, edited, hedited, hpkt, -⟩ := handleIcmpv4_eq_some hihl.2 h
        rw [ht]
        refine ⟨hihl.2, ?_, edited, hedited, hpkt⟩
        show (byteAt raw 0 &&& 0x0F).toNat * 4 + 2 + 2 ≤ raw.length
        omega
      · -- a TCP packet, which goes through the NAT
        rename_i hicmp
        have ht : Version.transport .v4 raw = .tcp := if_neg hicmp
        have h : (Version.v4.family.handleTcp (cfg.inet .v4) s.now order s.nat raw).1 = some pkt := h
        obtain ⟨hoff, hlen, hedited⟩ := handleTcp_summed h
        rw [ht]
        refine ⟨hoff, ?_, hedited⟩
        show Version.headerLen .v4 raw + 16 + 2 ≤ raw.length
        omega
  | v6 =>
      have h : cfg.writeBackV6 s order raw = some pkt := h
      rw [writeBackV6] at h
      split at h
      · cases h
      split at h
      · -- over IPv6 the header has 40 bytes, at the end of which the addresses stand
        rename_i hicmp
        have ht : Version.transport .v6 raw = .icmp := if_pos hicmp
        obtain ⟨hlen, hedited⟩ := handleIcmpv6_eq_some h
        rw [ht]
        refine ⟨le_refl 40, ?_, hedited⟩
        show 40 + 2 + 2 ≤ raw.length
        omega
      · rename_i hicmp
        have ht : Version.transport .v6 raw = .tcp := if_neg hicmp
        have h : (Version.v6.family.handleTcp (cfg.inet .v6) s.now order s.nat raw).1 = some pkt := h
        obtain ⟨hoff, hlen, hedited⟩ := handleTcp_summed h
        rw [ht]
        refine ⟨hoff, ?_, hedited⟩
        have hlen : 40 + 20 ≤ raw.length := hlen
        show 40 + 16 + 2 ≤ raw.length
        omega

/-! ### Soundness -/

namespace TunConfig

variable {cfg : TunConfig} {s : Tun} {order : List UInt16} {raw pkt : Bytes} {v : Version}

/-- The fields of a packet that is written back. -/
theorem writeBack_fields (hv : version raw = some v) (h : cfg.writeBack s order raw = some pkt)
    (hlen : raw.length ≤ v.maxLen) :
    EqOutside (Written v (v.transport raw) (v.headerLen raw)) raw pkt := by
  obtain ⟨hoff, hshort, edited, hedited, rfl⟩ := writeBack_eq hv h
  obtain ⟨hsums, -, -⟩ := summed_spec (v.transport raw) hoff (hedited.length_eq.symm ▸ hshort)
    (hedited.length_eq.symm ▸ hlen)
  refine (EqOutside.trans hedited hsums).mono fun i hi => ?_
  rcases hi with (haddr | hfront) | hsum | hheader
  · exact .inl haddr
  · exact .inr (.inl hfront)
  · exact .inr (.inr (.inl hsum))
  · exact .inr (.inr (.inr hheader))

/-- The segment of a packet that is written back verifies together with its pseudo-header, in a sum that does not
    overflow. -/
theorem writeBack_segment (hv : version raw = some v) (h : cfg.writeBack s order raw = some pkt)
    (hlen : raw.length ≤ v.maxLen) :
    Verifies (pseudoHeader v (v.transport raw) pkt (v.headerLen raw) ++ pkt.drop (v.headerLen raw)) ∧
      sumWords (pseudoHeader v (v.transport raw) pkt (v.headerLen raw)
        ++ pkt.drop (v.headerLen raw)) < 2 ^ 32 := by
  have hfields := writeBack_fields hv h hlen
  obtain ⟨hoff, hshort, edited, hedited, rfl⟩ := writeBack_eq hv h
  obtain ⟨-, hsegment, -⟩ := summed_spec (v.transport raw) hoff (hedited.length_eq.symm ▸ hshort)
    (hedited.length_eq.symm ▸ hlen)
  have haddrs : v.family.srcAt + v.family.addrLen + v.family.addrLen
      ≤ (summed v (v.transport raw) (v.headerLen raw) edited).length := by
    rw [hfields.length_eq]
    omega
  refine ⟨hsegment, ?_⟩
  rw [sumWords_append (length_pseudoHeader _ _ haddrs).1]
  exact segment_fits _ _ haddrs (hfields.length_eq.symm ▸ hlen)

/-- Its header: the words of the options are not in the checksum. -/
theorem writeBack_header_iff (hv : version raw = some .v4) (h : cfg.writeBack s order raw = some pkt)
    (hlen : raw.length ≤ Version.maxLen .v4) :
    Verifies (pkt.take (Version.headerLen .v4 raw))
      ↔ 0xFFFF ∣ sumWords (slice raw 20 (Version.headerLen .v4 raw - 20)) := by
  obtain ⟨hoff, hshort, edited, hedited, rfl⟩ := writeBack_eq hv h
  obtain ⟨-, -, hheader⟩ := summed_spec (Version.transport .v4 raw) hoff
    (hedited.length_eq.symm ▸ hshort) (hedited.length_eq.symm ▸ hlen)
  have hoptions : slice edited 20 (Version.headerLen .v4 raw - 20)
      = slice raw 20 (Version.headerLen .v4 raw - 20) := by
    refine EqOutside.slice_eq hedited fun i hlo hhi hc => ?_
    simp only [Version.family, Family.ipv4] at hc
    omega
  rw [hheader rfl, hoptions]

/-- An answered fragment: the first byte behind its header changes. -/
theorem writeBack_fragment (hv : version raw = some v) (h : cfg.writeBack s order raw = some pkt)
    (hlen : raw.length ≤ v.maxLen) (hfrag : v.isFragment raw = true) :
    v.transport raw = .icmp ∧ v = .v4 ∧ pkt[v.headerLen raw]? ≠ raw[v.headerLen raw]? := by
  cases v with
  | v6 => cases hfrag
  | v4 =>
      rw [writeBack, hv] at h
      have h : cfg.writeBackV4 s order raw = some pkt := h
      simp only [writeBackV4] at h
      split at h
      · cases h
      split at h
      · cases h
      rename_i hihl
      simp only [Bool.or_eq_true, decide_eq_true_eq, not_or, not_lt] at hihl
      split at h
      · rename_i hicmp
        obtain ⟨hshort, edited, hedited, rfl, htype⟩ := handleIcmpv4_eq_some hihl.2 h
        refine ⟨if_pos hicmp, rfl, ?_⟩
        have hoff : 20 ≤ Version.headerLen .v4 raw := hihl.2
        have hend : Version.headerLen .v4 raw + 2 + 2 ≤ edited.length := by
          rw [hedited.length_eq]
          exact Nat.le_trans (Nat.add_le_add_left (by decide : 4 ≤ 8) _) hshort
        obtain ⟨hsums, -, -⟩ := summed_spec .icmp hoff hend (hedited.length_eq.symm ▸ hlen)
        -- the checksums stand elsewhere
        have hkeep := hsums.getElem?_eq (Version.headerLen .v4 raw) (by
          simp only [Transport.sumAt]
          omega)
        exact fun heq => htype (hkeep.symm.trans heq)
      · -- the TCP handler drops fragments
        have h : (Version.v4.family.handleTcp (cfg.inet .v4) s.now order s.nat raw).1 = some pkt := h
        obtain ⟨seg, -, -, hseg, -⟩ := handleTcp_eq_some h
        have hoff : tcpAtV4 raw = some seg.tcpOff := (Family.segment_eq_some hseg).1
        simp only [tcpAtV4] at hoff
        split at hoff
        · cases hoff
        split at hoff
        · cases hoff
        split at hoff
        · cases hoff
        split at hoff
        · cases hoff
        rename_i hwhole
        exact absurd hfrag hwhole

/-- **An answered fragment** is not sound: in a later one user data is overwritten, and in the first
    one the checksum does not cover what follows. -/
theorem not_isFragment_of_intact (hv : version raw = some v)
    (h : cfg.writeBack s order raw = some pkt) (hlen : raw.length ≤ v.maxLen)
    (hintact : Intact v raw pkt) : v.isFragment raw = false := by
  by_contra hfrag
  rw [Bool.not_eq_false] at hfrag
  obtain ⟨hicmp, rfl, htype⟩ := writeBack_fragment hv h hlen hfrag
  cases hlater : Version.laterFragment .v4 raw with
  | true =>
      refine htype (hintact.fields.getElem?_eq _ fun hwritten => ?_)
      exact absurd (hwritten.2 hlater) (lt_irrefl _)
  | false =>
      have hmore : Version.moreFragments .v4 raw = true := by
        rwa [Version.isFragment, hlater, Bool.or_false] at hfrag
      obtain ⟨rest, hrest⟩ := exists_sumWords_append_eq_succ (pkt.drop (Version.headerLen .v4 raw))
      have hnil := hintact.segment [] fun _ => rfl
      have hall := hintact.segment rest fun hnone => absurd (hmore.symm.trans hnone) Bool.noConfusion
      rw [hicmp, pseudoHeader, List.nil_append] at hnil hall
      rw [List.append_nil] at hnil
      exact not_verifies_of_succ hnil hrest hall

/-- A packet that is written back verifies, and differs from the one that was read in the rewritten fields
    only, exactly when over IPv4 it is not a fragment, and the words of its options add up to a multiple
    of `0xFFFF`; over IPv6 it always does. -/
theorem writeBack_intact_iff (hv : version raw = some v) (hlen : raw.length ≤ v.maxLen)
    (h : cfg.writeBack s order raw = some pkt) :
    Intact v raw pkt ↔
      v.isFragment raw = false ∧
        (v = .v4 → 0xFFFF ∣ sumWords (slice raw 20 (v.headerLen raw - 20))) := by
  constructor
  · intro hintact
    refine ⟨not_isFragment_of_intact hv h hlen hintact, ?_⟩
    rintro rfl
    exact (writeBack_header_iff hv h hlen).mp (hintact.header rfl)
  · rintro ⟨hwhole, hoptions⟩
    obtain ⟨hsegment, hfits⟩ := writeBack_segment hv h hlen
    obtain ⟨hmore, hlater⟩ := Bool.or_eq_false_iff.mp hwhole
    refine ⟨(writeBack_fields hv h hlen).mono fun i hi => ⟨hi, ?_⟩, ?_, ?_, ?_, hfits⟩
    · exact fun hfrag => absurd (hfrag.symm.trans hlater) Bool.noConfusion
    · rintro rfl
      exact (writeBack_header_iff hv h hlen).mpr (hoptions rfl)
    · intro rest hrest
      rw [hrest hmore, List.append_nil]
      exact hsegment
    · have hsum := sumWords_le (pkt.take 20)
      rw [List.length_take] at hsum
      omega

end TunConfig

/-- An echo request from 10.0.0.2 to 10.0.0.1 with four bytes of options. -/
def echoWithOptions (options : Bytes) : Bytes :=
  [0x46, 0, 0, 32, 0, 0, 0x40, 0, 64, 1, 0, 0, 10, 0, 0, 2, 10, 0, 0, 1] ++ options
    ++ [8, 0, 0xF7, 0xFD, 0, 1, 0, 1]

/-- A device with the address 10.0.0.1. -/
def echoConfig : TunConfig where
  tag := []
  inet4Addr := some 0x0A000001#32
  inet6Addr := none
  tcpPortV4 := 0
  tcpPortV6 := 0
  timeout := 300

theorem TunConfig.writeBack_intact_iff_padding :
    ∃ pkt, echoConfig.writeBack start [] (echoWithOptions [0, 0, 0, 0]) = some pkt ∧
      Intact .v4 (echoWithOptions [0, 0, 0, 0]) pkt := by
  obtain ⟨pkt, hpkt⟩ := Option.isSome_iff_exists.mp
    (show (echoConfig.writeBack start [] (echoWithOptions [0, 0, 0, 0])).isSome = true by decide)
  exact ⟨pkt, hpkt, (writeBack_intact_iff rfl (by decide) hpkt).mpr ⟨rfl, fun _ => by decide⟩⟩

/-- User data at the eight bytes offset that looks like an echo request, between the same hosts. -/
def echoFragment : Bytes :=
  [0x45, 0, 0, 28, 0, 0, 0, 1, 64, 1, 0, 0, 10, 0, 0, 2, 10, 0, 0, 1, 8, 0, 0xF7, 0xFD, 0, 1, 0, 1]

/-- With a router alert the header checksum is wrong, and a fragment loses its first byte. -/
theorem echo_not_intact :
    (∃ pkt, echoConfig.writeBack TunConfig.start [] (echoWithOptions [0x94, 4, 0, 0]) = some pkt ∧
      ¬ Intact .v4 (echoWithOptions [0x94, 4, 0, 0]) pkt) ∧
    ∃ pkt, echoConfig.writeBack TunConfig.start [] echoFragment = some pkt ∧
      ¬ Intact .v4 echoFragment pkt := by
  constructor
  · obtain ⟨pkt, hpkt⟩ := Option.isSome_iff_exists.mp
      (show (echoConfig.writeBack TunConfig.start [] (echoWithOptions [0x94, 4, 0, 0])).isSome = true by
        decide)
    refine ⟨pkt, hpkt, fun hintact => ?_⟩
    have hsum := (TunConfig.writeBack_header_iff rfl hpkt (by decide)).mp (hintact.header rfl)
    exact absurd hsum (by decide)
  · obtain ⟨pkt, hpkt⟩ := Option.isSome_iff_exists.mp
      (show (echoConfig.writeBack TunConfig.start [] echoFragment).isSome = true by decide)
    refine ⟨pkt, hpkt, fun hintact => ?_⟩
    have hwhole := TunConfig.not_isFragment_of_intact rfl hpkt (by decide) hintact
    exact absurd hwhole (by decide)

end Reflex.Inbound
