import Reflex.Inbound.TcpNat
import Reflex.Inbound.Types
import Reflex.Lib.Transition
import Reflex.RustStd.Slice

namespace Reflex.Inbound

open RustStd Transition

/-!
# Inbounds — TCP through the TUN device

`inbound/tun.rs`: a TCP packet read from the device is rewritten, so that the kernel delivers it to
the listener from a NAT port, and the listener's replies are rewritten back.  The connections the
listener accepts are handed to the dispatcher with the destination behind the NAT port.

IPv4 and IPv6 differ in the layout of the packets, in the destinations they filter and in the
checksums; a `Family` holds what differs.  UDP and ICMP packets use neither the listener nor the NAT
table and are left out.

* `segment_rewrite` — a rewritten packet has the endpoints written into it;
* `processPacket_forwards`, `processPacket_reply` — what is written back to the device;
* `nat_restores_iff` — the connection and the replies of a NAT port belong to the packet that was
  given it exactly when its source had no entry for another destination.
-/

/-! ### Checksums -/

/-- The 16-bit words of the data, the last one padded with a zero, added up. -/
def sumWords : Bytes → Nat
  | hi :: lo :: rest => hi.toNat * 256 + lo.toNat + sumWords rest
  | [hi] => hi.toNat * 256
  | [] => 0

/-- The loop that adds the carries. -/
def foldCarries (sum : Nat) : Nat :=
  if sum / 2 ^ 16 = 0 then sum else foldCarries (sum % 2 ^ 16 + sum / 2 ^ 16)
termination_by sum
decreasing_by omega

/-- The complement of a `u32` sum with its carries added. -/
def finishChecksum (sum : Nat) : UInt16 := ~~~ UInt16.ofNat (foldCarries (sum % 2 ^ 32))

/-- `internet_checksum`. -/
def internetChecksum (data : Bytes) : UInt16 := finishChecksum (sumWords data)

/-- `u16::to_be_bytes`. -/
def portBytes (port : UInt16) : Bytes := beBytes 2 port.toNat

/-- `u16::from_be_bytes`. -/
def portAt (raw : Bytes) (pos : Nat) : UInt16 := UInt16.ofNat (beVal (slice raw pos 2))

/-- `checksum_with_pseudo_v4`; the length is a `u16`. -/
def checksumWithPseudoV4 (src dst : Bytes) (proto : UInt8) (data : Bytes) : UInt16 :=
  finishChecksum (sumWords (src ++ dst ++ [0, proto] ++ beBytes 2 data.length) + sumWords data)

/-- `checksum_with_pseudo_v6`; the length is a `u32`. -/
def checksumWithPseudoV6 (src dst : Bytes) (proto : UInt8) (data : Bytes) : UInt16 :=
  finishChecksum (sumWords src + sumWords dst + sumWords (beBytes 4 data.length) + proto.toNat
    + sumWords data)

/-- `IPPROTO_TCP`. -/
def ipprotoTcp : UInt8 := 6

/-- `recompute_ipv4_checksum`. -/
def recomputeIpv4Checksum (pkt : Bytes) : Bytes :=
  if pkt.length < 20 then pkt
  else
    let pkt := copyFromSlice pkt 10 [0, 0]
    copyFromSlice pkt 10 (portBytes (internetChecksum (pkt.take 20)))

/-- The TCP checksum of `pkt`, whose TCP segment starts at `tcpOff`. -/
def recomputeTcpChecksum (checksum : Bytes → Bytes → UInt8 → Bytes → UInt16) (srcAt addrLen : Nat)
    (pkt : Bytes) (tcpOff : Nat) : Bytes :=
  if pkt.length < tcpOff + 18 then pkt
  else
    let srcIp := slice pkt srcAt addrLen
    let dstIp := slice pkt (srcAt + addrLen) addrLen
    let pkt := copyFromSlice pkt (tcpOff + 16) [0, 0]
    copyFromSlice pkt (tcpOff + 16)
      (portBytes (checksum srcIp dstIp ipprotoTcp (pkt.drop tcpOff)))

/-- `recompute_tcp_checksum_v4`. -/
def recomputeTcpChecksumV4 : Bytes → Nat → Bytes := recomputeTcpChecksum checksumWithPseudoV4 12 4

/-- `recompute_tcp_checksum_v6`. -/
def recomputeTcpChecksumV6 : Bytes → Nat → Bytes := recomputeTcpChecksum checksumWithPseudoV6 8 16

/-- Both bytes of a checksum are replaced, by zeros and then by the sum. -/
private theorem slice_checksum (pkt : Bytes) (sumAt : Nat) (sum : UInt16)
    (h : sumAt + 2 ≤ pkt.length) :
    (copyFromSlice (copyFromSlice pkt sumAt [0, 0]) sumAt (portBytes sum)).length = pkt.length ∧
      ∀ pos len, (pos + len ≤ sumAt ∨ sumAt + 2 ≤ pos) →
        slice (copyFromSlice (copyFromSlice pkt sumAt [0, 0]) sumAt (portBytes sum)) pos len
          = slice pkt pos len := by
  have hlen : (copyFromSlice pkt sumAt [0, 0]).length = pkt.length := length_copyFromSlice h
  have hport : (portBytes sum).length = 2 := length_beBytes _ _
  refine ⟨?_, ?_⟩
  · rw [length_copyFromSlice (by omega), hlen]
  · rintro pos len (hbefore | hafter)
    · rw [slice_copyFromSlice_before (by omega) hbefore, slice_copyFromSlice_before (by omega) hbefore]
    · rw [slice_copyFromSlice_after (by omega) (by omega),
        slice_copyFromSlice_after (by omega) hafter]

/-! ### Families -/

/-- The octets of an address. -/
def ipOctets : IpAddr → Bytes
  | .v4 a => a.octets
  | .v6 a => a.octets

/-- `Ipv4Addr::is_broadcast`, `is_multicast` or `is_unspecified`. -/
def filteredV4 (a : Ipv4Addr) : Bool := a = 0xFFFFFFFF#32 || a >>> 28 = 0xE#32 || a = 0#32

/-- `Ipv6Addr::is_multicast` or `is_unspecified`. -/
def filteredV6 (a : Ipv6Addr) : Bool := a >>> 120 = 0xFF#128 || a = 0#128

/-- The byte at `pos`, inside the packet. -/
def byteAt (raw : Bytes) (pos : Nat) : UInt8 := raw.getD pos 0

/-- The checks of `process_ipv4` on a TCP packet: where its TCP header starts. -/
def tcpAtV4 (raw : Bytes) : Option Nat :=
  if raw.length < 20 then none
  else
    let ihl := (byteAt raw 0 &&& 0x0F).toNat * 4
    if raw.length < ihl || ihl < 20 then none
    else
      let flagsFrag := portAt raw 6
      if byteAt raw 9 ≠ ipprotoTcp then none
      else if flagsFrag &&& 0x2000 ≠ 0 || flagsFrag &&& 0x1FFF ≠ 0 then none
      else some ihl

/-- The checks of `process_ipv6` on a TCP packet. -/
def tcpAtV6 (raw : Bytes) : Option Nat :=
  if raw.length < 40 then none
  else if byteAt raw 6 ≠ ipprotoTcp then none
  else some 40

/-- What the code for one address family does in its own way. -/
structure Family where
  /-- Is an address of the family? -/
  contains : IpAddr → Bool
  ofOctets : Bytes → IpAddr
  addrLen : Nat
  /-- The source address, which the destination address follows. -/
  srcAt : Nat
  tcpAt : Bytes → Option Nat
  filtered : IpAddr → Bool
  recomputeChecksums : Bytes → Nat → Bytes
  /-- The checks look at the front of a packet and at its length. -/
  headLen : Nat
  headLen_le : headLen ≤ srcAt
  tcpAt_congr : ∀ {raw raw' : Bytes}, raw'.length = raw.length →
    slice raw' 0 headLen = slice raw 0 headLen → tcpAt raw' = tcpAt raw
  le_of_tcpAt : ∀ {raw : Bytes} {tcpOff : Nat}, tcpAt raw = some tcpOff →
    srcAt + addrLen + addrLen ≤ tcpOff
  contains_ofOctets : ∀ bs, contains (ofOctets bs) = true
  ofOctets_octets : ∀ {ip}, contains ip = true → ofOctets (ipOctets ip) = ip
  length_octets : ∀ {ip}, contains ip = true → (ipOctets ip).length = addrLen
  /-- The checksums are in front of the addresses and behind the ports. -/
  recompute_spec : ∀ {pkt : Bytes} {tcpOff : Nat}, srcAt + addrLen + addrLen ≤ tcpOff →
    tcpOff + 18 ≤ pkt.length →
    (recomputeChecksums pkt tcpOff).length = pkt.length ∧
      ∀ pos len, (pos + len ≤ headLen ∨ srcAt ≤ pos) → pos + len ≤ tcpOff + 16 →
        slice (recomputeChecksums pkt tcpOff) pos len = slice pkt pos len

/-- A byte inside a range that two packets share. -/
theorem byteAt_congr {raw raw' : Bytes} {n pos : Nat} (h : slice raw' 0 n = slice raw 0 n)
    (hpos : pos < n) : byteAt raw' pos = byteAt raw pos := by
  have hget : (raw'.take n)[pos]? = (raw.take n)[pos]? := by
    simpa only [slice, List.drop_zero] using congrArg (·[pos]?) h
  rw [List.getElem?_take_of_lt hpos, List.getElem?_take_of_lt hpos] at hget
  rw [byteAt, byteAt, List.getD_eq_getElem?_getD, List.getD_eq_getElem?_getD, hget]

/-- A range inside a range that two packets share. -/
theorem slice_congr {raw raw' : Bytes} {n pos len : Nat} (h : slice raw' 0 n = slice raw 0 n)
    (hpos : pos + len ≤ n) : slice raw' pos len = slice raw pos len := by
  have hsub : ∀ bs : Bytes, slice bs pos len = slice (slice bs 0 n) pos len := by
    intro bs
    rw [slice, slice, slice, List.drop_zero, List.drop_take, List.take_take,
      Nat.min_eq_left (by omega)]
  rw [hsub raw', h, ← hsub raw]

theorem recomputeTcpChecksum_spec (checksum : Bytes → Bytes → UInt8 → Bytes → UInt16)
    (srcAt addrLen : Nat) {tcpOff : Nat} {pkt : Bytes} (h : tcpOff + 18 ≤ pkt.length) :
    (recomputeTcpChecksum checksum srcAt addrLen pkt tcpOff).length = pkt.length ∧
      ∀ pos len, pos + len ≤ tcpOff + 16 →
        slice (recomputeTcpChecksum checksum srcAt addrLen pkt tcpOff) pos len
          = slice pkt pos len := by
  rw [recomputeTcpChecksum, if_neg (by omega)]
  obtain ⟨hlen, hslice⟩ := slice_checksum pkt (tcpOff + 16) (checksum (slice pkt srcAt addrLen)
    (slice pkt (srcAt + addrLen) addrLen) ipprotoTcp
    ((copyFromSlice pkt (tcpOff + 16) [0, 0]).drop tcpOff)) (by omega)
  exact ⟨hlen, fun pos len hpos => hslice pos len (.inl hpos)⟩

theorem recomputeIpv4Checksum_spec {pkt : Bytes} (h : 20 ≤ pkt.length) :
    (recomputeIpv4Checksum pkt).length = pkt.length ∧
      ∀ pos len, (pos + len ≤ 10 ∨ 12 ≤ pos) →
        slice (recomputeIpv4Checksum pkt) pos len = slice pkt pos len := by
  rw [recomputeIpv4Checksum, if_neg (by omega)]
  exact slice_checksum pkt 10 _ (by omega)

theorem tcpAtV4_congr {raw raw' : Bytes} (hlen : raw'.length = raw.length)
    (hhead : slice raw' 0 10 = slice raw 0 10) : tcpAtV4 raw' = tcpAtV4 raw := by
  rw [tcpAtV4, tcpAtV4, hlen, byteAt_congr hhead (by decide : 0 < 10),
    byteAt_congr hhead (by decide : 9 < 10), portAt, portAt,
    slice_congr hhead (by decide : 6 + 2 ≤ 10)]

theorem tcpAtV4_bound {raw : Bytes} {tcpOff : Nat} (h : tcpAtV4 raw = some tcpOff) :
    20 ≤ tcpOff := by
  simp only [tcpAtV4] at h
  split at h
  · cases h
  split at h
  · cases h
  rename_i hihl
  split at h
  · cases h
  split at h
  · cases h
  rw [← Option.some.inj h]
  simp only [Bool.or_eq_true, decide_eq_true_eq, not_or] at hihl
  omega

theorem tcpAtV6_bound {raw : Bytes} {tcpOff : Nat} (h : tcpAtV6 raw = some tcpOff) :
    40 ≤ tcpOff := by
  simp only [tcpAtV6] at h
  split at h
  · cases h
  split at h
  · cases h
  rw [← Option.some.inj h]

theorem tcpAtV6_congr {raw raw' : Bytes} (hlen : raw'.length = raw.length)
    (hhead : slice raw' 0 8 = slice raw 0 8) : tcpAtV6 raw' = tcpAtV6 raw := by
  rw [tcpAtV6, tcpAtV6, hlen, byteAt_congr hhead (by decide : 6 < 8)]

/-- IPv4. -/
def Family.ipv4 : Family where
  contains | .v4 _ => true | .v6 _ => false
  ofOctets bs := .v4 (Ipv4Addr.ofOctets bs)
  addrLen := 4
  srcAt := 12
  tcpAt := tcpAtV4
  filtered | .v4 a => filteredV4 a | .v6 _ => false
  recomputeChecksums pkt ihl := recomputeIpv4Checksum (recomputeTcpChecksumV4 pkt ihl)
  headLen := 10
  headLen_le := by decide
  tcpAt_congr := tcpAtV4_congr
  le_of_tcpAt := tcpAtV4_bound
  contains_ofOctets _ := rfl
  ofOctets_octets {ip} h := by
    rcases ip with a | a
    · rw [ipOctets, Ipv4Addr.ofOctets_octets]
    · cases h
  length_octets {ip} h := by
    rcases ip with a | a
    · exact Ipv4Addr.length_octets a
    · cases h
  recompute_spec {pkt tcpOff} hoff hlen := by
    obtain ⟨htcp, hslice⟩ := recomputeTcpChecksum_spec checksumWithPseudoV4 12 4 hlen
    have hlen' : 20 ≤ (recomputeTcpChecksumV4 pkt tcpOff).length := by
      rw [recomputeTcpChecksumV4, htcp]
      omega
    obtain ⟨hip, hslice'⟩ := recomputeIpv4Checksum_spec hlen'
    refine ⟨hip.trans htcp, fun pos len hpos hend => ?_⟩
    exact (hslice' pos len hpos).trans (hslice pos len hend)

/-- IPv6. -/
def Family.ipv6 : Family where
  contains | .v4 _ => false | .v6 _ => true
  ofOctets bs := .v6 (Ipv6Addr.ofOctets bs)
  addrLen := 16
  srcAt := 8
  tcpAt := tcpAtV6
  filtered | .v4 _ => false | .v6 a => filteredV6 a
  recomputeChecksums := recomputeTcpChecksumV6
  headLen := 8
  headLen_le := by decide
  tcpAt_congr := tcpAtV6_congr
  le_of_tcpAt := tcpAtV6_bound
  contains_ofOctets _ := rfl
  ofOctets_octets {ip} h := by
    rcases ip with a | a
    · cases h
    · rw [ipOctets, Ipv6Addr.ofOctets_octets]
  length_octets {ip} h := by
    rcases ip with a | a
    · cases h
    · exact Ipv6Addr.length_octets a
  recompute_spec {pkt tcpOff} _ hlen := by
    obtain ⟨htcp, hslice⟩ := recomputeTcpChecksum_spec checksumWithPseudoV6 8 16 hlen
    exact ⟨htcp, fun pos len _ hend => hslice pos len hend⟩

/-! ### The packets -/

/-- A TCP packet: where its TCP header starts, and its endpoints. -/
structure Segment where
  tcpOff : Nat
  src : SocketAddr
  dst : SocketAddr
  deriving DecidableEq, Repr

namespace Family

/-- The TCP packet in `raw`, if it passes the checks. -/
def segment (F : Family) (raw : Bytes) : Option Segment :=
  (F.tcpAt raw).bind fun tcpOff =>
    if raw.length < tcpOff + 20 then none
    else some
      { tcpOff
        src := ⟨F.ofOctets (slice raw F.srcAt F.addrLen), portAt raw tcpOff⟩
        dst := ⟨F.ofOctets (slice raw (F.srcAt + F.addrLen) F.addrLen), portAt raw (tcpOff + 2)⟩ }

/-- A copy of `raw` with other endpoints and the checksums for them. -/
def rewrite (F : Family) (raw : Bytes) (tcpOff : Nat) (src dst : SocketAddr) : Bytes :=
  let pkt := copyFromSlice raw F.srcAt (ipOctets src.ip)
  let pkt := copyFromSlice pkt (F.srcAt + F.addrLen) (ipOctets dst.ip)
  let pkt := copyFromSlice pkt tcpOff (portBytes src.port)
  let pkt := copyFromSlice pkt (tcpOff + 2) (portBytes dst.port)
  F.recomputeChecksums pkt tcpOff

theorem segment_eq_some {F : Family} {raw : Bytes} {seg : Segment} (h : F.segment raw = some seg) :
    F.tcpAt raw = some seg.tcpOff ∧ seg.tcpOff + 20 ≤ raw.length ∧
      F.contains seg.src.ip = true ∧ F.contains seg.dst.ip = true := by
  obtain ⟨tcpOff, hoff, hrest⟩ := Option.bind_eq_some_iff.mp h
  split at hrest
  · cases hrest
  · rename_i hlen
    obtain rfl := Option.some.inj hrest
    exact ⟨hoff, Nat.le_of_not_lt hlen, F.contains_ofOctets _, F.contains_ofOctets _⟩

end Family

theorem portAt_of_slice {raw : Bytes} {pos : Nat} {port : UInt16}
    (h : slice raw pos 2 = portBytes port) : portAt raw pos = port := by
  rw [portAt, h, portBytes, beVal_beBytes_of_lt port.toNat_lt, UInt16.ofNat_toNat]

namespace Family

/-- A rewritten packet is as long as it was, has its header up to the checksum unchanged, and carries the new
    addresses and ports. -/
theorem rewrite_spec {F : Family} {raw : Bytes} {tcpOff : Nat} {src dst : SocketAddr}
    (hoff : F.srcAt + F.addrLen + F.addrLen ≤ tcpOff) (hlen : tcpOff + 20 ≤ raw.length)
    (hsrc : F.contains src.ip = true) (hdst : F.contains dst.ip = true) :
    (F.rewrite raw tcpOff src dst).length = raw.length ∧
      slice (F.rewrite raw tcpOff src dst) 0 F.headLen = slice raw 0 F.headLen ∧
      slice (F.rewrite raw tcpOff src dst) F.srcAt F.addrLen = ipOctets src.ip ∧
      slice (F.rewrite raw tcpOff src dst) (F.srcAt + F.addrLen) F.addrLen = ipOctets dst.ip ∧
      slice (F.rewrite raw tcpOff src dst) tcpOff 2 = portBytes src.port ∧
      slice (F.rewrite raw tcpOff src dst) (tcpOff + 2) 2 = portBytes dst.port := by
  have hhead := F.headLen_le
  have hsrcLen := F.length_octets hsrc
  have hdstLen := F.length_octets hdst
  have hsrcPort : (portBytes src.port).length = 2 := length_beBytes _ _
  have hdstPort : (portBytes dst.port).length = 2 := length_beBytes _ _
  -- the four writes, one behind the other
  set p₁ := copyFromSlice raw F.srcAt (ipOctets src.ip) with hp₁
  set p₂ := copyFromSlice p₁ (F.srcAt + F.addrLen) (ipOctets dst.ip) with hp₂
  set p₃ := copyFromSlice p₂ tcpOff (portBytes src.port) with hp₃
  set p₄ := copyFromSlice p₃ (tcpOff + 2) (portBytes dst.port) with hp₄
  have h₁ : p₁.length = raw.length := length_copyFromSlice (by omega)
  have h₂ : p₂.length = p₁.length := length_copyFromSlice (by omega)
  have h₃ : p₃.length = p₂.length := length_copyFromSlice (by omega)
  have h₄ : p₄.length = p₃.length := length_copyFromSlice (by omega)
  have hrewrite : F.rewrite raw tcpOff src dst = F.recomputeChecksums p₄ tcpOff := rfl
  obtain ⟨hpkt, hslice⟩ := F.recompute_spec hoff (show tcpOff + 18 ≤ p₄.length by omega)
  rw [hrewrite]
  refine ⟨by omega, ?_, ?_, ?_, ?_, ?_⟩
  · rw [hslice _ _ (.inl (by omega)) (by omega), hp₄,
      slice_copyFromSlice_before (by omega) (by omega), hp₃,
      slice_copyFromSlice_before (by omega) (by omega), hp₂,
      slice_copyFromSlice_before (by omega) (by omega), hp₁,
      slice_copyFromSlice_before (by omega) (by omega)]
  · rw [hslice _ _ (.inr (by omega)) (by omega), hp₄,
      slice_copyFromSlice_before (by omega) (by omega), hp₃,
      slice_copyFromSlice_before (by omega) (by omega), hp₂,
      slice_copyFromSlice_before (by omega) (by omega), hp₁,
      slice_copyFromSlice_self (by omega) hsrcLen]
  · rw [hslice _ _ (.inr (by omega)) (by omega), hp₄,
      slice_copyFromSlice_before (by omega) (by omega), hp₃,
      slice_copyFromSlice_before (by omega) (by omega), hp₂,
      slice_copyFromSlice_self (by omega) hdstLen]
  · rw [hslice _ _ (.inr (by omega)) (by omega), hp₄,
      slice_copyFromSlice_before (by omega) (by omega), hp₃,
      slice_copyFromSlice_self (by omega) hsrcPort]
  · rw [hslice _ _ (.inr (by omega)) (by omega), hp₄,
      slice_copyFromSlice_self (by omega) hdstPort]

/-- **A rewritten packet** has the endpoints that were written into it. -/
theorem segment_rewrite {F : Family} {raw : Bytes} {seg : Segment} (h : F.segment raw = some seg)
    {src dst : SocketAddr} (hsrc : F.contains src.ip = true) (hdst : F.contains dst.ip = true) :
    F.segment (F.rewrite raw seg.tcpOff src dst) = some ⟨seg.tcpOff, src, dst⟩ := by
  obtain ⟨hoff, hlen, -, -⟩ := segment_eq_some h
  obtain ⟨hpkt, hfront, hsrcIp, hdstIp, hsrcPort, hdstPort⟩ :=
    rewrite_spec (F.le_of_tcpAt hoff) hlen hsrc hdst
  have htcpAt := (F.tcpAt_congr hpkt hfront).trans hoff
  rw [segment, htcpAt, Option.bind_some, if_neg (by omega), hsrcIp, hdstIp,
    F.ofOctets_octets hsrc, F.ofOctets_octets hdst, portAt_of_slice hsrcPort,
    portAt_of_slice hdstPort]

end Family

/-- The version field of a packet. -/
inductive Version where
  | v4
  | v6
  deriving DecidableEq, Repr

/-- The code for a version. -/
def Version.family : Version → Family
  | .v4 => .ipv4
  | .v6 => .ipv6

/-- The version of a packet; others are dropped. -/
def version (raw : Bytes) : Option Version :=
  if raw = [] then none
  else if byteAt raw 0 >>> 4 = 4 then some .v4
  else if byteAt raw 0 >>> 4 = 6 then some .v6
  else none

/-- Source and destination of a TCP packet. -/
def endpoints (raw : Bytes) : Option (SocketAddr × SocketAddr) :=
  (version raw).bind fun v => (v.family.segment raw).map fun seg => (seg.src, seg.dst)

/-! ### The inbound -/

/-- The addresses of one family: the device's own, the one behind it, and the listener's port. -/
structure Interface where
  addr : Option IpAddr
  next : Option IpAddr
  tcpPort : UInt16

/-- `handle_tcp_v4` and `handle_tcp_v6`: the packet written back to the device, if any, and the NAT
    table. -/
def Family.handleTcp (F : Family) (inet : Interface) (now : Nat) (order : List UInt16)
    (nat : TcpNat) (raw : Bytes) : Option Bytes × TcpNat :=
  match inet.addr, inet.next, F.segment raw with
  | some inetAddr, some inetNext, some seg =>
      if seg.src = ⟨inetAddr, inet.tcpPort⟩ then
        -- a packet of the listener
        match nat.lookupBack now seg.dst.port with
        | (some (origSrc, origDst), nat) =>
            if F.contains origDst.ip && F.contains origSrc.ip then
              (some (F.rewrite raw seg.tcpOff origDst origSrc), nat)
            else (none, nat)
        | (none, nat) => (none, nat)
      else if F.filtered seg.dst.ip then (none, nat)
      else
        let (natPort, nat) := nat.lookupOrInsert now order seg.src seg.dst
        (some (F.rewrite raw seg.tcpOff ⟨inetNext, natPort⟩ ⟨inetAddr, inet.tcpPort⟩), nat)
  | _, _, _ => (none, nat)

/-- The TUN inbound as it was started: its tag, the first address of each family, the ports of the
    listeners and the idle timeout. -/
structure TunConfig where
  tag : Str
  inet4Addr : Option Ipv4Addr
  inet6Addr : Option Ipv6Addr
  tcpPortV4 : UInt16
  tcpPortV6 : UInt16
  timeout : Nat

/-- The state of the inbound: the NAT table, and the clock that its entries are timed by. -/
structure Tun where
  nat : TcpNat
  now : Nat

namespace TunConfig

variable (cfg : TunConfig)

/-- `inet4_addr`, `inet4_next` and `tcp_port_v4`, or those of IPv6. -/
def inet : Version → Interface
  | .v4 => ⟨cfg.inet4Addr.map .v4, cfg.inet4Addr.map fun a => .v4 (a + 1), cfg.tcpPortV4⟩
  | .v6 => ⟨cfg.inet6Addr.map .v6, cfg.inet6Addr.map fun a => .v6 (a + 1), cfg.tcpPortV6⟩

/-- `process_ipv4` on a TCP packet. -/
def processIpv4 (s : Tun) (order : List UInt16) (raw : Bytes) : Option Bytes × TcpNat :=
  Family.ipv4.handleTcp (cfg.inet .v4) s.now order s.nat raw

/-- `process_ipv6` on a TCP packet. -/
def processIpv6 (s : Tun) (order : List UInt16) (raw : Bytes) : Option Bytes × TcpNat :=
  Family.ipv6.handleTcp (cfg.inet .v6) s.now order s.nat raw

/-- A packet that is read from the device, by the version in its first byte; others are dropped. -/
def processPacket (s : Tun) (order : List UInt16) (raw : Bytes) : Option Bytes × TcpNat :=
  match version raw with
  | some .v4 => cfg.processIpv4 s order raw
  | some .v6 => cfg.processIpv6 s order raw
  | none => (none, s.nat)

/-- `accept_loop`, on a connection from the port `natPort`. -/
def acceptLoop (s : Tun) (natPort : UInt16) : Option InboundTcpStream × TcpNat :=
  match s.nat.lookupBack s.now natPort with
  | (some (_, dst), nat) => (some { target := .socket dst, inboundTag := cfg.tag }, nat)
  | (none, nat) => (none, nat)

/-- The inbound at its start, with an empty table. -/
def start : Tun := ⟨TcpNat.new, 0⟩

/-- A packet is read, a connection accepted, the table collected, or time passes.  `order` is the
    order in which the hash map is iterated. -/
inductive Action where
  | packet (order : List UInt16) (raw : Bytes)
  | accept (natPort : UInt16)
  | gc (order : List UInt16)
  | tick (elapsed : Nat)

/-- One step: a packet, a connection that is accepted, a collection of old entries, or the passing of time. -/
def step (s : Tun) : Action → Option Tun
  | .packet order raw => some { s with nat := (cfg.processPacket s order raw).2 }
  | .accept natPort => some { s with nat := (cfg.acceptLoop s natPort).2 }
  | .gc order => some { s with nat := s.nat.gc s.now cfg.timeout order }
  | .tick elapsed => some { s with now := s.now + elapsed }

/-! ### What a packet does -/

/-- Source and destination of a packet that is sent on to the listener. -/
def forwards (raw : Bytes) : Option (SocketAddr × SocketAddr) :=
  (version raw).bind fun v =>
    (cfg.inet v).addr.bind fun addr =>
      (v.family.segment raw).bind fun seg =>
        if seg.src = ⟨addr, (cfg.inet v).tcpPort⟩ || v.family.filtered seg.dst.ip then none
        else some (seg.src, seg.dst)

/-- Does the action evict or collect the entry of the port? -/
def drops (port : UInt16) (s : Tun) : Action → Bool
  | .packet order raw => (cfg.forwards raw).any fun e => s.nat.evicts order e.1 == some port
  | .gc order => decide (port ∈ order.filter (s.nat.expired s.now cfg.timeout))
  | .accept _ | .tick _ => false

end TunConfig

theorem Version.contains_unique {v v' : Version} {ip : IpAddr} (h : v.family.contains ip = true)
    (h' : v'.family.contains ip = true) : v = v' := by
  cases v with
  | v4 =>
      cases v' with
      | v4 => rfl
      | v6 =>
          cases ip with
          | v4 a => cases h'
          | v6 a => cases h
  | v6 =>
      cases v' with
      | v4 =>
          cases ip with
          | v4 a => cases h
          | v6 a => cases h'
      | v6 => rfl

theorem Version.headLen_pos (v : Version) : 0 < v.family.headLen := by
  cases v with
  | v4 => exact Nat.succ_pos 9
  | v6 => exact Nat.succ_pos 7

/-- A packet with the same length and the same front has the same version. -/
theorem version_congr {raw raw' : Bytes} {n : Nat} (hlen : raw'.length = raw.length)
    (hhead : slice raw' 0 n = slice raw 0 n) (hn : 0 < n) : version raw' = version raw := by
  have hnil : raw' = [] ↔ raw = [] := by
    rw [← List.length_eq_zero_iff, hlen, List.length_eq_zero_iff]
  rw [version, version, byteAt_congr hhead hn]
  by_cases hraw : raw = []
  · rw [if_pos hraw, if_pos (hnil.mpr hraw)]
  · rw [if_neg hraw, if_neg (mt hnil.mp hraw)]

theorem endpoints_rewrite {raw : Bytes} {v : Version} {seg : Segment} (hv : version raw = some v)
    (h : v.family.segment raw = some seg) {src dst : SocketAddr}
    (hsrc : v.family.contains src.ip = true) (hdst : v.family.contains dst.ip = true) :
    endpoints (v.family.rewrite raw seg.tcpOff src dst) = some (src, dst) := by
  obtain ⟨hoff, hlen, -, -⟩ := Family.segment_eq_some h
  obtain ⟨hpkt, hfront, -⟩ := Family.rewrite_spec (v.family.le_of_tcpAt hoff) hlen hsrc hdst
  have hversion := (version_congr hpkt hfront v.headLen_pos).trans hv
  rw [endpoints, hversion, Option.bind_some, Family.segment_rewrite h hsrc hdst, Option.map_some]

namespace TunConfig

variable {cfg : TunConfig}

theorem processPacket_eq {raw : Bytes} {v : Version} (h : version raw = some v) (s : Tun)
    (order : List UInt16) : cfg.processPacket s order raw
      = v.family.handleTcp (cfg.inet v) s.now order s.nat raw := by
  rw [processPacket, h]
  cases v with
  | v4 => rfl
  | v6 => rfl

/-- A family with an address has the one behind it as well. -/
theorem inet_spec {v : Version} {addr : IpAddr} (h : (cfg.inet v).addr = some addr) :
    v.family.contains addr = true ∧
      ∃ next, (cfg.inet v).next = some next ∧ v.family.contains next = true := by
  cases v with
  | v4 =>
      obtain ⟨a, ha, rfl⟩ := Option.map_eq_some_iff.mp h
      refine ⟨rfl, .v4 (a + 1), ?_, rfl⟩
      show cfg.inet4Addr.map _ = _
      rw [ha, Option.map_some]
  | v6 =>
      obtain ⟨a, ha, rfl⟩ := Option.map_eq_some_iff.mp h
      refine ⟨rfl, .v6 (a + 1), ?_, rfl⟩
      show cfg.inet6Addr.map _ = _
      rw [ha, Option.map_some]

/-- What it takes to be sent on. -/
theorem forwards_eq_some {raw : Bytes} {src dst : SocketAddr}
    (h : cfg.forwards raw = some (src, dst)) :
    ∃ v addr seg, version raw = some v ∧ (cfg.inet v).addr = some addr ∧
      v.family.segment raw = some seg ∧ seg.src = src ∧ seg.dst = dst ∧
      seg.src ≠ ⟨addr, (cfg.inet v).tcpPort⟩ ∧ v.family.filtered seg.dst.ip = false := by
  obtain ⟨v, hv, h⟩ := Option.bind_eq_some_iff.mp h
  obtain ⟨addr, haddr, h⟩ := Option.bind_eq_some_iff.mp h
  obtain ⟨seg, hseg, h⟩ := Option.bind_eq_some_iff.mp h
  split at h
  · cases h
  · rename_i hcond
    simp only [Bool.or_eq_true, decide_eq_true_eq, not_or, Bool.not_eq_true] at hcond
    obtain ⟨rfl, rfl⟩ := Prod.mk.inj (Option.some.inj h)
    exact ⟨v, addr, seg, hv, haddr, hseg, rfl, rfl, hcond.1, hcond.2⟩

/-- **A packet that is sent on** comes from its NAT port and goes to the listener. -/
theorem processPacket_forwards {raw : Bytes} {src dst : SocketAddr}
    (h : cfg.forwards raw = some (src, dst)) (s : Tun) (order : List UInt16) :
    ∃ v addr next pkt, (cfg.inet v).addr = some addr ∧ v.family.contains src.ip = true ∧
      v.family.contains dst.ip = true ∧
      cfg.processPacket s order raw
        = (some pkt, (s.nat.lookupOrInsert s.now order src dst).2) ∧
      endpoints pkt = some (⟨next, (s.nat.lookupOrInsert s.now order src dst).1⟩,
        ⟨addr, (cfg.inet v).tcpPort⟩) := by
  obtain ⟨v, addr, seg, hv, haddr, hseg, rfl, rfl, hne, hfilter⟩ := forwards_eq_some h
  obtain ⟨hcontains, next, hnext, hnextIp⟩ := inet_spec haddr
  obtain ⟨-, -, hsrc, hdst⟩ := Family.segment_eq_some hseg
  refine ⟨v, addr, next, _, haddr, hsrc, hdst, ?_, endpoints_rewrite hv hseg hnextIp hcontains⟩
  rw [processPacket_eq hv, Family.handleTcp, haddr, hnext, hseg]
  dsimp only
  rw [if_neg hne, hfilter, if_neg Bool.false_ne_true]

/-- **A packet of the listener** is rewritten to go back to the source behind its port. -/
theorem processPacket_reply {raw : Bytes} {v : Version} {addr : IpAddr} {back src dst : SocketAddr}
    (haddr : (cfg.inet v).addr = some addr)
    (hraw : endpoints raw = some (⟨addr, (cfg.inet v).tcpPort⟩, back)) {s : Tun}
    (hentry : s.nat.entry back.port = some (src, dst)) (hsrc : v.family.contains src.ip = true)
    (hdst : v.family.contains dst.ip = true) (order : List UInt16) :
    ∃ pkt, (cfg.processPacket s order raw).1 = some pkt ∧ endpoints pkt = some (dst, src) := by
  obtain ⟨v', hv', hmap⟩ := Option.bind_eq_some_iff.mp hraw
  obtain ⟨seg, hseg, hends⟩ := Option.map_eq_some_iff.mp hmap
  obtain ⟨hsegSrc, hsegDst⟩ := Prod.mk.inj hends
  obtain ⟨hcontains, next, hnext, -⟩ := inet_spec haddr
  -- the listener's address tells the family
  obtain rfl : v' = v := by
    obtain ⟨-, -, hsegIp, -⟩ := Family.segment_eq_some hseg
    rw [hsegSrc] at hsegIp
    exact Version.contains_unique hsegIp hcontains
  refine ⟨_, ?_, endpoints_rewrite hv' hseg hdst hsrc⟩
  rw [processPacket_eq hv', Family.handleTcp, haddr, hnext, hseg]
  dsimp only
  rw [if_pos hsegSrc, TcpNat.lookupBack, hsegDst, hentry]
  dsimp only
  rw [hdst, hsrc, Bool.and_self, if_pos rfl]

/-- What a packet can do to the table. -/
theorem processPacket_nat (s : Tun) (order : List UInt16) (raw : Bytes) :
    (cfg.processPacket s order raw).2 = s.nat ∨
    (∃ port, (cfg.processPacket s order raw).2 = s.nat.touch s.now port) ∨
    ∃ src dst, cfg.forwards raw = some (src, dst) ∧
      (cfg.processPacket s order raw).2 = (s.nat.lookupOrInsert s.now order src dst).2 := by
  rcases hfwd : cfg.forwards raw with _ | ⟨src, dst⟩
  · rcases hv : version raw with _ | v
    · left
      rw [processPacket, hv]
    · rw [processPacket_eq hv, Family.handleTcp]
      split
      · rename_i addr next seg haddr hnext hseg
        split
        · right
          left
          refine ⟨seg.dst.port, ?_⟩
          rw [TcpNat.lookupBack]
          split
          · rename_i hback
            rw [← (Prod.mk.inj hback).2]
            split <;> rfl
          · rename_i hback
            exact (Prod.mk.inj hback).2.symm
        · rename_i hne
          split
          · exact .inl rfl
          · -- the packet would have been sent on
            rename_i hfilter
            rw [forwards, hv, Option.bind_some, haddr, Option.bind_some, hseg,
              Option.bind_some, if_neg (by simpa [hne] using hfilter)] at hfwd
            cases hfwd
      · exact .inl rfl
  · obtain ⟨v, addr, next, pkt, -, -, -, hout, -⟩ := processPacket_forwards hfwd s order
    exact .inr (.inr ⟨src, dst, rfl, by rw [hout]⟩)

/-- What a connection does to the table. -/
theorem acceptLoop_nat (s : Tun) (natPort : UInt16) :
    (cfg.acceptLoop s natPort).2 = s.nat.touch s.now natPort := by
  rw [acceptLoop, TcpNat.lookupBack]
  split
  · rename_i h
    exact (Prod.mk.inj h).2.symm
  · rename_i h
    exact (Prod.mk.inj h).2.symm

theorem acceptLoop_of_entry {s : Tun} {natPort : UInt16} {src dst : SocketAddr}
    (h : s.nat.entry natPort = some (src, dst)) :
    (cfg.acceptLoop s natPort).1 = some { target := .socket dst, inboundTag := cfg.tag } := by
  rw [acceptLoop, TcpNat.lookupBack, h]

end TunConfig

/-! ### Runs -/

namespace TunConfig

variable {cfg : TunConfig}

theorem valid_step {s s' : Tun} {a : Action} (h : cfg.step s a = some s')
    (hvalid : s.nat.Valid) : s'.nat.Valid := by
  cases a with
  | packet order raw =>
      obtain rfl := Option.some.inj h
      show (cfg.processPacket s order raw).2.Valid
      rcases cfg.processPacket_nat s order raw with hnat | ⟨port, hnat⟩ | ⟨src, dst, -, hnat⟩
      · rw [hnat]
        exact hvalid
      · rw [hnat]
        exact TcpNat.valid_touch hvalid s.now port
      · rw [hnat]
        exact TcpNat.valid_lookupOrInsert hvalid s.now order src dst
  | accept natPort =>
      obtain rfl := Option.some.inj h
      show (cfg.acceptLoop s natPort).2.Valid
      rw [acceptLoop_nat]
      exact TcpNat.valid_touch hvalid s.now natPort
  | gc order =>
      obtain rfl := Option.some.inj h
      exact TcpNat.valid_gc hvalid s.now cfg.timeout order
  | tick elapsed =>
      obtain rfl := Option.some.inj h
      exact hvalid

/-- An entry stays as it is until it is evicted or collected. -/
theorem entry_step {s s' : Tun} {a : Action} {port : UInt16} {e : SocketAddr × SocketAddr}
    (h : cfg.step s a = some s') (hkeep : cfg.drops port s a = false)
    (hentry : s.nat.entry port = some e) : s'.nat.entry port = some e := by
  cases a with
  | packet order raw =>
      obtain rfl := Option.some.inj h
      show (cfg.processPacket s order raw).2.entry port = some e
      rcases cfg.processPacket_nat s order raw with hnat | ⟨q, hnat⟩ | ⟨src, dst, hfwd, hnat⟩
      · rw [hnat]
        exact hentry
      · rw [hnat, TcpNat.entry_touch]
        exact hentry
      · rw [hnat]
        rw [drops, hfwd, Option.any_some, beq_eq_false_iff_ne] at hkeep
        exact TcpNat.entry_lookupOrInsert s.now dst hentry hkeep
  | accept natPort =>
      obtain rfl := Option.some.inj h
      show (cfg.acceptLoop s natPort).2.entry port = some e
      rw [acceptLoop_nat, TcpNat.entry_touch]
      exact hentry
  | gc order =>
      obtain rfl := Option.some.inj h
      exact (TcpNat.entry_gc (of_decide_eq_false hkeep)).trans hentry
  | tick elapsed =>
      obtain rfl := Option.some.inj h
      exact hentry

theorem valid_of_run {s : Tun} {as : List Action} (h : run cfg.step start as = some s) :
    s.nat.Valid :=
  invariant_of_steps (fun _ _ _ hstep hvalid => valid_step hstep hvalid) h TcpNat.valid_new

/-- **Evictions.**  A packet evicts an entry only when every port of the pool is taken. -/
theorem isSome_of_drops_packet {s : Tun} {as : List Action} (h : run cfg.step start as = some s)
    {order : List UInt16} {raw : Bytes} {q : UInt16}
    (hdrop : cfg.drops q s (.packet order raw) = true) {port : UInt16}
    (hport : TcpNat.inPool port) : (s.nat.portMap port).isSome := by
  obtain ⟨e, -, hevict⟩ := (Option.any_eq_true _ _).mp hdrop
  exact TcpNat.isSome_of_evicts (valid_of_run h).portIndex (eq_of_beq hevict) hport

theorem entry_of_run {s s' : Tun} {as : List Action} {port : UInt16}
    {e : SocketAddr × SocketAddr} (h : run cfg.step s as = some s')
    (hkeep : Guarded cfg.step (fun s a => cfg.drops port s a = false) s as)
    (hentry : s.nat.entry port = some e) : s'.nat.entry port = some e :=
  invariant_of_run (fun _ _ _ hstep hdrop h => entry_step hstep hdrop h) h hkeep hentry

/-- What the inbound is for: the connection from a NAT port is handed on with the destination `dst`,
    and what the listener replies to the port goes from `dst` to `src`. -/
def Restores (cfg : TunConfig) (s : Tun) (natSrc listener src dst : SocketAddr) : Prop :=
  (∃ stream, (cfg.acceptLoop s natSrc.port).1 = some stream ∧ stream.target = .socket dst) ∧
    ∀ reply back order, endpoints reply = some (listener, back) → back.port = natSrc.port →
      ∃ pkt, (cfg.processPacket s order reply).1 = some pkt ∧ endpoints pkt = some (dst, src)

/-- **The NAT ports lead back.**  A packet from `src` to `dst` is sent on from a NAT port; as long
    as the entry of the port is neither evicted nor collected, the port leads back to `src` and
    `dst` exactly when `src` had no entry or one for `dst`. -/
theorem nat_restores_iff (cfg : TunConfig) {as : List Action} {s : Tun}
    (hs : run cfg.step start as = some s) {order : List UInt16} {raw pkt : Bytes}
    {src dst natSrc listener : SocketAddr} (hfwd : cfg.forwards raw = some (src, dst))
    (hpkt : (cfg.processPacket s order raw).1 = some pkt)
    (hends : endpoints pkt = some (natSrc, listener)) {t : Tun}
    (ht : cfg.step s (.packet order raw) = some t) {bs : List Action} {t' : Tun}
    (hrun : run cfg.step t bs = some t')
    (hkeep : Guarded cfg.step (fun s a => cfg.drops natSrc.port s a = false) t bs) :
    cfg.Restores t' natSrc listener src dst ↔ ∀ d, s.nat.destination src = some d → d = dst := by
  obtain ⟨v, addr, next, pkt', haddr, hsrc, hdst, hout, hends'⟩ :=
    processPacket_forwards hfwd s order
  rw [hout] at hpkt
  obtain rfl := Option.some.inj hpkt
  rw [hends] at hends'
  obtain ⟨rfl, rfl⟩ := Prod.mk.inj (Option.some.inj hends')
  -- the entry of the port after the packet, and so after the rest of the run
  have hentry : t.nat.entry (s.nat.lookupOrInsert s.now order src dst).1
      = some (src, (s.nat.destination src).getD dst) := by
    obtain rfl := Option.some.inj ht
    show (cfg.processPacket s order raw).2.entry _ = _
    rw [hout]
    exact TcpNat.lookupOrInsert_spec (valid_of_run hs).inverse s.now order src dst
  have hentry' := entry_of_run hrun hkeep hentry
  constructor
  · rintro ⟨⟨stream, haccept, htarget⟩, -⟩ d hd
    rw [acceptLoop_of_entry hentry', hd, Option.getD_some] at haccept
    obtain rfl := Option.some.inj haccept
    injection htarget with htarget
  · intro hcond
    have hgetD : (s.nat.destination src).getD dst = dst := by
      rcases hd : s.nat.destination src with _ | d
      · rfl
      · exact hcond d hd
    rw [hgetD] at hentry'
    refine ⟨⟨_, acceptLoop_of_entry hentry', rfl⟩, ?_⟩
    intro reply back order' hreply hport
    have hback : t'.nat.entry back.port = some (src, dst) := by
      rw [hport]
      exact hentry'
    exact processPacket_reply haddr hreply hback hsrc hdst order'

end TunConfig

/-! ### A source that is used for two destinations -/

namespace TunConfig

/-- An IPv4 packet with a SYN from `src` to `dst`. -/
def synV4 (src dst : Ipv4Addr) (srcPort dstPort : UInt16) : Bytes :=
  [0x45, 0, 0, 40, 0, 0, 0, 0, 64, 6, 0, 0] ++ src.octets ++ dst.octets ++ portBytes srcPort
    ++ portBytes dstPort ++ [0, 0, 0, 0, 0, 0, 0, 0, 0x50, 0x02, 0xFF, 0xFF, 0, 0, 0, 0]

/-- A device with the address `172.19.0.1`. -/
def exampleTun : TunConfig where
  tag := "tun".toList
  inet4Addr := some 0xAC130001#32
  inet6Addr := none
  tcpPortV4 := 40001
  tcpPortV6 := 0
  timeout := 300

/-- The client, and the two servers it connects to. -/
def exampleClient : SocketAddr := ⟨.v4 0x0A000002#32, 5000⟩
def firstServer : SocketAddr := ⟨.v4 0x01010101#32, 80⟩
def secondServer : SocketAddr := ⟨.v4 0x02020202#32, 443⟩

/-- Its packets to the two servers, from one source port. -/
def firstSyn : Bytes := synV4 0x0A000002#32 0x01010101#32 5000 80
def secondSyn : Bytes := synV4 0x0A000002#32 0x02020202#32 5000 443

/-- The NAT port of the client, and the listener. -/
def exampleNatSrc : SocketAddr := ⟨.v4 0xAC130002#32, 10000⟩
def exampleListener : SocketAddr := ⟨.v4 0xAC130001#32, 40001⟩

/-- The client's port is used for the second server while the entry for the first is there: the
    connection is handed on with the first server's address. -/
theorem nat_restores_first_destination :
    ∃ s t pkt, run exampleTun.step start [.packet [] firstSyn] = some s ∧
      exampleTun.forwards secondSyn = some (exampleClient, secondServer) ∧
      (exampleTun.processPacket s [] secondSyn).1 = some pkt ∧
      endpoints pkt = some (exampleNatSrc, exampleListener) ∧
      exampleTun.step s (.packet [] secondSyn) = some t ∧
      ¬ exampleTun.Restores t exampleNatSrc exampleListener exampleClient secondServer := by
  refine ⟨_, _, (exampleTun.processPacket
    ⟨(exampleTun.processPacket start [] firstSyn).2, 0⟩ [] secondSyn).1.getD [], rfl,
    by decide +kernel, by decide +kernel, by decide +kernel, rfl, ?_⟩
  rintro ⟨⟨stream, haccept, htarget⟩, -⟩
  have hfirst : (exampleTun.acceptLoop
      ⟨(exampleTun.processPacket ⟨(exampleTun.processPacket start [] firstSyn).2, 0⟩ []
        secondSyn).2, 0⟩ exampleNatSrc.port).1.map (·.target) = some (.socket firstServer) := by
    decide
  have hsecond := (congrArg (Option.map (·.target)) haccept).symm.trans hfirst
  rw [Option.map_some, htarget] at hsecond
  revert hsecond
  decide

theorem nat_restores_first_syn :
    ∃ t', run exampleTun.step start [.packet [] firstSyn, .tick 5, .accept 10000] = some t' ∧
      exampleTun.Restores t' exampleNatSrc exampleListener exampleClient firstServer := by
  obtain ⟨t, ht⟩ : ∃ t, exampleTun.step start (.packet [] firstSyn) = some t := ⟨_, rfl⟩
  obtain ⟨t', hrun⟩ : ∃ t', run exampleTun.step t [.tick 5, .accept 10000] = some t' := ⟨_, rfl⟩
  have hstart : run exampleTun.step start [] = some start := rfl
  have hfwd : exampleTun.forwards firstSyn = some (exampleClient, firstServer) := by
    decide
  have hpkt : (exampleTun.processPacket start [] firstSyn).1
      = some ((exampleTun.processPacket start [] firstSyn).1.getD []) := by
    decide +kernel
  have hends : endpoints ((exampleTun.processPacket start [] firstSyn).1.getD [])
      = some (exampleNatSrc, exampleListener) := by
    decide
  have hkeep : Guarded exampleTun.step
      (fun s a => exampleTun.drops exampleNatSrc.port s a = false) t [.tick 5, .accept 10000] :=
    ⟨rfl, fun _ _ => ⟨rfl, fun _ _ => trivial⟩⟩
  refine ⟨t', ?_, (nat_restores_iff exampleTun hstart hfwd hpkt hends ht hrun hkeep).mpr ?_⟩
  · rw [run, ht, Option.bind_some, hrun]
  · intro d hd
    cases hd

end TunConfig

end Reflex.Inbound
