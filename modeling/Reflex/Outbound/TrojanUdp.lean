import Reflex.Lib.SegmentReader
import Reflex.Outbound.ClientHeader

namespace Reflex.Outbound

open RustStd PolledStream

/-!
# Outbounds — UDP over Trojan

`handle_udp` and `build_udp_frame` of `outbound/trojan.rs`.  Datagrams are framed on one stream in both
directions, each with an address, its length and a line end in front.  The loop for the replies reads
the address only to skip it, and leaves at the end of the stream, at an unknown kind of address and at
a length of zero.

* `takes_readFrame` — a frame is read to its end, whatever its source;
* `receive_frames` — the payloads up to the first empty one are handed on, in their order;
* `handleUdp_delivers_iff` — all of them are, exactly if none is empty, and so for the frames that
  `build_udp_frame` makes.
-/

/-! ### What is sent -/

/-- `build_udp_handshake`. -/
def buildUdpHandshake (sha224 : Bytes → Vector UInt8 28) (password : Str) (target : Target) : Bytes :=
  deriveKey sha224 password ++ (crlf ++ ([0x03] ++ (writeAddr target ++ crlf)))

/-- `build_udp_frame`, with `data.len() as u16`. -/
def buildUdpFrame (target : Target) (data : Bytes) : Bytes :=
  writeAddr target ++ (beBytes 2 (UInt16.ofNat data.length).toNat ++ (crlf ++ data))

/-! ### What comes back -/

/-- Why a read of the stream fails. -/
inductive IoError (ε : Type) where
  | unexpectedEof
  | other (e : ε)
  deriving DecidableEq, Repr

variable {ε : Type}

/-- The loop is left with the result of `handle_udp`. -/
abbrev FrameReader (ε α : Type) := Reader ε (Except (IoError ε) Unit) α

/-- `reader.read_exact(..).await?`. -/
def exactly (n : Nat) : FrameReader ε Bytes :=
  Reader.readExact (.error .unexpectedEof) (fun e => .error (.other e)) n

/-- The length of the address, by its kind. -/
def readAddrLen (atyp : UInt8) : FrameReader ε Nat :=
  if atyp = 0x01 then pure 4
  else if atyp = 0x04 then pure 16
  else if atyp = 0x03 then do
    let domainLenBuf ← exactly 1
    pure (domainLenBuf.headD 0).toNat
  else Reader.bail (.ok ())

/-- One round of the loop, as far as the payload. -/
def readFrame : FrameReader ε Bytes := do
  -- the end of the stream in front of a frame is no error
  let atypBuf ← Reader.readExact (.ok ()) (fun e => .error (.other e)) 1
  let addrLen ← readAddrLen (atypBuf.headD 0)
  let skipBuf ← exactly (addrLen + 2 + 2 + 2)
  let lenOffset := addrLen + 2
  let dataLen := beVal ((skipBuf.drop lenOffset).take 2)
  if dataLen = 0 then Reader.bail (.ok ()) else exactly dataLen

/-- The loop: the payloads, and what `handle_udp` returns. -/
def receive : Nat → PolledStream.Transport ε → Option (List Bytes × Except (IoError ε) Unit)
  | 0, _ => none
  | fuel + 1, t =>
      match readFrame t with
      | (.error result, _) => some ([], result)
      | (.ok data, t) => (receive fuel t).map fun (datas, result) => (data :: datas, result)

/-- What `handle_udp` does: the header it dials with, the frames it writes, what it sends on
    `reply_tx`, and what it returns. -/
structure UdpSession (ε : Type) where
  header : Bytes
  frames : List Bytes
  replies : List (Bytes × SocketAddr × SocketAddr)
  result : Except (IoError ε) Unit

/-- `handle_udp` with the packets that come behind the first one, on a stream that brings `t`. -/
def handleUdp (sha224 : Bytes → Vector UInt8 28) (password : Str) (packet : InboundUdpPacket)
    (upstream : List Bytes) (t : PolledStream.Transport ε) : Option (UdpSession ε) :=
  (receive (t.bytes.length + 1) t).map fun (datas, result) =>
    { header := buildUdpHandshake sha224 password packet.target
      frames := (packet.data :: upstream).map (buildUdpFrame packet.target)
      replies := datas.map fun data => (data, packet.src, packet.target.toSocketAddrLossy)
      result }

/-! ### The frames of a server -/

/-- The source of a datagram. -/
inductive UdpSource where
  | ipv4 (ip : Ipv4Addr)
  | ipv6 (ip : Ipv6Addr)
  | domain (name : Bytes) (length_le : name.length ≤ 255)

namespace UdpSource

def atyp : UdpSource → UInt8
  | .ipv4 _ => 0x01
  | .ipv6 _ => 0x04
  | .domain .. => 0x03

/-- The length in front of a domain. -/
def lenBytes : UdpSource → Bytes
  | .domain name _ => [UInt8.ofNat name.length]
  | _ => []

def addr : UdpSource → Bytes
  | .ipv4 ip => ip.octets
  | .ipv6 ip => ip.octets
  | .domain name _ => name

end UdpSource

/-- A datagram that a server sends. -/
structure UdpDatagram where
  source : UdpSource
  port : UInt16
  payload : Bytes
  length_le : payload.length ≤ 65535

/-- What is behind the kind of the address and in front of the payload. -/
def UdpDatagram.skipped (d : UdpDatagram) : Bytes :=
  d.source.addr ++ (beBytes 2 d.port.toNat ++ (beBytes 2 d.payload.length ++ crlf))

/-- `[ATYP][ADDR][PORT][LEN][CRLF][DATA]`. -/
def UdpDatagram.frame (d : UdpDatagram) : Bytes :=
  [d.source.atyp] ++ (d.source.lenBytes ++ (d.skipped ++ d.payload))

/-- The host of a target has a length that fits into a byte. -/
def HostFits : Target → Prop
  | .domain host _ => (utf8 host).length ≤ 255
  | .socket _ => True

/-- A frame that the client builds is one that a server could send. -/
theorem exists_frame_eq_buildUdpFrame {target : Target} {data : Bytes} (hhost : HostFits target)
    (hdata : data.length ≤ 65535) :
    ∃ d : UdpDatagram, d.payload = data ∧ d.frame = buildUdpFrame target data := by
  have hlen : (UInt16.ofNat data.length).toNat = data.length :=
    UInt16.toNat_ofNat_of_lt' (by simp [UInt16.size]; omega)
  cases target with
  | domain host port =>
    refine ⟨⟨.domain (utf8 host) hhost, port, data, hdata⟩, rfl, ?_⟩
    simp [UdpDatagram.frame, UdpDatagram.skipped, UdpSource.atyp, UdpSource.lenBytes, UdpSource.addr,
      buildUdpFrame, writeAddr, putHost, hlen]
  | socket addr =>
    rcases haddr : addr.ip with ip | ip
    · refine ⟨⟨.ipv4 ip, addr.port, data, hdata⟩, rfl, ?_⟩
      simp [UdpDatagram.frame, UdpDatagram.skipped, UdpSource.atyp, UdpSource.lenBytes, UdpSource.addr,
        buildUdpFrame, writeAddr, haddr, hlen]
    · refine ⟨⟨.ipv6 ip, addr.port, data, hdata⟩, rfl, ?_⟩
      simp [UdpDatagram.frame, UdpDatagram.skipped, UdpSource.atyp, UdpSource.lenBytes, UdpSource.addr,
        buildUdpFrame, writeAddr, haddr, hlen]

/-! ### Reading a frame -/

theorem takes_exactly {n : Nat} {bs : Bytes} (h : bs.length = n) :
    Takes (exactly n : FrameReader ε Bytes) bs (.ok bs) := takes_readExact _ _ h

theorem takes_readAddrLen (s : UdpSource) :
    Takes (readAddrLen s.atyp : FrameReader ε Nat) s.lenBytes (.ok s.addr.length) := by
  cases s with
  | ipv4 ip =>
    show Takes (pure 4) [] (.ok ip.octets.length)
    rw [Ipv4Addr.length_octets]
    apply takes_pure
  | ipv6 ip =>
    show Takes (pure 16) [] (.ok ip.octets.length)
    rw [Ipv6Addr.length_octets]
    apply takes_pure
  | domain name hle =>
    have htoNat : (UInt8.ofNat name.length).toNat = name.length :=
      UInt8.toNat_ofNat_of_lt' (by simp [UInt8.size]; omega)
    show Takes (exactly 1 >>= fun domainLenBuf => pure (domainLenBuf.headD 0).toNat) _ _
    refine Takes.bind_nil (takes_exactly rfl) ?_
    show Takes (pure (UInt8.ofNat name.length).toNat) [] (.ok name.length)
    rw [htoNat]
    apply takes_pure

/-- The length stands behind the address and the port. -/
theorem dataLen_skipped (d : UdpDatagram) :
    beVal ((d.skipped.drop (d.source.addr.length + 2)).take 2) = d.payload.length := by
  have hlt : d.payload.length < 256 ^ 2 := by
    have := d.length_le
    omega
  rw [UdpDatagram.skipped, ← List.append_assoc, List.drop_left' (by simp), List.take_left' (by simp),
    beVal_beBytes_of_lt hlt]

/-- **Reading a frame** takes it to its end, whatever the kind of its source, and brings its payload;
    an empty one ends the loop. -/
theorem takes_readFrame (d : UdpDatagram) : Takes (readFrame : FrameReader ε Bytes) d.frame
    (if d.payload = [] then .error (.ok ()) else .ok d.payload) := by
  refine Takes.bind (takes_readExact _ _ rfl) (Takes.bind (takes_readAddrLen d.source) ?_)
  refine Takes.bind (takes_exactly (by simp [UdpDatagram.skipped, crlf])) ?_
  dsimp only
  rw [dataLen_skipped]
  by_cases hpayload : d.payload = []
  · simp only [hpayload, List.length_nil, if_true]
    apply takes_bail
  · rw [if_neg hpayload, if_neg (by simpa using hpayload)]
    exact takes_exactly rfl

/-- At the end of the stream, between two frames, the reader stops without an error. -/
theorem readFrame_of_end {t : PolledStream.Transport ε} (hclean : t.Clean) (hbytes : t.bytes = []) :
    (readFrame t).1 = .error (.ok ()) :=
  bind_of_error (readExact_of_end _ _ Nat.one_pos hclean hbytes)

/-! ### The loop -/

theorem exactly_eq_ok {n : Nat} {t t' : PolledStream.Transport ε} {bs : Bytes}
    (h : (exactly n : FrameReader ε Bytes) t = (.ok bs, t')) : t.bytes = bs ++ t'.bytes :=
  (readExact_eq_ok h).1

/-- A frame has at least one byte. -/
theorem readFrame_lt {t t' : PolledStream.Transport ε} {data : Bytes} (h : readFrame t = (.ok data, t')) :
    t'.bytes.length < t.bytes.length := by
  obtain ⟨atypBuf, t₁, hatyp, h⟩ := bind_eq_ok.mp h
  obtain ⟨addrLen, t₂, haddr, h⟩ := bind_eq_ok.mp h
  obtain ⟨skipBuf, t₃, hskip, h⟩ := bind_eq_ok.mp h
  obtain ⟨hfirst, hone⟩ := readExact_eq_ok hatyp
  have hlen₂ : t₂.bytes.length ≤ t₁.bytes.length := by
    unfold readAddrLen at haddr
    split_ifs at haddr
    · obtain ⟨-, rfl⟩ := Prod.mk.inj haddr
      exact le_rfl
    · obtain ⟨-, rfl⟩ := Prod.mk.inj haddr
      exact le_rfl
    · obtain ⟨lenBuf, t', hlenBuf, hpure⟩ := bind_eq_ok.mp haddr
      obtain ⟨-, rfl⟩ := Prod.mk.inj hpure
      rw [exactly_eq_ok hlenBuf]
      simp
    · cases (Prod.mk.inj haddr).1
  have hlen₃ : t'.bytes.length ≤ t₃.bytes.length := by
    split at h
    · cases (Prod.mk.inj h).1
    · rw [exactly_eq_ok h]
      simp
  rw [hfirst, List.length_append, hone]
  rw [exactly_eq_ok hskip, List.length_append] at hlen₂
  omega

/-- The loop that receives datagrams comes to an end, within as many rounds as there are bytes. -/
theorem exists_receive {fuel : Nat} {t : PolledStream.Transport ε} (hfuel : t.bytes.length < fuel) :
    ∃ out, receive fuel t = some out := by
  induction fuel generalizing t with
  | zero => exact absurd hfuel (Nat.not_lt_zero _)
  | succ fuel ih =>
    rw [receive]
    rcases hframe : readFrame t with ⟨result | data, t'⟩
    · exact ⟨_, rfl⟩
    · have hlt := readFrame_lt hframe
      obtain ⟨out, hout⟩ := ih (t := t') (by omega)
      simp only [hout, Option.map_some]
      exact ⟨_, rfl⟩

/-- Every session ends, whatever comes in. -/
theorem exists_handleUdp (sha224 : Bytes → Vector UInt8 28) (password : Str)
    (packet : InboundUdpPacket) (upstream : List Bytes) (t : PolledStream.Transport ε) :
    ∃ session, handleUdp sha224 password packet upstream t = some session := by
  obtain ⟨out, hout⟩ := exists_receive (Nat.lt_succ_self t.bytes.length)
  rw [handleUdp, hout]
  exact ⟨_, rfl⟩

/-- **The loop** hands on the payloads up to the first empty one. -/
theorem receive_frames {ds : List UdpDatagram} {fuel : Nat} {t : PolledStream.Transport ε} (hclean : t.Clean)
    (hbytes : t.bytes = (ds.map UdpDatagram.frame).flatten) (hfuel : ds.length < fuel) :
    receive fuel t
      = some ((ds.takeWhile fun d => d.payload ≠ []).map UdpDatagram.payload, .ok ()) := by
  induction ds generalizing fuel t with
  | nil =>
    obtain ⟨fuel, rfl⟩ := Nat.exists_eq_add_of_lt hfuel
    have hend := readFrame_of_end hclean hbytes
    rw [receive]
    rcases hframe : readFrame t with ⟨r, t'⟩
    rw [hframe] at hend
    obtain rfl : r = .error (.ok ()) := hend
    rfl
  | cons d ds ih =>
    obtain ⟨fuel, rfl⟩ : ∃ m, fuel = m + 1 := Nat.exists_eq_add_one_of_ne_zero (by omega)
    rw [List.map_cons, List.flatten_cons] at hbytes
    obtain ⟨t', hframe, hclean', hbytes'⟩ := takes_readFrame d t _ hclean hbytes
    rw [receive, hframe]
    by_cases hpayload : d.payload = []
    · -- an empty payload ends the loop
      rw [if_pos hpayload, List.takeWhile_cons_of_neg (by simpa using hpayload)]
      rfl
    · have hrest := ih hclean' hbytes' (Nat.lt_of_succ_lt_succ hfuel)
      rw [if_neg hpayload, List.takeWhile_cons_of_pos (by simpa using hpayload)]
      simp only [hrest, Option.map_some, List.map_cons]

theorem length_le_frames (ds : List UdpDatagram) :
    ds.length ≤ (ds.map UdpDatagram.frame).flatten.length := by
  induction ds with
  | nil => exact le_rfl
  | cons d ds ih =>
    rw [List.map_cons, List.flatten_cons, List.length_append, List.length_cons, UdpDatagram.frame,
      List.length_append, List.length_singleton]
    omega

/-! ### Sessions -/

section Session

variable (sha224 : Bytes → Vector UInt8 28) (password : Str) (packet : InboundUdpPacket)
  (upstream : List Bytes)

/-- The session hands on just these payloads, in this order. -/
def Delivers (t : PolledStream.Transport ε) (datas : List Bytes) : Prop :=
  (handleUdp sha224 password packet upstream t).map UdpSession.replies
    = some (datas.map fun data => (data, packet.src, packet.target.toSocketAddrLossy))

/-- Of the frames of a server, a session hands on the payloads up to the first empty one. -/
theorem delivers_frames_iff {ds : List UdpDatagram} {t : PolledStream.Transport ε} (hclean : t.Clean)
    (hbytes : t.bytes = (ds.map UdpDatagram.frame).flatten) (datas : List Bytes) :
    Delivers sha224 password packet upstream t datas ↔
      datas = (ds.takeWhile fun d => d.payload ≠ []).map UdpDatagram.payload := by
  have hfuel : ds.length < t.bytes.length + 1 := Nat.lt_succ_of_le (hbytes ▸ length_le_frames ds)
  have hinj : Function.Injective fun data : Bytes =>
      (data, packet.src, packet.target.toSocketAddrLossy) := fun _ _ h => (Prod.mk.inj h).1
  rw [Delivers, handleUdp, receive_frames hclean hbytes hfuel, Option.map_some, Option.map_some,
    Option.some.injEq, List.map_inj_right fun _ _ h => hinj h]
  exact eq_comm

/-- Nothing is cut off, exactly if no payload is empty. -/
theorem payloads_takeWhile_iff (ds : List UdpDatagram) :
    ds.map UdpDatagram.payload
        = (ds.takeWhile fun d => d.payload ≠ []).map UdpDatagram.payload ↔
      ∀ d ∈ ds, d.payload ≠ [] := by
  constructor
  · intro h d hd
    have hlen := congrArg List.length h
    rw [List.length_map, List.length_map] at hlen
    have hall := (List.takeWhile_prefix _).eq_of_length hlen.symm
    simpa using List.takeWhile_eq_self_iff.mp hall d hd
  · intro h
    rw [List.takeWhile_eq_self_iff.mpr fun d hd => decide_eq_true (h d hd)]

/-- **UDP over Trojan.** Of the frames that a server sends, however the stream cuts them, a session
    hands on the payloads in their order, exactly if none of them is empty; and the same loop reads a
    frame of `build_udp_frame` back to its payload, exactly if that is not empty. -/
theorem handleUdp_delivers_iff :
    (∀ (ds : List UdpDatagram) (t : PolledStream.Transport ε), t.Clean →
        t.bytes = (ds.map UdpDatagram.frame).flatten →
        (Delivers sha224 password packet upstream t (ds.map UdpDatagram.payload) ↔
          ∀ d ∈ ds, d.payload ≠ [])) ∧
      ∀ (target : Target) (data : Bytes) (t : PolledStream.Transport ε), HostFits target →
        data.length ≤ 65535 → t.Clean → t.bytes = buildUdpFrame target data →
        (Delivers sha224 password packet upstream t [data] ↔ data ≠ []) := by
  have hframes : ∀ (ds : List UdpDatagram) (t : PolledStream.Transport ε), t.Clean →
      t.bytes = (ds.map UdpDatagram.frame).flatten →
      (Delivers sha224 password packet upstream t (ds.map UdpDatagram.payload) ↔
        ∀ d ∈ ds, d.payload ≠ []) := fun ds t hclean hbytes =>
    (delivers_frames_iff sha224 password packet upstream hclean hbytes _).trans
      (payloads_takeWhile_iff ds)
  refine ⟨hframes, fun target data t hhost hdata hclean hbytes => ?_⟩
  obtain ⟨d, rfl, hframe⟩ := exists_frame_eq_buildUdpFrame hhost hdata
  rw [← hframe] at hbytes
  simpa using hframes [d] t hclean (by simpa using hbytes)

end Session

/-- Datagrams from sources of all three kinds. -/
def someDatagrams : List UdpDatagram :=
  [⟨.ipv4 0x01020304#32, 53, [1, 2], by decide⟩, ⟨.domain [97] (by decide), 53, [3], by decide⟩,
    ⟨.ipv6 1#128, 443, [4, 5], by decide⟩]

/-- A packet for 1.2.3.4:53. -/
def somePacket : InboundUdpPacket :=
  { data := [9], src := ⟨.v4 0x0A000001#32, 4000⟩, target := .socket ⟨.v4 0x01020304#32, 53⟩
    inboundTag := [] }

/-- Bytes that arrive one at a time. -/
def oneByOne (bs : Bytes) : PolledStream.Transport Empty :=
  bs.map fun b => .data ⟨[b], List.cons_ne_nil b []⟩

theorem handleUdp_delivers_iff_oneByOne :
    Delivers (fun _ => Vector.replicate 28 0) [] somePacket []
        (oneByOne (someDatagrams.map UdpDatagram.frame).flatten) [[1, 2], [3], [4, 5]] ∧
      Delivers (fun _ => Vector.replicate 28 0) [] somePacket []
        (oneByOne (buildUdpFrame somePacket.target [7, 8])) [[7, 8]] :=
  have h := handleUdp_delivers_iff (ε := Empty) (fun _ => Vector.replicate 28 0) [] somePacket []
  ⟨(h.1 someDatagrams _ (fun e => e.elim) (by decide)).mpr (by decide),
    (h.2 somePacket.target [7, 8] _ trivial (by decide) (fun e => e.elim) (by decide)).mpr
      (by decide)⟩

/-- An empty datagram between two others: only the first one is handed on; and a frame that was built
    for an empty datagram hands nothing on. -/
theorem not_delivers_empty :
    ¬ Delivers (fun _ => Vector.replicate 28 0) [] somePacket []
        (oneByOne (([⟨.ipv4 0x01020304#32, 53, [1], by decide⟩,
          ⟨.ipv4 0x01020304#32, 53, [], by decide⟩, ⟨.ipv4 0x01020304#32, 53, [2], by decide⟩] :
            List UdpDatagram).map UdpDatagram.frame).flatten) [[1], [], [2]] ∧
      ¬ Delivers (fun _ => Vector.replicate 28 0) [] somePacket []
        (oneByOne (buildUdpFrame somePacket.target [])) [[]] := by
  unfold Delivers
  decide

end Reflex.Outbound
