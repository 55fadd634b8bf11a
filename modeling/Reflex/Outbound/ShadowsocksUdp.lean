import Reflex.Outbound.ShadowsocksKeys

namespace Reflex.Shadowsocks

open RustStd

/-!
# Shadowsocks — UDP

`handle_udp` of `outbound/shadowsocks.rs`: the packet it sends, and what it makes of the datagrams that
come back.  A packet is the salt and one sealed message, the target with the data behind it.  What
comes back is handed to the client behind its salt, and nothing else is done to it.

* `udpPacket`, `handleUdp` — as in the source;
* `length_of_udpPacket` — how long a packet is;
* `not_delivered` — under a method that encrypts, the client never gets the data of a reply.
-/

/-- A UDP datagram: its length, with the eight bytes of the header, has sixteen bits. -/
structure Datagram where
  bytes : Bytes
  length_le : bytes.length ≤ 65535 - 8

/-- How a wait of ten seconds for a datagram ends. -/
inductive Recv where
  | datagram (dgram : Datagram)
  | failed
  | timeout

/-- A message for `reply_tx`: the payload, the client and the address it seems to come from. -/
structure UdpReply where
  payload : Bytes
  src : SocketAddr
  spoofedSrc : SocketAddr
  deriving DecidableEq, Repr

namespace ShadowsocksOutbound

variable (H : SsHashes) (C : SsCiphers) (ob : ShadowsocksOutbound)

/-- A packet, with the salt that was drawn for it. -/
def udpPacket (salt : Bytes) (target : Target) (data : Bytes) : Except SsError Bytes :=
  let addrPayload := encodeTarget target ++ data
  if ob.method = .none then .ok addrPayload
  else
    match (AeadCipher.new ob.method (ob.deriveSubkey H salt)).seal C addrPayload with
    | (.error e, _) => .error e
    | (.ok addrPayload, _) => .ok (salt ++ addrPayload)

/-- The loop of `handle_udp`. -/
def receive (src spoofedSrc : SocketAddr) : List Recv → List UdpReply
  | .datagram dgram :: events =>
      let saltLen := ob.method.saltLen
      if saltLen + tagLen < dgram.bytes.length then
        { payload := dgram.bytes.drop saltLen, src, spoofedSrc } :: receive src spoofedSrc events
      else []
  | _ => []

/-- `handle_udp`, with the salt that it draws: the first packet, and the replies. -/
def handleUdp (packet : InboundUdpPacket) (salt : Bytes) (events : List Recv) :
    Except SsError (Bytes × List UdpReply) :=
  match ob.udpPacket H C salt packet.target packet.data with
  | .error e => .error e
  | .ok wire => .ok (wire, ob.receive packet.src packet.target.toSocketAddrLossy events)

/-- The reply to event number `i` carries `data`. -/
def Delivers (packet : InboundUdpPacket) (salt : Bytes) (events : List Recv) (i : Nat)
    (data : Bytes) : Prop :=
  ∃ wire replies reply, ob.handleUdp H C packet salt events = .ok (wire, replies) ∧
    replies[i]? = some reply ∧ reply.payload = data

/-! ### What comes back -/

variable {H C ob}

/-- Encryption does not change a length, the tag does. -/
theorem length_of_doSeal {keyLen : Nat} {A : AeadInPlace keyLen} {subkey buf ct : Bytes}
    {nonce : Vector UInt8 12} {tag : Vector UInt8 16} (h : doSeal A subkey buf nonce = .ok (ct, tag)) :
    ct.length = buf.length := by
  rw [doSeal] at h
  split at h
  · cases h
  · split at h
    · cases h
    · rename_i henc
      obtain ⟨rfl, rfl⟩ := Prod.mk.inj (Except.ok.inj h)
      exact A.length_encrypt henc

theorem length_of_seal {c c' : AeadCipher} {buf ct : Bytes} (hmethod : c.method ≠ .none)
    (h : c.seal C buf = (.ok ct, c')) : ct.length = buf.length + tagLen := by
  rw [AeadCipher.seal, if_neg hmethod] at h
  split at h
  · cases (Prod.mk.inj h).1
  · rename_i sealed tag hinner
    have hlen : sealed.length = buf.length := by
      rw [AeadCipher.sealInner] at hinner
      cases hm : c.method with
      | none => exact absurd hm hmethod
      | _ =>
          simp only [hm] at hinner
          exact length_of_doSeal hinner
    rw [← Except.ok.inj (Prod.mk.inj h).1, List.length_append, hlen, Vector.length_toList]
    rfl

/-- A packet has its salt, and sixteen bytes more than the target and the data. -/
theorem length_of_udpPacket (hmethod : ob.method ≠ .none) {salt data packet : Bytes} {target : Target}
    (h : ob.udpPacket H C salt target data = .ok packet) :
    packet.length = salt.length + ((encodeTarget target).length + data.length + tagLen) := by
  rw [udpPacket, if_neg hmethod] at h
  split at h
  · cases h
  · rename_i ct c hseal
    have hlen := length_of_seal hmethod hseal
    rw [← Except.ok.inj h, List.length_append, hlen, List.length_append]

/-- The reply to a datagram is that datagram behind its salt. -/
theorem payload_of_receive {src spoofedSrc : SocketAddr} {before after : List Recv} {dgram : Datagram}
    {reply : UdpReply}
    (h : (ob.receive src spoofedSrc (before ++ .datagram dgram :: after))[before.length]?
      = some reply) : reply.payload = dgram.bytes.drop ob.method.saltLen := by
  induction before with
  | nil =>
      rw [List.nil_append, receive] at h
      split at h
      · obtain rfl := Option.some.inj h
        rfl
      · cases h
  | cons event before ih =>
      cases event with
      | datagram first =>
          rw [List.cons_append, receive] at h
          split at h
          · exact ih h
          · cases h
      | failed => cases h
      | timeout => cases h

/-- Under a method that encrypts, whatever comes in before and after the reply packet, the client
    does not get its data. -/
theorem not_delivered (hmethod : ob.method ≠ .none) {salt data : Bytes} {addr : Target}
    {reply : Datagram} (hsalt : salt.length = ob.method.saltLen)
    (hreply : ob.udpPacket H C salt addr data = .ok reply.bytes) (packet : InboundUdpPacket)
    (salt' : Bytes) (before after : List Recv) :
    ¬ ob.Delivers H C packet salt' (before ++ .datagram reply :: after) before.length data := by
  rintro ⟨wire, replies, delivered, hhandle, hget, hpayload⟩
  rw [handleUdp] at hhandle
  split at hhandle
  · cases hhandle
  · obtain ⟨-, rfl⟩ := Prod.mk.inj (Except.ok.inj hhandle)
    -- the tag, and the address, are still there
    have hlen := congrArg List.length ((payload_of_receive hget).symm.trans hpayload)
    rw [List.length_drop, length_of_udpPacket hmethod hreply, hsalt] at hlen
    have htag : 0 < tagLen := by decide
    omega

end ShadowsocksOutbound

/-! ### A reply of one byte -/

/-- A key of zeros under `2022-blake3-aes-128-gcm`, and a salt. -/
def exampleOutbound : ShadowsocksOutbound :=
  { method := .ss2022Aes128Gcm, keyMaterial := List.replicate 16 0 }
def exampleSalt : Bytes := List.replicate 16 1

/-- A query, and the address of the server that it is for. -/
def exampleServer : Target := .socket ⟨.v4 0x01020304#32, 53⟩
def exampleQuery : InboundUdpPacket :=
  { data := [7], src := ⟨.v4 0x0A000002#32, 5000⟩, target := exampleServer, inboundTag := [] }

/-- The packets of one byte to and from the server. -/
theorem udpPacket_example (b : UInt8) : ∃ packet : Datagram,
    exampleOutbound.udpPacket blake3Hashes gcmCiphers exampleSalt exampleServer [b]
      = .ok packet.bytes ∧ packet.bytes.length = 40 := by
  have hkeyed : (AeadCipher.new exampleOutbound.method
      (exampleOutbound.deriveSubkey blake3Hashes exampleSalt)).Keyed :=
    ShadowsocksOutbound.keyed (by decide) exampleSalt
  have hshort : (encodeTarget exampleServer ++ [b]).length < 2 ^ 16 := by
    show 8 < 2 ^ 16
    decide
  obtain ⟨ct, hseal, hct, -⟩ := AeadCipher.seal_spec gcmCiphers_lawful hkeyed hshort
  have hlen : (exampleSalt ++ ct).length = 40 := by
    rw [List.length_append, hct]
    rfl
  refine ⟨⟨exampleSalt ++ ct, hlen ▸ by decide⟩, ?_, hlen⟩
  rw [ShadowsocksOutbound.udpPacket, if_neg (by decide)]
  simp only [hseal]

theorem ShadowsocksOutbound.not_delivered_example : ∃ reply : Datagram,
    exampleOutbound.udpPacket blake3Hashes gcmCiphers exampleSalt exampleServer [1]
      = .ok reply.bytes ∧
    ¬ exampleOutbound.Delivers blake3Hashes gcmCiphers exampleQuery exampleSalt
      [.datagram reply] 0 [1] := by
  obtain ⟨reply, hreply, -⟩ := udpPacket_example 1
  exact ⟨reply, hreply, not_delivered (by decide) (by decide) hreply exampleQuery _ [] []⟩

/-- The client gets 24 bytes in place of one. -/
theorem ShadowsocksOutbound.delivers_sealed : ∃ (reply : Datagram) (wire : Bytes) (r : UdpReply),
    exampleOutbound.udpPacket blake3Hashes gcmCiphers exampleSalt exampleServer [1]
      = .ok reply.bytes ∧
    exampleOutbound.handleUdp blake3Hashes gcmCiphers exampleQuery exampleSalt [.datagram reply]
      = .ok (wire, [r]) ∧ r.payload.length = 24 ∧ r.payload ≠ [1] := by
  obtain ⟨reply, hreply, hlen⟩ := udpPacket_example 1
  obtain ⟨query, hquery, -⟩ := udpPacket_example 7
  have hpayload : (reply.bytes.drop 16).length = 24 := by rw [List.length_drop, hlen]
  refine ⟨reply, query.bytes, ⟨reply.bytes.drop 16, exampleQuery.src, ⟨.v4 0x01020304#32, 53⟩⟩, hreply,
    ?_, hpayload, fun heq => ?_⟩
  · have hsend : exampleOutbound.udpPacket blake3Hashes gcmCiphers exampleSalt exampleQuery.target
        exampleQuery.data = .ok query.bytes := hquery
    have hlong : exampleOutbound.method.saltLen + tagLen < reply.bytes.length := by
      rw [hlen]
      decide
    simp only [handleUdp, hsend, receive, if_pos hlong]
    rfl
  · have heq : reply.bytes.drop 16 = [1] := heq
    rw [heq] at hpayload
    cases hpayload

end Reflex.Shadowsocks
