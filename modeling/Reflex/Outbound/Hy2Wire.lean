import Reflex.Inbound.Mixed
import Reflex.RustStd.Slice

namespace Reflex.Hy2

open RustStd ByteStream Inbound

/-!
# Hysteria2 — what the client writes

The byte formats of `outbound/hy2.rs`: QUIC variable-length integers, HTTP/3 frames, the request
that authenticates a connection, the request of a TCP stream, and UDP datagrams.

* `datagramId_of_mem` — the datagrams of a packet carry the ID they are sent with;
* `sessionId_parse` — the ID that is read from a datagram is the one it carries.
-/

/-! ### Variable-length integers -/

/-- `write_varint`. -/
def writeVarint (i : Nat) : Bytes :=
  if i ≤ 63 then [UInt8.ofNat i]
  else if i ≤ 16383 then beBytes 2 (i ||| 0x4000)
  else if i ≤ 1073741823 then beBytes 4 (i ||| 0x80000000)
  else beBytes 8 (i ||| 0xc000000000000000)

/-- How many bytes follow the first byte of an integer. -/
def varintRest (first : UInt8) : Nat :=
  match first.toNat / 64 with
  | 0 => 0
  | 1 => 1
  | 2 => 3
  | _ => 7

/-- `read_varint_async`. -/
def readVarintAsync : Handler ConnError Nat := do
  let first ← readByte
  let rest ← readBytes (varintRest first)
  return beVal (UInt8.ofNat (first.toNat % 64) :: rest)

/-- `decode_varint_slice`: the value and the number of bytes. -/
def decodeVarintSlice (buf : Bytes) : Except Str (Nat × Nat) :=
  match buf with
  | [] => .error "varint: empty buffer".toList
  | first :: rest =>
      let n := varintRest first
      if n ≤ rest.length then .ok (beVal (UInt8.ofNat (first.toNat % 64) :: rest.take n), n + 1)
      else .error ("varint: truncated ".toList ++ display (n + 1) ++ "-byte".toList)

/-! ### HTTP/3 -/

/-- `write_h3_frame`. -/
def writeH3Frame (frameType : Nat) (payload : Bytes) : Bytes :=
  writeVarint frameType ++ writeVarint payload.length ++ payload

/-- `read_h3_frame`. -/
def readH3Frame : Handler ConnError (Nat × Bytes) := do
  let frameType ← readVarintAsync
  let payloadLen ← readVarintAsync
  if payloadLen ≤ 1024 * 1024 then
    let payload ← readBytes payloadLen
    return (frameType, payload)
  else bail (.message ("h3 frame too large: ".toList ++ display payloadLen))

/-- The bytes behind a prefix that is full: seven bits each, the lowest first. -/
def prefixRest : Nat → Nat → Bytes
  | 0, _ => []
  | fuel + 1, rem =>
      if 128 ≤ rem then (UInt8.ofNat rem ||| 0x80) :: prefixRest fuel (rem / 128)
      else [UInt8.ofNat rem]

/-- `put_literal_header`. -/
def putLiteralHeader (name value : Bytes) : Bytes :=
  (if name.length < 7 then [0x20 ||| UInt8.ofNat name.length]
    else 0x27 :: prefixRest name.length (name.length - 7)) ++ name
  ++ (if value.length < 128 then [UInt8.ofNat value.length]
    else 0x7f :: prefixRest value.length (value.length - 127)) ++ value

/-- `random_padding` at a time of `seed` nanoseconds. -/
def randomPadding (min max seed : Nat) : Bytes :=
  let chars := utf8 "abcdefghijklmnopqrstuvwxyzABCDEFGHIJKLMNOPQRSTUVWXYZ0123456789".toList
  (List.range (min + seed % (max - min))).map fun i =>
    chars.getD ((UInt64.ofNat seed + UInt64.ofNat i * 6364136223846793005).toNat % chars.length) 0

theorem length_writeVarint_le (i : Nat) : (writeVarint i).length ≤ 8 := by
  unfold writeVarint
  split
  · exact Nat.le_add_left 1 7
  · split
    · rw [length_beBytes]
      decide
    · split
      · rw [length_beBytes]
        decide
      · rw [length_beBytes]

theorem length_randomPadding (min max seed : Nat) :
    (randomPadding min max seed).length = min + seed % (max - min) := by
  rw [randomPadding, List.length_map, List.length_range]

/-- Padding is made of letters and digits, and has no zero byte. -/
theorem notMem_randomPadding (min max seed : Nat) : 0 ∉ randomPadding min max seed := by
  intro hmem
  obtain ⟨i, -, hi⟩ := List.mem_map.mp hmem
  have hlt := Nat.mod_lt (UInt64.ofNat seed + UInt64.ofNat i * 6364136223846793005).toNat
    (show 0 < (utf8 "abcdefghijklmnopqrstuvwxyzABCDEFGHIJKLMNOPQRSTUVWXYZ0123456789".toList).length
      by decide)
  rw [List.getD_eq_getElem?_getD, List.getElem?_eq_getElem hlt, Option.getD_some] at hi
  have hchars : 0 ∉ utf8 "abcdefghijklmnopqrstuvwxyzABCDEFGHIJKLMNOPQRSTUVWXYZ0123456789".toList := by
    decide
  exact hchars (hi ▸ List.getElem_mem hlt)

/-! ### Requests -/

/-- `target_to_addr_str`. -/
def targetToAddrStr (target : Target) : Str := target.display

/-- The header block of `authenticate`. -/
def authHeaders (password rx : Str) (padding : Bytes) : Bytes :=
  [0x00, 0x00]
    ++ putLiteralHeader (utf8 ":method".toList) (utf8 "POST".toList)
    ++ putLiteralHeader (utf8 ":scheme".toList) (utf8 "https".toList)
    ++ putLiteralHeader (utf8 ":authority".toList) (utf8 "hysteria".toList)
    ++ putLiteralHeader (utf8 ":path".toList) (utf8 "/auth".toList)
    ++ putLiteralHeader (utf8 "hysteria-auth".toList) (utf8 password)
    ++ putLiteralHeader (utf8 "hysteria-cc-rx".toList) (utf8 rx)
    ++ putLiteralHeader (utf8 "hysteria-padding".toList) padding

/-- What `authenticate` writes to the stream it opens: one `HEADERS` frame. -/
def authRequest (password : Str) (rxBps : UInt64) (seed : Nat) : Bytes :=
  writeH3Frame 0x01 (authHeaders password (display rxBps.toNat) (randomPadding 256 2048 seed))

/-- What `open_tcp_stream` writes. -/
def tcpRequest (target : Target) (seed : Nat) : Bytes :=
  let addr := utf8 (targetToAddrStr target)
  let padding := randomPadding 64 512 seed
  writeVarint 0x401 ++ writeVarint addr.length ++ addr ++ writeVarint padding.length ++ padding

/-! ### The answer to an authentication -/

/-- `{:02x}` of an integer. -/
def hexPadded (n : Nat) : Str := if n < 16 then '0' :: Nat.toDigits 16 n else Nat.toDigits 16 n

/-- The loop of `authenticate` that looks for the `HEADERS` frame of the server. -/
def readAuthHeadersGo (parseHeadersFromQpack : Bytes → Except Str (List (Str × Str))) :
    Nat → Handler ConnError (List (Str × Str))
  | 0 => bail .unexpectedEof
  | fuel + 1 => do
      let (frameType, payload) ← readH3Frame
      if frameType = 0x01 then ofExcept ((parseHeadersFromQpack payload).mapError .message)
      else if frameType = 0x00 then readAuthHeadersGo parseHeadersFromQpack fuel
      else bail (.message ("hy2 auth: unexpected H3 frame type 0x".toList ++ hexPadded frameType
        ++ ", expected HEADERS(0x01)".toList))

/-- The headers that `authenticate` reads; a frame takes two bytes at least, so there are fewer
    frames than bytes. -/
def readAuthHeaders (parseHeadersFromQpack : Bytes → Except Str (List (Str × Str))) :
    Handler ConnError (List (Str × Str)) := fun s =>
  readAuthHeadersGo parseHeadersFromQpack (s.input.length + 1) s

/-- The status that `authenticate` compares with `STATUS_AUTH_OK`. -/
def authStatus (headers : List (Str × Str)) : Option UInt16 :=
  parseU16 ((headers.lookup ":status".toList).getD [])

/-! ### UDP datagrams -/

/-- `build_udp_header`. -/
def buildUdpHeader (sessionId : UInt32) (packetId : UInt16) (fragId fragCount : UInt8) (addr : Str) :
    Bytes :=
  beBytes 4 sessionId.toNat ++ beBytes 2 packetId.toNat ++ [fragId, fragCount]
    ++ writeVarint (utf8 addr).length ++ utf8 addr

/-- What `parse_udp_frag_header` returns. -/
structure FragHeader where
  payload : Bytes
  fragId : UInt8
  fragCount : UInt8
  sessionId : UInt32
  packetId : UInt16

/-- `parse_udp_frag_header`. -/
def parseUdpFragHeader (buf : Bytes) : Except Str FragHeader :=
  if buf.length < 9 then .error "hy2 udp datagram too short".toList
  else do
    let (addrLen, varintBytes) ← decodeVarintSlice (buf.drop 8)
    let cur := 8 + varintBytes
    if buf.length < cur + addrLen then .error "hy2 udp: addr truncated in frag header".toList
    else
      return { payload := buf.drop (cur + addrLen)
               fragId := buf.getD 6 0
               fragCount := buf.getD 7 0
               sessionId := UInt32.ofNat (beVal (buf.take 4))
               packetId := UInt16.ofNat (beVal ((buf.drop 4).take 2)) }

/-- The loop of `slice::chunks`. -/
def chunksGo (size : Nat) : Nat → Bytes → List Bytes
  | 0, _ => []
  | fuel + 1, bs => if bs = [] then [] else bs.take size :: chunksGo size fuel (bs.drop size)

/-- `slice::chunks`. -/
def chunks (size : Nat) (bs : Bytes) : List Bytes := chunksGo size bs.length bs

/-- `send_udp_fragmented`: the datagrams of a packet; `packetId` is taken from the time. -/
def sendUdpFragmented (sessionId : UInt32) (addr : Str) (data : Bytes) (packetId : UInt16) :
    List Bytes :=
  let headerOverhead := 8 + (writeVarint (utf8 addr).length).length + (utf8 addr).length
  let parts := chunks (max (1100 - headerOverhead) 1) data
  parts.zipIdx.map fun (chunk, fragId) =>
    buildUdpHeader sessionId packetId (UInt8.ofNat fragId) (UInt8.ofNat parts.length) addr ++ chunk

/-- The session a datagram says it belongs to. -/
def datagramId (dgram : Bytes) : UInt32 := UInt32.ofNat (beVal (dgram.take 4))

theorem datagramId_build (sessionId : UInt32) (packetId : UInt16) (fragId fragCount : UInt8)
    (addr : Str) (chunk : Bytes) :
    datagramId (buildUdpHeader sessionId packetId fragId fragCount addr ++ chunk) = sessionId := by
  have htake : (buildUdpHeader sessionId packetId fragId fragCount addr ++ chunk).take 4
      = beBytes 4 sessionId.toNat := by
    simp only [buildUdpHeader, List.append_assoc]
    exact List.take_left' (length_beBytes 4 _)
  rw [datagramId, htake, beVal_beBytes_of_lt sessionId.toNat_lt, UInt32.ofNat_toNat]

/-- **All datagrams of a packet** are sent under the ID they are sent with. -/
theorem datagramId_of_mem {sessionId : UInt32} {addr : Str} {data : Bytes} {packetId : UInt16}
    {dgram : Bytes} (h : dgram ∈ sendUdpFragmented sessionId addr data packetId) :
    datagramId dgram = sessionId := by
  obtain ⟨⟨chunk, fragId⟩, -, rfl⟩ := List.mem_map.mp h
  exact datagramId_build ..

/-- The header that is read from a datagram has the ID the datagram carries. -/
theorem sessionId_parse {dgram : Bytes} {h : FragHeader} (hparse : parseUdpFragHeader dgram = .ok h) :
    h.sessionId = datagramId dgram := by
  rw [parseUdpFragHeader] at hparse
  split at hparse
  · cases hparse
  · obtain ⟨⟨addrLen, varintBytes⟩, -, hrest⟩ := bind_eq_ok.mp hparse
    dsimp only at hrest
    split at hrest
    · cases hrest
    · obtain rfl := Except.ok.inj hrest
      rfl

end Reflex.Hy2
