import Reflex.Lib.Machine
import Reflex.Lib.Slots
import Reflex.Outbound.Hy2Udp

namespace Reflex.Hy2

open RustStd Machine

/-!
# Hysteria2 — the fragments of a packet

`send_udp_fragmented` cuts a packet into datagrams, `recv_udp_reassemble` puts it together from a first
datagram and what the connection brings before the deadline.  The number of fragments is a `usize` that is
narrowed to eight bits.

* `parseUdpFragHeader_build` — a fragment is read as it was written;
* `recvUdpReassemble_filter` — what is not of the first datagram's packet does not matter;
* `recvUdpReassemble_task` — the tasks of the flows do what the call does;
* `recvUdpReassemble_eq_some_iff` — a call for a fragment, with the others in any order, more than once and
  among others;
* `reassembles_iff` — which packets the loop of a task puts together, and which first datagrams do not
  fault.

A call reads what comes from the connection until its packet is complete or its deadline is over, and what
it reads of other packets is lost: the loop makes no call for it (`Calls`).
-/

/-! ### The receiver -/

/-- A datagram of the packet that is collected. -/
def FragHeader.matches (h g : FragHeader) : Prop :=
  g.sessionId = h.sessionId ∧ g.packetId = h.packetId ∧ g.fragCount = h.fragCount

instance (h g : FragHeader) : Decidable (h.matches g) :=
  inferInstanceAs <| Decidable <|
    g.sessionId = h.sessionId ∧ g.packetId = h.packetId ∧ g.fragCount = h.fragCount

/-- The loop of `recv_udp_reassemble`, on the datagrams that come before the deadline and before the
    connection fails. -/
def reassembleGo (h : FragHeader) (frags : List (Option Bytes)) (received : Nat) :
    List Bytes → Option Bytes
  | [] => if received < h.fragCount.toNat then none else some (Slots.contents frags).flatten
  | dgram :: dgrams =>
      if received < h.fragCount.toNat then
        match parseUdpFragHeader dgram with
        | .ok g =>
            if h.matches g ∧ frags[g.fragId.toNat]? = some none then
              reassembleGo h (frags.set g.fragId.toNat (some g.payload)) (received + 1) dgrams
            else reassembleGo h frags received dgrams
        | .error _ => reassembleGo h frags received dgrams
      else some (Slots.contents frags).flatten

/-- `recv_udp_reassemble`. -/
def recvUdpReassemble (first : Bytes) (dgrams : List Bytes) : Checked (Except Str (Option Bytes)) :=
  match parseUdpFragHeader first with
  | .error e => return .error e
  | .ok h =>
      if h.fragCount = 1 then return .ok (some h.payload)
      else do
        let frags := Slots.free h.fragCount.toNat
        let _ ← index frags h.fragId.toNat
        return .ok (reassembleGo h (frags.set h.fragId.toNat (some h.payload)) 1 dgrams)

/-! ### A fragment -/

/-- The two highest bits of an integer are its tag, which is the number of bytes behind the first. -/
theorem decodeVarintSlice_beBytes (tag : Nat) {k n : Nat} (hn : n < 64 * 256 ^ k) (htag : tag < 4)
    (hrest : ∀ b : UInt8, b.toNat / 64 = tag → varintRest b = k) (rest : Bytes) :
    decodeVarintSlice (beBytes (k + 1) (n + tag * 64 * 256 ^ k) ++ rest) = .ok (n, k + 1) := by
  have hscale : 0 < 256 ^ k := Nat.pow_pos (by decide)
  have hhigh : n / 256 ^ k < 64 := (Nat.div_lt_iff_lt_mul hscale).mpr hn
  have hquot : (n + tag * 64 * 256 ^ k) / 256 ^ k = n / 256 ^ k + tag * 64 :=
    Nat.add_mul_div_right _ _ hscale
  have hrem : (n + tag * 64 * 256 ^ k) % 256 ^ k = n % 256 ^ k := Nat.add_mul_mod_self_right ..
  have hvalue : beVal (beBytes (k + 1) (n + tag * 64 * 256 ^ k)) = n + tag * 64 * 256 ^ k := by
    refine beVal_beBytes_of_lt ?_
    rw [Nat.pow_succ, Nat.mul_comm (256 ^ k), ← Nat.div_lt_iff_lt_mul hscale, hquot]
    omega
  have hlen := length_beBytes (k + 1) (n + tag * 64 * 256 ^ k)
  obtain ⟨first, tail, htail⟩ := List.exists_cons_of_length_eq_add_one hlen
  rw [htail] at hvalue hlen ⊢
  have hk : tail.length = k := Nat.succ.inj hlen
  have hlow := beVal_lt tail
  rw [beVal_cons, hk, Nat.add_comm, Nat.mul_comm] at hvalue
  rw [hk] at hlow
  obtain ⟨hfirst, hlast⟩ := (Nat.div_mod_unique hscale).mpr ⟨hvalue, hlow⟩
  rw [hquot] at hfirst
  rw [hrem] at hlast
  obtain ⟨htag', hmod⟩ : first.toNat / 64 = tag ∧ first.toNat % 64 = n / 256 ^ k := by
    generalize n / 256 ^ k = high at hhigh hfirst
    omega
  rw [List.cons_append, decodeVarintSlice, hrest first htag',
    if_pos (by rw [List.length_append, hk]; omega), List.take_left' hk, beVal_cons, UInt8.toNat_ofNat',
    hk, hmod, Nat.mod_eq_of_lt (a := n / 256 ^ k) (by omega), ← hlast, Nat.div_add_mod']

theorem decodeVarintSlice_writeVarint {n : Nat} (h : n < 2 ^ 62) (rest : Bytes) :
    decodeVarintSlice (writeVarint n ++ rest) = .ok (n, (writeVarint n).length) := by
  have hor : ∀ {k m}, m < 2 ^ k → ∀ t, m ||| t * 2 ^ k = m + t * 2 ^ k := by
    intro k m hm t
    rw [Nat.or_comm, Nat.mul_comm, ← Nat.two_pow_add_eq_or_of_lt hm, Nat.add_comm]
  have hrest : ∀ tag < 4, ∀ b : UInt8, b.toNat / 64 = tag → varintRest b = 2 ^ tag - 1 := by
    intro tag htag b hb
    rw [varintRest, hb]
    match tag with
    | 0 | 1 | 2 | 3 => rfl
  unfold writeVarint
  split_ifs with h1 h2 h3
  · have hone := decodeVarintSlice_beBytes 0 (k := 0) (n := n) (by omega) (by decide)
      (hrest 0 (by decide)) rest
    rwa [Nat.zero_mul, Nat.add_zero] at hone
  · have htwo := decodeVarintSlice_beBytes 1 (k := 1) (n := n) (by omega) (by decide)
      (hrest 1 (by decide)) rest
    rw [length_beBytes, show (0x4000 : Nat) = 1 * 2 ^ 14 from rfl, hor (by omega)]
    exact htwo
  · have hfour := decodeVarintSlice_beBytes 2 (k := 3) (n := n) (by omega) (by decide)
      (hrest 2 (by decide)) rest
    rw [length_beBytes, show (0x80000000 : Nat) = 2 * 2 ^ 30 from rfl, hor (by omega)]
    exact hfour
  · have height := decodeVarintSlice_beBytes 3 (k := 7) (n := n) (by omega) (by decide)
      (hrest 3 (by decide)) rest
    rw [length_beBytes, show (0xc000000000000000 : Nat) = 3 * 2 ^ 62 from rfl, hor (by omega)]
    exact height

theorem parseUdpFragHeader_build (sessionId : UInt32) (packetId : UInt16) (fragId fragCount : UInt8)
    {addr : Str} (haddr : (utf8 addr).length < 2 ^ 62) (chunk : Bytes) :
    parseUdpFragHeader (buildUdpHeader sessionId packetId fragId fragCount addr ++ chunk)
      = .ok ⟨chunk, fragId, fragCount, sessionId, packetId⟩ := by
  set varint := writeVarint (utf8 addr).length with hvarint
  have hpos : 0 < varint.length := by
    rw [hvarint]
    unfold writeVarint
    split_ifs <;> simp
  -- the fixed part, the address and the chunk
  have hbuf : buildUdpHeader sessionId packetId fragId fragCount addr ++ chunk
      = beBytes 4 sessionId.toNat ++ (beBytes 2 packetId.toNat
        ++ (fragId :: fragCount :: (varint ++ (utf8 addr ++ chunk)))) := by
    simp only [buildUdpHeader, List.append_assoc, List.cons_append, List.nil_append, hvarint]
  have hlen : (beBytes 4 sessionId.toNat).length = 4 := length_beBytes ..
  have hlen' : (beBytes 2 packetId.toNat).length = 2 := length_beBytes ..
  rw [hbuf]
  set buf := beBytes 4 sessionId.toNat ++ (beBytes 2 packetId.toNat
    ++ (fragId :: fragCount :: (varint ++ (utf8 addr ++ chunk)))) with hbufDef
  have hlength : buf.length = 8 + varint.length + (utf8 addr).length + chunk.length := by
    simp only [hbufDef, List.length_append, List.length_cons, hlen, hlen']
    omega
  have hsession : buf.take 4 = beBytes 4 sessionId.toNat := List.take_left' hlen
  have hafter : buf.drop 4 = beBytes 2 packetId.toNat
      ++ (fragId :: fragCount :: (varint ++ (utf8 addr ++ chunk))) := List.drop_left' hlen
  have hpacket : (buf.drop 4).take 2 = beBytes 2 packetId.toNat := by
    rw [hafter, List.take_left' hlen']
  have htail : buf.drop 6 = fragId :: fragCount :: (varint ++ (utf8 addr ++ chunk)) := by
    rw [show 6 = 4 + 2 from rfl, ← List.drop_drop, hafter, List.drop_left' hlen']
  have haddrAt : buf.drop 8 = varint ++ (utf8 addr ++ chunk) := by
    rw [show 8 = 6 + 2 from rfl, ← List.drop_drop, htail]
    rfl
  have hid : buf.getD 6 0 = fragId := by
    rw [List.getD_eq_getElem?_getD, ← Nat.add_zero 6, ← List.getElem?_drop, htail]
    rfl
  have hcount : buf.getD 7 0 = fragCount := by
    rw [List.getD_eq_getElem?_getD, show 7 = 6 + 1 from rfl, ← List.getElem?_drop, htail]
    rfl
  have hpayload : buf.drop (8 + varint.length + (utf8 addr).length) = chunk := by
    rw [← List.drop_drop, ← List.drop_drop, haddrAt, List.drop_left, List.drop_left]
  rw [parseUdpFragHeader, if_neg (by omega), haddrAt, hvarint, decodeVarintSlice_writeVarint haddr,
    ← hvarint]
  show (if buf.length < 8 + varint.length + (utf8 addr).length then _ else _) = _
  rw [if_neg (by omega), hid, hcount, hsession, hpacket, hpayload, beVal_beBytes_of_lt sessionId.toNat_lt,
    beVal_beBytes_of_lt packetId.toNat_lt, UInt32.ofNat_toNat, UInt16.ofNat_toNat]
  rfl

/-! ### Chunks -/

/-- How many bytes of a packet go into one datagram. -/
def chunkSize (addr : Str) : Nat :=
  max (1100 - (8 + (writeVarint (utf8 addr).length).length + (utf8 addr).length)) 1

theorem chunkSize_pos (addr : Str) : 0 < chunkSize addr := Nat.lt_of_lt_of_le Nat.one_pos (le_max_right _ _)

theorem chunksGo_spec {size : Nat} (hsize : 0 < size) {fuel : Nat} {bs : Bytes} (hfuel : bs.length ≤ fuel) :
    (chunksGo size fuel bs).flatten = bs ∧ (∀ part ∈ chunksGo size fuel bs, part.length ≤ size) ∧
      ∀ k, (chunksGo size fuel bs).length ≤ k ↔ bs.length ≤ k * size := by
  induction fuel generalizing bs with
  | zero =>
    obtain rfl := List.length_eq_zero_iff.mp (Nat.le_zero.mp hfuel)
    exact ⟨rfl, nofun, fun k => iff_of_true (Nat.zero_le k) (Nat.zero_le _)⟩
  | succ fuel ih =>
    rw [chunksGo]
    by_cases hnil : bs = []
    · rw [if_pos hnil, hnil]
      exact ⟨rfl, nofun, fun k => iff_of_true (Nat.zero_le k) (Nat.zero_le _)⟩
    · have hpos := List.length_pos_iff.mpr hnil
      have hdrop : (bs.drop size).length = bs.length - size := List.length_drop
      have hshort : (bs.drop size).length ≤ fuel := by omega
      obtain ⟨hflatten, hparts, hcount⟩ := ih hshort
      rw [if_neg hnil]
      refine ⟨?_, ?_, fun k => ?_⟩
      · rw [List.flatten_cons, hflatten, List.take_append_drop]
      · rw [List.forall_mem_cons]
        exact ⟨List.length_take_le _ _, hparts⟩
      · cases k with
        | zero =>
          refine iff_of_false (Nat.not_succ_le_zero _) ?_
          rw [Nat.zero_mul]
          omega
        | succ k =>
          rw [List.length_cons, Nat.succ_le_succ_iff, hcount, hdrop, Nat.succ_mul]
          omega

/-- **Chunks** are the bytes, cut into parts of at most `size`; there are no more of them than needed. -/
theorem chunks_spec {size : Nat} (hsize : 0 < size) (bs : Bytes) :
    (chunks size bs).flatten = bs ∧ (∀ part ∈ chunks size bs, part.length ≤ size) ∧
      ∀ k, (chunks size bs).length ≤ k ↔ bs.length ≤ k * size :=
  chunksGo_spec hsize (Nat.le_refl _)

/-- The datagrams of a packet are its chunks, each with its index. -/
theorem mem_sendUdpFragmented {sessionId : UInt32} {addr : Str} {data : Bytes} {packetId : UInt16}
    {dgram : Bytes} :
    dgram ∈ sendUdpFragmented sessionId addr data packetId ↔
      ∃ i chunk, (chunks (chunkSize addr) data)[i]? = some chunk ∧
        dgram = buildUdpHeader sessionId packetId (UInt8.ofNat i)
          (UInt8.ofNat (chunks (chunkSize addr) data).length) addr ++ chunk := by
  constructor
  · intro h
    obtain ⟨⟨chunk, i⟩, hmem, rfl⟩ := List.mem_map.mp h
    exact ⟨i, chunk, List.mk_mem_zipIdx_iff_getElem?.mp hmem, rfl⟩
  · rintro ⟨i, chunk, hi, rfl⟩
    exact List.mem_map.mpr ⟨(chunk, i), List.mk_mem_zipIdx_iff_getElem?.mpr hi, rfl⟩

/-! ### Collecting -/

/-- The loop stops when as many fragments have come as there are, and puts the slots together. -/
theorem reassembleGo_done {h : FragHeader} {received : Nat} (hdone : ¬ received < h.fragCount.toNat)
    (frags : List (Option Bytes)) (dgrams : List Bytes) :
    reassembleGo h frags received dgrams = some (Slots.contents frags).flatten := by
  cases dgrams with
  | nil => rw [reassembleGo, if_neg hdone]
  | cons dgram dgrams => rw [reassembleGo, if_neg hdone]

/-- The loop stops when all slots are filled. -/
theorem contents_of_received {h : FragHeader} {parts : List Bytes} {frags : List (Option Bytes)}
    (hcount : h.fragCount.toNat = parts.length) (hagree : Slots.Agrees frags parts)
    (hdone : ¬ Slots.filled frags < h.fragCount.toNat) : Slots.contents frags = parts := by
  have hle : Slots.filled frags ≤ frags.length := List.countP_le_length
  have hlen := hagree.length_eq
  exact Slots.contents_eq hagree (by omega)

/-- A datagram for the slot `i` of the packet comes. -/
def Comes (h : FragHeader) (dgrams : List Bytes) (i : Nat) : Prop :=
  ∃ dgram ∈ dgrams, ∃ g, parseUdpFragHeader dgram = .ok g ∧ h.matches g ∧ g.fragId.toNat = i

/-- It is not the first one, if that is for another slot or another packet. -/
theorem comes_cons_iff {h : FragHeader} {dgram : Bytes} {dgrams : List Bytes} {i : Nat}
    (hne : ∀ g, parseUdpFragHeader dgram = .ok g → h.matches g → g.fragId.toNat ≠ i) :
    Comes h (dgram :: dgrams) i ↔ Comes h dgrams i := by
  constructor
  · rintro ⟨d, hd, g, hg, hmatch, hi⟩
    rcases List.mem_cons.mp hd with rfl | hd
    · exact absurd hi (hne g hg hmatch)
    · exact ⟨d, hd, g, hg, hmatch, hi⟩
  · rintro ⟨d, hd, hg⟩
    exact ⟨d, List.mem_cons_of_mem dgram hd, hg⟩

/-- When the loop stops no slot is free. -/
theorem reassembleGo_full_iff {h : FragHeader} {parts : List Bytes} {frags : List (Option Bytes)}
    (hcount : h.fragCount.toNat = parts.length) (hagree : Slots.Agrees frags parts)
    (hdone : ¬ Slots.filled frags < h.fragCount.toNat) (dgrams : List Bytes) (out : Bytes) :
    reassembleGo h frags (Slots.filled frags) dgrams = some out ↔
      out = parts.flatten ∧ ∀ i : Nat, frags[i]? = some none → Comes h dgrams i := by
  have hlen := hagree.length_eq
  have hfilled : frags.length ≤ Slots.filled frags := by omega
  have hfull := Slots.not_free_of_full hfilled
  rw [reassembleGo_done hdone, contents_of_received hcount hagree hdone, Option.some.injEq, eq_comm]
  exact (and_iff_left fun i hi => absurd hi (hfull i)).symm

/-- **The loop** puts the parts together, if all that are missing come. -/
theorem reassembleGo_eq_some_iff {h : FragHeader} {parts : List Bytes} {frags : List (Option Bytes)}
    {dgrams : List Bytes} {out : Bytes} (hcount : h.fragCount.toNat = parts.length)
    (hagree : Slots.Agrees frags parts)
    (hown : ∀ dgram ∈ dgrams, ∀ g, parseUdpFragHeader dgram = .ok g → h.matches g →
      parts[g.fragId.toNat]? = some g.payload) :
    reassembleGo h frags (Slots.filled frags) dgrams = some out ↔
      out = parts.flatten ∧ ∀ i : Nat, frags[i]? = some none → Comes h dgrams i := by
  induction dgrams generalizing frags with
  | nil =>
    by_cases hlt : Slots.filled frags < h.fragCount.toNat
    · rw [reassembleGo, if_pos hlt]
      refine iff_of_false (fun heq => nomatch heq) fun hall => ?_
      have hslots : Slots.filled frags < frags.length := by
        rw [hagree.length_eq, ← hcount]
        exact hlt
      obtain ⟨i, hi⟩ := Slots.exists_free hslots
      obtain ⟨dgram, hmem, -⟩ := hall.2 i hi
      cases hmem
    · exact reassembleGo_full_iff hcount hagree hlt [] out
  | cons dgram dgrams ih =>
    by_cases hlt : Slots.filled frags < h.fragCount.toNat
    · rw [reassembleGo, if_pos hlt]
      have hown' := fun d hd => hown d (List.mem_cons_of_mem dgram hd)
      -- a datagram that is not kept is not needed
      have hskip : (∀ g, parseUdpFragHeader dgram = .ok g → h.matches g →
          frags[g.fragId.toNat]? ≠ some none) →
          (reassembleGo h frags (Slots.filled frags) dgrams = some out ↔
            out = parts.flatten ∧ ∀ i : Nat, frags[i]? = some none → Comes h (dgram :: dgrams) i) := by
        intro hnot
        refine (ih hagree hown').trans
          (and_congr_right fun _ => forall₂_congr fun i hi => (comes_cons_iff ?_).symm)
        rintro g hg hmatch rfl
        exact hnot g hg hmatch hi
      cases hparse : parseUdpFragHeader dgram with
      | error e => exact hskip fun g hg => by rw [hparse] at hg; cases hg
      | ok g =>
        dsimp only
        by_cases hkeep : h.matches g ∧ frags[g.fragId.toNat]? = some none
        · rw [if_pos hkeep, ← Slots.filled_set hkeep.2]
          have hset := hagree.set (hown dgram List.mem_cons_self g hparse hkeep.1)
          refine (ih hset hown').trans (and_congr_right fun _ => ⟨fun hall i hi => ?_, fun hall i hi => ?_⟩)
          · -- the slot is the one of this datagram, or is still free
            by_cases hid : g.fragId.toNat = i
            · exact ⟨dgram, List.mem_cons_self, g, hparse, hkeep.1, hid⟩
            · obtain ⟨d, hd, hcomes⟩ := hall i (by rwa [List.getElem?_set_ne hid])
              exact ⟨d, List.mem_cons_of_mem dgram hd, hcomes⟩
          · obtain ⟨hne, hfree⟩ := Slots.free_of_set hi
            refine (comes_cons_iff fun g' hg' _ => ?_).mp (hall i hfree)
            rw [hparse] at hg'
            rwa [← Except.ok.inj hg']
        · rw [if_neg hkeep]
          refine hskip fun g' hg' hmatch hfree => hkeep ?_
          rw [hparse] at hg'
          obtain rfl := Except.ok.inj hg'
          exact ⟨hmatch, hfree⟩
    · exact reassembleGo_full_iff hcount hagree hlt _ out

/-- No more bytes come out than fit into the slots. -/
theorem length_of_reassembleGo {h : FragHeader} {size : Nat} {frags : List (Option Bytes)} {received : Nat}
    {dgrams : List Bytes} {out : Bytes} (hfrags : ∀ part, some part ∈ frags → part.length ≤ size)
    (hown : ∀ dgram ∈ dgrams, ∀ g, parseUdpFragHeader dgram = .ok g → h.matches g →
      g.payload.length ≤ size)
    (hout : reassembleGo h frags received dgrams = some out) : out.length ≤ frags.length * size := by
  induction dgrams generalizing frags received with
  | nil =>
    rw [reassembleGo] at hout
    obtain ⟨-, hout⟩ := Option.ite_none_left_eq_some.mp hout
    obtain rfl := Option.some.inj hout
    exact Slots.length_flatten_contents_le hfrags
  | cons dgram dgrams ih =>
    have hown' := fun d hd => hown d (List.mem_cons_of_mem dgram hd)
    rw [reassembleGo] at hout
    split at hout
    · split at hout
      · rename_i g hparse
        split at hout
        · rename_i hkeep
          have hpart := hown dgram List.mem_cons_self g hparse hkeep.1
          have hset := ih (Slots.forall_set hfrags hpart) hown' hout
          rwa [List.length_set] at hset
        · exact ih hfrags hown' hout
      · exact ih hfrags hown' hout
    · obtain rfl := Option.some.inj hout
      exact Slots.length_flatten_contents_le hfrags

/-- Only datagrams of the packet are looked at. -/
theorem reassembleGo_filter {h : FragHeader} {p : Bytes → Bool}
    (hp : ∀ dgram g, parseUdpFragHeader dgram = .ok g → h.matches g → p dgram = true)
    (frags : List (Option Bytes)) (received : Nat) (dgrams : List Bytes) :
    reassembleGo h frags received (dgrams.filter p) = reassembleGo h frags received dgrams := by
  induction dgrams generalizing frags received with
  | nil => rfl
  | cons dgram dgrams ih =>
    by_cases hlt : received < h.fragCount.toNat
    · by_cases hkept : p dgram = true
      · rw [List.filter_cons_of_pos hkept, reassembleGo, reassembleGo]
        simp only [ih]
      · rw [List.filter_cons_of_neg hkept, reassembleGo, if_pos hlt, ih]
        cases hparse : parseUdpFragHeader dgram with
        | error e => rfl
        | ok g => exact (if_neg fun hkeep => hkept (hp dgram g hparse hkeep.1)).symm
    · rw [reassembleGo_done hlt, reassembleGo_done hlt]

/-- **The call** returns the packet of its first datagram: what is not of that packet does not matter. -/
theorem recvUdpReassemble_filter {first : Bytes} {p : Bytes → Bool}
    (hp : ∀ h, parseUdpFragHeader first = .ok h →
      ∀ dgram g, parseUdpFragHeader dgram = .ok g → h.matches g → p dgram = true) (dgrams : List Bytes) :
    recvUdpReassemble first (dgrams.filter p) = recvUdpReassemble first dgrams := by
  rw [recvUdpReassemble, recvUdpReassemble]
  cases hparse : parseUdpFragHeader first with
  | error e => rfl
  | ok h => simp only [reassembleGo_filter (hp h hparse)]

/-- The slot of the first datagram: its index may be out of bounds. -/
theorem index_free {fragId fragCount : UInt8} :
    index (Slots.free fragCount.toNat : List (Option Bytes)) fragId.toNat
      = if fragId < fragCount then .ok none else .error .bounds := by
  split
  · rename_i hid
    refine index_of_getElem? ?_
    rw [Slots.free, List.getElem?_replicate, if_pos (UInt8.lt_iff_toNat_lt.mp hid)]
  · rename_i hid
    refine index_of_le ?_
    rw [Slots.free, List.length_replicate]
    exact not_lt.mp fun hlt => hid (UInt8.lt_iff_toNat_lt.mpr hlt)

/-- **No fault**, unless the index of the first datagram is out of bounds. -/
theorem defined_recvUdpReassemble {first : Bytes} {dgrams : List Bytes} :
    Defined (recvUdpReassemble first dgrams) ↔
      ∀ h, parseUdpFragHeader first = .ok h → h.fragCount = 1 ∨ h.fragId < h.fragCount := by
  rw [recvUdpReassemble]
  cases hparse : parseUdpFragHeader first with
  | error e => exact iff_of_true defined_ok nofun
  | ok h =>
    have hsame : (∀ g, Except.ok h = Except.ok (ε := Str) g → g.fragCount = 1 ∨ g.fragId < g.fragCount) ↔
        (h.fragCount = 1 ∨ h.fragId < h.fragCount) :=
      ⟨fun hall => hall h rfl, fun hh g hg => Except.ok.inj hg ▸ hh⟩
    rw [hsame]
    dsimp only
    by_cases hone : h.fragCount = 1
    · rw [if_pos hone]
      exact iff_of_true defined_ok (.inl hone)
    · rw [if_neg hone, index_free]
      split
      · exact iff_of_true defined_ok (.inr ‹_›)
      · exact iff_of_false not_defined_error fun hor => hor.elim hone ‹_›

/-! ### The tasks of the flows -/

/-- What a task that collects a packet hands out. -/
def collectTask (c : Collecting) : List Bytes → Option (UInt32 × Bytes)
  | [] => none
  | dgram :: dgrams =>
      match recvFragment c dgram with
      | (.collecting c, none) => collectTask c dgrams
      | (_, reply) => reply

theorem collectTask_eq {h : FragHeader} (frags : List (Option Bytes)) {received : Nat}
    (hlt : received < h.fragCount.toNat) (dgrams : List Bytes) :
    collectTask ⟨h.sessionId, h.packetId, h.fragCount, frags, received⟩ dgrams
      = (reassembleGo h frags received dgrams).map fun out => (h.sessionId, out) := by
  induction dgrams generalizing frags received with
  | nil => rw [collectTask, reassembleGo, if_pos hlt, Option.map_none]
  | cons dgram dgrams ih =>
    rw [collectTask, recvFragment, reassembleGo, if_pos hlt]
    cases hparse : parseUdpFragHeader dgram with
    | error e => exact ih _ hlt
    | ok g =>
      dsimp only
      by_cases hkeep : h.matches g ∧ frags[g.fragId.toNat]? = some none
      · rw [if_pos hkeep, if_pos ⟨hkeep.1.1, hkeep.1.2.1, hkeep.1.2.2, hkeep.2⟩]
        by_cases hmore : received + 1 < h.fragCount.toNat
        · rw [if_pos hmore]
          exact ih _ hmore
        · rw [if_neg hmore, reassembleGo_done hmore]
          rfl
      · rw [if_neg hkeep, if_neg fun ⟨hs, hp, hc, hfree⟩ => hkeep ⟨⟨hs, hp, hc⟩, hfree⟩]
        exact ih _ hlt

/-- **A task** of a flow that gets these datagrams hands out what the call returns. -/
theorem recvUdpReassemble_task {first : Bytes} {h : FragHeader} (hparse : parseUdpFragHeader first = .ok h)
    (dgrams : List Bytes) (out : Bytes) :
    recvUdpReassemble first dgrams = .ok (.ok (some out)) ↔
      recvFirst first = (.idle, some (h.sessionId, out)) ∨
        ∃ c, recvFirst first = (.collecting c, none) ∧ collectTask c dgrams = some (h.sessionId, out) := by
  rw [recvUdpReassemble, recvFirst, hparse]
  dsimp only
  -- the three ways of the first datagram: a whole packet, a fragment, or an index out of bounds
  by_cases hone : h.fragCount = 1
  · rw [if_pos hone, if_pos hone]
    constructor
    · intro heq
      rw [Option.some.inj (Except.ok.inj (Except.ok.inj heq))]
      exact .inl rfl
    · rintro (heq | ⟨c, hc, -⟩)
      · rw [(Prod.mk.inj (Option.some.inj (Prod.mk.inj heq).2)).2]
        rfl
      · cases (Prod.mk.inj hc).1
  rw [if_neg hone, if_neg hone]
  by_cases hid : h.fragId < h.fragCount
  · have hlt : 1 < h.fragCount.toNat := by
      have hne : h.fragCount.toNat ≠ 1 := fun heq => hone (UInt8.toNat_inj.mp heq)
      have hpos := UInt8.lt_iff_toNat_lt.mp hid
      omega
    rw [index_free, if_pos hid, if_pos hid, ok_bind]
    -- both continue with the same slots, of which the one of `first` is filled
    have htask := collectTask_eq ((Slots.free h.fragCount.toNat).set h.fragId.toNat (some h.payload)) hlt
      dgrams
    constructor
    · intro heq
      refine .inr ⟨_, rfl, htask.trans ?_⟩
      rw [Except.ok.inj (Except.ok.inj heq)]
      rfl
    · rintro (heq | ⟨c, hc, hout⟩)
      · cases (Prod.mk.inj heq).2
      · obtain rfl := Task.collecting.inj (Prod.mk.inj hc).1
        obtain ⟨out', hout', heq⟩ := Option.map_eq_some_iff.mp (htask.symm.trans hout)
        rw [hout', (Prod.mk.inj heq).2]
        rfl
  · rw [index_free, if_neg hid, error_bind, if_neg hid]
    constructor
    · intro heq
      cases heq
    · rintro (heq | ⟨c, hc, -⟩)
      · cases (Prod.mk.inj heq).2
      · cases (Prod.mk.inj hc).1

/-! ### A packet -/

/-- A datagram of another session or of another packet, or none at all. -/
def Foreign (sessionId : UInt32) (packetId : UInt16) (dgram : Bytes) : Prop :=
  ∀ h, parseUdpFragHeader dgram = .ok h → h.sessionId ≠ sessionId ∨ h.packetId ≠ packetId

/-- Fragments of a packet, with datagrams of others among them. -/
def Mixed (sessionId : UInt32) (addr : Str) (data : Bytes) (packetId : UInt16) (dgrams : List Bytes) :
    Prop :=
  ∀ dgram ∈ dgrams, dgram ∈ sendUdpFragmented sessionId addr data packetId ∨
    Foreign sessionId packetId dgram

section Packet

variable {sessionId : UInt32} {addr : Str} {data : Bytes} {packetId : UInt16} {first : Bytes}
  {dgrams : List Bytes} (haddr : (utf8 addr).length < 2 ^ 62)
include haddr

/-- What comes for a packet has the parts of the packet. -/
theorem Mixed.own (h : Mixed sessionId addr data packetId dgrams) {dgram : Bytes}
    (hmem : dgram ∈ dgrams) {g : FragHeader} (hparse : parseUdpFragHeader dgram = .ok g)
    (hsession : g.sessionId = sessionId) (hpacket : g.packetId = packetId) :
    ∃ i chunk, (chunks (chunkSize addr) data)[i]? = some chunk ∧
      dgram = buildUdpHeader sessionId packetId (UInt8.ofNat i)
        (UInt8.ofNat (chunks (chunkSize addr) data).length) addr ++ chunk ∧
      g.fragId = UInt8.ofNat i ∧ g.payload = chunk := by
  rcases h dgram hmem with hown | hforeign
  · obtain ⟨i, chunk, hi, rfl⟩ := mem_sendUdpFragmented.mp hown
    rw [parseUdpFragHeader_build _ _ _ _ haddr] at hparse
    obtain rfl := Except.ok.inj hparse
    exact ⟨i, chunk, hi, rfl, rfl, rfl⟩
  · rcases hforeign g hparse with hne | hne
    · exact absurd hsession hne
    · exact absurd hpacket hne

/-- **Up to 255 fragments**: a call for one of them returns the packet, if all of them come, and nothing
    else. -/
theorem recvUdpReassemble_eq_some_iff (hle : (chunks (chunkSize addr) data).length ≤ 255)
    (hfirst : first ∈ sendUdpFragmented sessionId addr data packetId)
    (h : Mixed sessionId addr data packetId dgrams) {out : Bytes} :
    recvUdpReassemble first dgrams = .ok (.ok (some out)) ↔
      out = data ∧ ∀ dgram ∈ sendUdpFragmented sessionId addr data packetId, dgram ∈ first :: dgrams := by
  obtain ⟨hflatten, -, -⟩ := chunks_spec (chunkSize_pos addr) data
  obtain ⟨k, chunk, hk, rfl⟩ := mem_sendUdpFragmented.mp hfirst
  have hklt := (List.getElem?_eq_some_iff.mp hk).1
  -- the number of fragments and their indices fit into a byte
  have hcount : (UInt8.ofNat (chunks (chunkSize addr) data).length).toNat
      = (chunks (chunkSize addr) data).length := by
    rw [UInt8.toNat_ofNat', Nat.mod_eq_of_lt (by omega)]
  have hid : ∀ i < (chunks (chunkSize addr) data).length, (UInt8.ofNat i).toNat = i := by
    intro i hi
    rw [UInt8.toNat_ofNat', Nat.mod_eq_of_lt (by omega)]
  rw [recvUdpReassemble, parseUdpFragHeader_build _ _ _ _ haddr]
  dsimp only
  by_cases hone : UInt8.ofNat (chunks (chunkSize addr) data).length = 1
  · -- the fragment is the packet
    rw [hone] at hcount
    obtain ⟨part, hpart⟩ := List.length_eq_one_iff.mp hcount.symm
    have hk' := hk
    rw [hpart] at hk' hflatten hklt
    obtain rfl : k = 0 := Nat.lt_one_iff.mp hklt
    obtain rfl : part = chunk := Option.some.inj hk'
    rw [List.flatten_singleton] at hflatten
    subst hflatten
    rw [if_pos hone]
    constructor
    · intro hret
      refine ⟨(Option.some.inj (Except.ok.inj (Except.ok.inj hret))).symm, fun dgram hmem => ?_⟩
      obtain ⟨i, chunk', hi, rfl⟩ := mem_sendUdpFragmented.mp hmem
      obtain rfl : i = 0 := by
        have hilt := (List.getElem?_eq_some_iff.mp hi).1
        rw [hpart] at hilt
        exact Nat.lt_one_iff.mp hilt
      rw [hk] at hi
      obtain rfl := Option.some.inj hi
      exact List.mem_cons_self
    · rintro ⟨rfl, -⟩
      rfl
  -- more than one fragment: the first one is in its slot, and the loop looks for the others
  have hfree : (Slots.free (chunks (chunkSize addr) data).length : List (Option Bytes))[k]? = some none := by
    rw [Slots.free, List.getElem?_replicate, if_pos hklt]
  have hfilled :
      Slots.filled ((Slots.free (chunks (chunkSize addr) data).length).set k (some chunk)) = 1 := by
    rw [Slots.filled_set hfree, Slots.filled_free]
  rw [if_neg hone, index_free, if_pos (by rw [UInt8.lt_iff_toNat_lt, hid k hklt, hcount]; exact hklt),
    ok_bind, hcount, hid k hklt, ← hfilled]
  set header : FragHeader :=
    ⟨chunk, UInt8.ofNat k, UInt8.ofNat (chunks (chunkSize addr) data).length, sessionId, packetId⟩
  -- what matches the header is a fragment of this packet, so the slots agree with the chunks
  have hown : ∀ dgram ∈ dgrams, ∀ g, parseUdpFragHeader dgram = .ok g → header.matches g →
      (chunks (chunkSize addr) data)[g.fragId.toNat]? = some g.payload := by
    intro dgram hmem g hparse hmatch
    obtain ⟨i, part, hi, -, hfrag, hpayload⟩ := h.own haddr hmem hparse hmatch.1 hmatch.2.1
    rw [hfrag, hpayload, hid i (List.getElem?_eq_some_iff.mp hi).1]
    exact hi
  have hagree : Slots.Agrees ((Slots.free (chunks (chunkSize addr) data).length).set k (some chunk))
      (chunks (chunkSize addr) data) := (Slots.agrees_free rfl).set hk
  have hgo : reassembleGo header _ (Slots.filled _) dgrams = some out ↔ _ :=
    reassembleGo_eq_some_iff hcount hagree hown
  have hret : (Except.ok (Except.ok (reassembleGo header
      ((Slots.free (chunks (chunkSize addr) data).length).set k (some chunk))
      (Slots.filled ((Slots.free (chunks (chunkSize addr) data).length).set k (some chunk))) dgrams)) :
        Checked (Except Str (Option Bytes))) = .ok (.ok (some out)) ↔ _ :=
    ⟨fun heq => Except.ok.inj (Except.ok.inj heq), fun heq => by rw [heq]⟩
  refine hret.trans (hgo.trans ?_)
  rw [hflatten]
  -- that all slots get filled is that all fragments come
  refine and_congr_right fun _ => ⟨fun hall dgram hsent => ?_, fun hall i hi => ?_⟩
  · obtain ⟨i, part, hi, rfl⟩ := mem_sendUdpFragmented.mp hsent
    have hilt := (List.getElem?_eq_some_iff.mp hi).1
    by_cases hik : k = i
    · subst hik
      obtain rfl := Option.some.inj (hk.symm.trans hi)
      exact List.mem_cons_self
    · -- what came for the slot is the fragment
      obtain ⟨d, hd, g, hparse, hmatch, hslot⟩ := hall i (by
        rw [List.getElem?_set_ne hik, Slots.free, List.getElem?_replicate, if_pos hilt])
      obtain ⟨j, part', hj, rfl, hfrag, -⟩ := h.own haddr hd hparse hmatch.1 hmatch.2.1
      rw [hfrag, hid j (List.getElem?_eq_some_iff.mp hj).1] at hslot
      subst hslot
      obtain rfl := Option.some.inj (hi.symm.trans hj)
      exact List.mem_cons_of_mem _ hd
  · -- the fragment for a free slot is still to come
    obtain ⟨hne, hi⟩ := Slots.free_of_set hi
    have hilt := (List.getElem?_eq_some_iff.mp hi).1
    rw [Slots.free, List.length_replicate] at hilt
    have hparse := parseUdpFragHeader_build sessionId packetId (UInt8.ofNat i)
      (UInt8.ofNat (chunks (chunkSize addr) data).length) haddr (chunks (chunkSize addr) data)[i]
    have hsent := hall _ (mem_sendUdpFragmented.mpr ⟨i, _, List.getElem?_eq_getElem hilt, rfl⟩)
    rcases List.mem_cons.mp hsent with heq | hmem
    · rw [heq, parseUdpFragHeader_build _ _ _ _ haddr] at hparse
      have hsame := congrArg UInt8.toNat (FragHeader.mk.inj (Except.ok.inj hparse)).2.1
      rw [hid k hklt, hid i hilt] at hsame
      exact absurd hsame hne
    · exact ⟨_, hmem, _, hparse, ⟨rfl, rfl, rfl⟩, hid i hilt⟩

/-- **More fragments** are not put together: what comes out is too short, if the call does not fault. -/
theorem recvUdpReassemble_narrowed (hfirst : first ∈ sendUdpFragmented sessionId addr data packetId)
    (h : Mixed sessionId addr data packetId dgrams) (hlong : 255 * chunkSize addr < data.length) :
    recvUdpReassemble first dgrams ≠ .ok (.ok (some data)) := by
  obtain ⟨-, hsize, -⟩ := chunks_spec (chunkSize_pos addr) data
  obtain ⟨k, chunk, hk, rfl⟩ := mem_sendUdpFragmented.mp hfirst
  have hchunk := hsize chunk (List.mem_of_getElem? hk)
  intro hrecv
  rw [recvUdpReassemble, parseUdpFragHeader_build _ _ _ _ haddr] at hrecv
  dsimp only at hrecv
  split at hrecv
  · have heq : chunk = data := Option.some.inj (Except.ok.inj (Except.ok.inj hrecv))
    rw [heq] at hchunk
    omega
  · rw [index_free] at hrecv
    split at hrecv
    · rw [ok_bind] at hrecv
      have hown : ∀ dgram ∈ dgrams, ∀ g, parseUdpFragHeader dgram = .ok g → g.sessionId = sessionId →
          g.packetId = packetId → g.payload.length ≤ chunkSize addr := by
        intro dgram hmem g hparse hsession hpacket
        obtain ⟨i, part, hi, -, -, rfl⟩ := h.own haddr hmem hparse hsession hpacket
        exact hsize g.payload (List.mem_of_getElem? hi)
      have hlen := length_of_reassembleGo (Slots.forall_set (fun part hmem => ?_) hchunk)
        (fun dgram hmem g hparse hmatch => hown dgram hmem g hparse hmatch.1 hmatch.2.1)
        (Except.ok.inj (Except.ok.inj hrecv))
      · rw [List.length_set, Slots.free, List.length_replicate] at hlen
        -- at most 255 slots of one chunk each are less than the data
        have hcount := (UInt8.ofNat (chunks (chunkSize addr) data).length).toNat_lt
        have := Nat.mul_le_mul_right (chunkSize addr) (Nat.le_of_lt_succ hcount)
        omega
      · cases (List.mem_replicate.mp hmem).2
    · cases hrecv

end Packet

theorem sendUdpFragmented_ne_nil_iff {sessionId : UInt32} {addr : Str} {data : Bytes} {packetId : UInt16} :
    sendUdpFragmented sessionId addr data packetId ≠ [] ↔ data ≠ [] := by
  have hcount := (chunks_spec (chunkSize_pos addr) data).2.2 0
  rw [Nat.zero_mul, Nat.le_zero, Nat.le_zero, List.length_eq_zero_iff, List.length_eq_zero_iff] at hcount
  have hnil : sendUdpFragmented sessionId addr data packetId = [] ↔ chunks (chunkSize addr) data = [] := by
    rw [← List.length_eq_zero_iff, ← List.length_eq_zero_iff]
    show (List.map _ (chunks (chunkSize addr) data).zipIdx).length = 0 ↔ _
    rw [List.length_map, List.length_zipIdx]
  exact not_congr (hnil.trans hcount)

/-! ### The receiving loop -/

/-- What `read_datagram` gives the task of a flow: a datagram, or nothing until the wait is over. -/
abbrev Read := Option Bytes

/-- The loop of the task, over one read. -/
def Task.next (task : Task) : Read → Task
  | some dgram => (task.recv dgram).elim task Prod.fst
  | none => task.timeout.getD task

/-- The task, having read `reads`, calls `recv_udp_reassemble` for `first`, and `dgrams` come before the
    wait of the call is over.  A datagram that another call has read does not come again. -/
def Calls (reads : List Read) (first : Bytes) (dgrams : List Bytes) : Prop :=
  ∃ before after, reads = before ++ (first :: dgrams).map some ++ after ∧
    before.foldl Task.next .idle = .idle

/-- The fragments of a packet are delivered to the task, in any order, more than once and with datagrams
    of other packets among them. -/
structure Delivered (sessionId : UInt32) (addr : Str) (data : Bytes) (packetId : UInt16)
    (reads : List Read) : Prop where
  all_mem : ∀ dgram ∈ sendUdpFragmented sessionId addr data packetId, some dgram ∈ reads
  mixed : Mixed sessionId addr data packetId (reads.filterMap id)

/-- The packet is put together: a call for one of its fragments returns it, and no such call returns
    anything else. -/
structure Reassembled (sessionId : UInt32) (addr : Str) (data : Bytes) (packetId : UInt16)
    (reads : List Read) : Prop where
  returned : ∃ first dgrams, Calls reads first dgrams ∧
    first ∈ sendUdpFragmented sessionId addr data packetId ∧
    recvUdpReassemble first dgrams = .ok (.ok (some data))
  only : ∀ first dgrams out, Calls reads first dgrams →
    first ∈ sendUdpFragmented sessionId addr data packetId →
    recvUdpReassemble first dgrams = .ok (.ok (some out)) → out = data

/-- A call is made for a fragment of the packet, and before its wait is over all fragments have come. -/
def Gathered (sessionId : UInt32) (addr : Str) (data : Bytes) (packetId : UInt16) (reads : List Read) :
    Prop :=
  ∃ first dgrams, Calls reads first dgrams ∧
    first ∈ sendUdpFragmented sessionId addr data packetId ∧
    ∀ dgram ∈ sendUdpFragmented sessionId addr data packetId, dgram ∈ first :: dgrams

section Loop

variable {sessionId : UInt32} {addr : Str} {data : Bytes} {packetId : UInt16} {reads : List Read}
  {first : Bytes} {dgrams : List Bytes}

theorem Delivered.mixed_of_calls (h : Delivered sessionId addr data packetId reads)
    (hcalls : Calls reads first dgrams) : Mixed sessionId addr data packetId dgrams := by
  obtain ⟨before, after, rfl, -⟩ := hcalls
  refine fun dgram hmem => h.mixed dgram (List.mem_filterMap.mpr ⟨some dgram, ?_, rfl⟩)
  exact List.mem_append_left _ (List.mem_append_right _
    (List.mem_map_of_mem (List.mem_cons_of_mem first hmem)))

/-- **A packet** that is delivered is put together exactly if it is not empty, is cut into at most 255
    fragments, and they are gathered. -/
theorem reassembled_iff (haddr : (utf8 addr).length < 2 ^ 62)
    (h : Delivered sessionId addr data packetId reads) :
    Reassembled sessionId addr data packetId reads ↔
      data ≠ [] ∧ data.length ≤ 255 * chunkSize addr ∧
        Gathered sessionId addr data packetId reads := by
  have hlength := (chunks_spec (chunkSize_pos addr) data).2.2 255
  constructor
  · intro hre
    obtain ⟨first, dgrams, hcalls, hfirst, hret⟩ := hre.returned
    have hmixed := h.mixed_of_calls hcalls
    have hle : data.length ≤ 255 * chunkSize addr := by
      by_contra hlong
      exact recvUdpReassemble_narrowed haddr hfirst hmixed (not_le.mp hlong) hret
    have hall := (recvUdpReassemble_eq_some_iff haddr (hlength.mpr hle) hfirst hmixed).mp hret
    exact ⟨sendUdpFragmented_ne_nil_iff.mp (List.ne_nil_of_mem hfirst), hle, first, dgrams, hcalls,
      hfirst, hall.2⟩
  · rintro ⟨-, hle, first, dgrams, hcalls, hfirst, hall⟩
    refine ⟨⟨first, dgrams, hcalls, hfirst, ?_⟩, fun first' dgrams' out hcalls' hfirst' hret => ?_⟩
    · exact (recvUdpReassemble_eq_some_iff haddr (hlength.mpr hle) hfirst
        (h.mixed_of_calls hcalls)).mpr ⟨rfl, hall⟩
    · exact ((recvUdpReassemble_eq_some_iff haddr (hlength.mpr hle) hfirst'
        (h.mixed_of_calls hcalls')).mp hret).1

end Loop

/-- An address that leaves room for one byte in a datagram. -/
def longAddr : Str := List.replicate 1095 'a'

/-- The fragments of two packets of the same session. -/
def fragA (i : Nat) : Bytes := (sendUdpFragmented 1 longAddr [0, 1] 7).getD i []

def fragB (i : Nat) : Bytes := (sendUdpFragmented 1 longAddr [2, 3] 8).getD i []

theorem length_longAddr : (utf8 longAddr).length < 2 ^ 62 := by decide +kernel

/-- A fragment of a packet with another ID is foreign to the packet that is collected. -/
theorem foreign_of_mem {sessionId sessionId' : UInt32} {addr : Str} {data : Bytes} {packetId packetId' : UInt16}
    (haddr : (utf8 addr).length < 2 ^ 62) (hne : packetId' ≠ packetId) {dgram : Bytes}
    (h : dgram ∈ sendUdpFragmented sessionId' addr data packetId') : Foreign sessionId packetId dgram := by
  obtain ⟨i, chunk, -, rfl⟩ := mem_sendUdpFragmented.mp h
  intro g hparse
  rw [parseUdpFragHeader_build _ _ _ _ haddr] at hparse
  rw [← Except.ok.inj hparse]
  exact .inr hne

/-- All fragments of the second example packet are delivered, whatever fragments of the first come between them. -/
theorem delivered_fragB {reads : List Read}
    (hall : ∀ dgram ∈ sendUdpFragmented 1 longAddr [2, 3] 8, some dgram ∈ reads)
    (hmem : ∀ dgram ∈ reads.filterMap id, dgram ∈ sendUdpFragmented 1 longAddr [2, 3] 8 ∨
      dgram ∈ sendUdpFragmented 1 longAddr [0, 1] 7) : Delivered 1 longAddr [2, 3] 8 reads where
  all_mem := hall
  mixed dgram h := (hmem dgram h).imp id (foreign_of_mem length_longAddr (by decide))

/-- A call is made where the task waits. -/
theorem Calls.exists_take {reads : List Read} {first : Bytes} {dgrams : List Bytes}
    (h : Calls reads first dgrams) :
    ∃ n < reads.length, reads[n]? = some (some first) ∧ (reads.take n).foldl Task.next .idle = .idle := by
  obtain ⟨before, after, rfl, hidle⟩ := h
  refine ⟨before.length, ?_, ?_, ?_⟩
  · simp only [List.length_append, List.length_map, List.length_cons]
    omega
  · rw [List.append_assoc, List.getElem?_append_right le_rfl, Nat.sub_self]
    rfl
  · rw [List.append_assoc, List.take_left]
    exact hidle

/-- A packet that is delivered, and not put together. -/
def Loses (sessionId : UInt32) (addr : Str) (data : Bytes) (packetId : UInt16) (reads : List Read) : Prop :=
  Delivered sessionId addr data packetId reads ∧ ¬ Reassembled sessionId addr data packetId reads

/-- The fragments of a packet, in their order and with nothing between them, are a delivery of it. -/
theorem delivered_self (sessionId : UInt32) (addr : Str) (data : Bytes) (packetId : UInt16) :
    Delivered sessionId addr data packetId
      ((sendUdpFragmented sessionId addr data packetId).map some) where
  all_mem _ hmem := List.mem_map_of_mem hmem
  mixed dgram hmem := by
    simp only [List.filterMap_map, List.mem_filterMap, Function.comp_apply, id_eq] at hmem
    obtain ⟨d, hd, heq⟩ := hmem
    exact .inl (Option.some.inj heq ▸ hd)

end Reflex.Hy2
