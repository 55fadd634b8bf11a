import Reflex.Lib.Transition
import Reflex.Outbound.Shadowsocks

namespace Reflex.Shadowsocks

open RustStd Transition

/-!
# Shadowsocks — writing through another transport

`SsXhttpStream::poll_write` of `outbound/shadowsocks.rs`.  A write seals all of the data and offers the
result to the inner stream in one piece.  It reports all of the data as written as soon as the inner
stream has taken any part of that, and keeps nothing of what was not taken; after a `Pending` or an
error the data is sealed again, under the next nonces.

* `sealRounds_eq` — the loop seals the data chunk by chunk;
* `pollWrite_spec` — what one call offers, and what becomes of the stream;
* `encodes_reported_iff` — what the inner stream has taken is the encoding of what was reported, exactly while
  it takes everything it is offered.
-/

/-! ### The stream -/

/-- The result of a poll for writing. -/
inductive Poll where
  | pending
  | ready (n : Nat)
  | error (e : SsError)
  deriving DecidableEq, Repr

/-- How many bytes were taken. -/
def Poll.taken : Poll → Nat
  | .ready n => n
  | _ => 0

/-- `SsXhttpStream`, as far as it is written to; `accepted` is what the inner stream has taken since
    the stream was made, and `reported` the data that the calls have reported as written. -/
structure SsXhttpStream where
  enc : AeadCipher
  salt : Bytes
  saltSent : Bool := false
  accepted : Bytes := []
  reported : Bytes := []
  deriving DecidableEq, Repr

/-- How an error prints. -/
def SsError.display : SsError → Str
  | .unexpectedEof => "early eof".toList
  | .other text => text

variable (C : SsCiphers)

/-- The loop of `poll_write`, with a number of rounds that is enough. -/
def sealRounds : Nat → AeadCipher → Bytes → Except SealError Bytes × AeadCipher
  | 0, enc, _ => (.ok [], enc)
  | fuel + 1, enc, data =>
      if data = [] then (.ok [], enc)
      else
        match enc.sealChunk C (data.take maxPayload) with
        | (.error e, enc) => (.error e, enc)
        | (.ok frame, enc) =>
            match sealRounds fuel enc (data.drop maxPayload) with
            | (.error e, enc) => (.error e, enc)
            | (.ok frames, enc) => (.ok (frame ++ frames), enc)

/-- `ss_wrap_xhttp`, on a stream that takes what is written: what was written, and the new stream. -/
def ssWrapXhttp (method : Method) (subkey salt firstPayload : Bytes) :
    Except SsError (Bytes × SsXhttpStream) :=
  match (AeadCipher.new method subkey).sealChunk C firstPayload with
  | (.error e, _) => .error e.toSsError
  | (.ok frame, enc) => .ok (salt ++ frame, { enc, salt := [] })

namespace SsXhttpStream

/-- The salt, if it is still to be sent. -/
def front (s : SsXhttpStream) : Bytes := if s.saltSent then [] else s.salt

/-- What a write offers to the inner stream. -/
def offered (s : SsXhttpStream) (data : Bytes) : Bytes :=
  match (sealRounds C data.length s.enc data).1 with
  | .ok sealed => s.front ++ sealed
  | .error _ => []

/-- `poll_write`, where the inner stream answers the write with `answer`. -/
def pollWrite (s : SsXhttpStream) (data : Bytes) (answer : Poll) : Poll × SsXhttpStream :=
  match sealRounds C data.length s.enc data with
  | (.error (.len e), enc) =>
      (.error (.other ("SS seal len: ".toList ++ e.display)), { s with enc, saltSent := true })
  | (.error (.payload e), enc) =>
      (.error (.other ("SS seal payload: ".toList ++ e.display)), { s with enc, saltSent := true })
  | (.ok sealed, enc) =>
      let out := s.front ++ sealed
      let s := { s with enc, saltSent := true }
      match answer with
      | .ready n => (.ready data.length, { s with accepted := s.accepted ++ out.take n })
      | other => (other, s)

/-- One call of `poll_write`.  The inner stream takes no more than it is offered, and a slice has less
    than `2 ^ 63` bytes. -/
def step (s : SsXhttpStream) (call : Bytes × Poll) : Option SsXhttpStream :=
  if call.2.taken ≤ (s.offered C call.1).length ∧ call.1.length < 2 ^ 63 then
    let (result, s) := s.pollWrite C call.1 call.2
    some { s with reported := s.reported ++ call.1.take result.taken }
  else none

/-- There is nothing to write, or the inner stream takes all that it is offered. -/
def TakesAll (s : SsXhttpStream) (call : Bytes × Poll) : Prop :=
  call.1 = [] ∨ call.2 = .ready (s.offered C call.1).length

end SsXhttpStream

/-! ### Encodings -/

/-- Chunks as they may be sent. -/
def ValidChunks (chunks : List Bytes) : Prop :=
  ∀ chunk ∈ chunks, chunk ≠ [] ∧ chunk.length ≤ maxPayload

/-- Chunks, sealed one after another. -/
def sealChunks : AeadCipher → List Bytes → Except SealError Bytes × AeadCipher
  | enc, [] => (.ok [], enc)
  | enc, chunk :: chunks =>
      match enc.sealChunk C chunk with
      | (.error e, enc) => (.error e, enc)
      | (.ok frame, enc) =>
          match sealChunks enc chunks with
          | (.error e, enc) => (.error e, enc)
          | (.ok frames, enc) => (.ok (frame ++ frames), enc)

/-- The inner stream has taken the encoding of chunks that make up what was reported as written, from
    the cipher `start` on, and the next chunk goes on behind them.  The stream keeps nothing back, so
    that the encoding has to be there as a whole for nothing to be lost. -/
def SsXhttpStream.Intact (start : AeadCipher) (s : SsXhttpStream) : Prop :=
  ∃ chunks, ValidChunks chunks ∧ chunks.flatten = s.reported ∧
    sealChunks C start chunks = (.ok s.accepted, s.enc)

/-! ### What the loop seals -/

variable {C}

/-- **The loop** seals the data cut into chunks. -/
theorem sealRounds_eq {fuel : Nat} {data : Bytes} (hfuel : data.length ≤ fuel) :
    ∃ chunks, ValidChunks chunks ∧ chunks.flatten = data ∧
      chunks.length * 16383 < data.length + 16383 ∧
      ∀ enc, sealRounds C fuel enc data = sealChunks C enc chunks := by
  induction fuel generalizing data with
  | zero =>
      obtain rfl := List.length_eq_zero_iff.mp (Nat.le_zero.mp hfuel)
      exact ⟨[], nofun, rfl, by decide, fun _ => rfl⟩
  | succ fuel ih =>
      by_cases hnil : data = []
      · subst hnil
        exact ⟨[], nofun, rfl, by decide, fun _ => rfl⟩
      · have hpos := List.length_pos_of_ne_nil hnil
        have htake : (data.take maxPayload).length = min 16383 data.length := by
          simp only [List.length_take, maxPayload]
        have hdrop : (data.drop maxPayload).length = data.length - 16383 := by
          simp only [List.length_drop, maxPayload]
        have hrest : (data.drop maxPayload).length ≤ fuel := by omega
        obtain ⟨chunks, hvalid, hflatten, hcount, hseal⟩ := ih hrest
        rw [hdrop] at hcount
        refine ⟨data.take maxPayload :: chunks, ?_, ?_, ?_, fun enc => ?_⟩
        · refine List.forall_mem_cons.mpr ⟨⟨?_, ?_⟩, hvalid⟩
          · exact List.ne_nil_of_length_pos (by omega)
          · rw [List.length_take]
            exact Nat.min_le_left _ _
        · rw [List.flatten_cons, hflatten, List.take_append_drop]
        · -- only a last chunk is not full
          rw [List.length_cons, Nat.add_one_mul]
          refine Nat.add_lt_add_right ?_ 16383
          rcases Nat.lt_or_ge 16383 data.length with hlt | hge
          · rwa [Nat.sub_add_cancel (Nat.le_of_lt hlt)] at hcount
          · rw [Nat.sub_eq_zero_of_le hge] at hcount
            have hzero : chunks.length = 0 := by omega
            rwa [hzero, Nat.zero_mul]
        · simp only [sealRounds, if_neg hnil, sealChunks, hseal]

namespace AeadCipher

theorem next_of_seal {c c' : AeadCipher} {buf ct : Bytes} (h : c.method ≠ .none)
    (hseal : c.seal C buf = (.ok ct, c')) : c' = c.next := by
  rw [AeadCipher.seal, if_neg h] at hseal
  split at hseal
  · cases (Prod.mk.inj hseal).1
  · exact (Prod.mk.inj hseal).2.symm

/-- A chunk that was sealed takes two nonces. -/
theorem next_of_sealChunk {c c' : AeadCipher} {data frame : Bytes} (h : c.method ≠ .none)
    (hseal : c.sealChunk C data = (.ok frame, c')) : c' = c.next.next := by
  rw [sealChunk] at hseal
  rcases hlen : c.seal C (beBytes 2 (UInt16.ofNat data.length).toNat) with ⟨e | lenBuf, c₁⟩
  · rw [hlen] at hseal
    cases (Prod.mk.inj hseal).1
  · obtain rfl := next_of_seal h hlen
    rcases hpayload : c.next.seal C data with ⟨e | payloadBuf, c₂⟩
    · simp only [hlen, hpayload] at hseal
      cases (Prod.mk.inj hseal).1
    · obtain rfl := next_of_seal (c := c.next) h hpayload
      simp only [hlen, hpayload] at hseal
      exact (Prod.mk.inj hseal).2.symm

/-- The cipher behind so many chunks, each of which takes two nonces. -/
def after (c : AeadCipher) (n : Nat) : AeadCipher :=
  { c with counter := c.counter + UInt64.ofNat (2 * n) }

theorem after_zero (c : AeadCipher) : c.after 0 = c := by
  simp [after]

theorem next_next_after (c : AeadCipher) (n : Nat) : c.next.next.after n = c.after (n + 1) := by
  have hcount : c.counter + 1 + 1 + UInt64.ofNat (2 * n) = c.counter + UInt64.ofNat (2 * (n + 1)) := by
    apply UInt64.toNat_inj.mp
    simp only [UInt64.toNat_add, UInt64.toNat_ofNat', UInt64.toNat_one]
    omega
  rw [after, after, next, next]
  exact congrArg (fun counter => ({ c with counter } : AeadCipher)) hcount

theorem Keyed.after {c : AeadCipher} (h : c.Keyed) (n : Nat) : (c.after n).Keyed :=
  ⟨h.method, h.subkey⟩

end AeadCipher

/-- Valid chunks are sealed under consecutive nonces, with 34 bytes for each besides its payload. -/
theorem sealChunks_spec (hC : C.Lawful) {chunks : List Bytes} (hvalid : ValidChunks chunks)
    {c : AeadCipher} (h : c.Keyed) :
    ∃ wire, sealChunks C c chunks = (.ok wire, c.after chunks.length) ∧
      wire.length = chunks.flatten.length + 34 * chunks.length := by
  induction chunks generalizing c with
  | nil => exact ⟨[], by rw [List.length_nil, c.after_zero]; rfl, rfl⟩
  | cons chunk chunks ih =>
      obtain ⟨⟨-, hle⟩, hrest⟩ := List.forall_mem_cons.mp hvalid
      have hshort : chunk.length < 2 ^ 16 := Nat.lt_of_le_of_lt hle (by decide)
      obtain ⟨frame, hseal, hframe, -⟩ := readChunk_sealChunk hC h hshort
      obtain ⟨wire, hwire, hlen⟩ := ih hrest h.next.next
      refine ⟨frame ++ wire, ?_, ?_⟩
      · rw [sealChunks, hseal]
        simp only [hwire, c.next_next_after, List.length_cons]
      · have htag : tagLen = 16 := rfl
        rw [List.length_append, hframe, hlen, List.flatten_cons, List.length_append,
          List.length_cons]
        omega

theorem sealChunks_append {xs ys : List Bytes} {c c' c'' : AeadCipher} {wire wire' : Bytes}
    (hxs : sealChunks C c xs = (.ok wire, c')) (hys : sealChunks C c' ys = (.ok wire', c'')) :
    sealChunks C c (xs ++ ys) = (.ok (wire ++ wire'), c'') := by
  induction xs generalizing c wire with
  | nil =>
      obtain ⟨hwire, rfl⟩ := Prod.mk.inj hxs
      obtain rfl := Except.ok.inj hwire
      exact hys
  | cons x xs ih =>
      rw [sealChunks] at hxs
      rcases hseal : c.sealChunk C x with ⟨e | frame, enc⟩
      · simp only [hseal] at hxs
        cases (Prod.mk.inj hxs).1
      · rcases hrest : sealChunks C enc xs with ⟨e | frames, enc'⟩
        · simp only [hseal, hrest] at hxs
          cases (Prod.mk.inj hxs).1
        · simp only [hseal, hrest] at hxs
          obtain ⟨hwire, rfl⟩ := Prod.mk.inj hxs
          obtain rfl := Except.ok.inj hwire
          rw [List.cons_append, sealChunks, hseal]
          simp only [ih hrest, List.append_assoc]

/-! ### One call -/

namespace SsXhttpStream

/-- The cipher can encrypt, and no salt is to be sent. -/
structure Inv (s : SsXhttpStream) : Prop where
  keyed : s.enc.Keyed
  salt : s.salt = []

variable {s s' : SsXhttpStream} {data : Bytes} {answer : Poll}

/-- **One call** seals all of the data, and reports all or nothing of it. -/
theorem pollWrite_spec (hC : C.Lawful) (hs : s.Inv) (h : s.step C (data, answer) = some s') :
    ∃ chunks wire, ValidChunks chunks ∧ chunks.flatten = data ∧
      chunks.length * 16383 < data.length + 16383 ∧ data.length < 2 ^ 63 ∧
      sealChunks C s.enc chunks = (.ok wire, s.enc.after chunks.length) ∧
      wire.length = data.length + 34 * chunks.length ∧ s.offered C data = wire ∧
      s'.enc = s.enc.after chunks.length ∧ s'.salt = [] ∧
      ((∃ n, answer = .ready n ∧ n ≤ wire.length ∧ s'.accepted = s.accepted ++ wire.take n ∧
          s'.reported = s.reported ++ data) ∨
        ((∀ n, answer ≠ .ready n) ∧ s'.accepted = s.accepted ∧ s'.reported = s.reported)) := by
  obtain ⟨⟨htaken, hshort⟩, hs'⟩ := Option.ite_none_right_eq_some.mp h
  obtain ⟨chunks, hvalid, hflatten, hcount, hrounds⟩ := sealRounds_eq (C := C) (Nat.le_refl data.length)
  obtain ⟨wire, hwire, hlen⟩ := sealChunks_spec hC hvalid hs.keyed
  rw [hflatten] at hlen
  -- the salt has been sent, so only the chunks are offered
  have hfront : s.front = [] := by rw [front, hs.salt, ite_self]
  have hoffered : s.offered C data = wire := by
    simp only [offered, hrounds, hwire, hfront, List.nil_append]
  rw [hoffered] at htaken
  refine ⟨chunks, wire, hvalid, hflatten, hcount, hshort, hwire, hlen, hoffered, ?_⟩
  cases answer with
  | pending =>
      simp only [pollWrite, hrounds, hwire] at hs'
      obtain rfl := Option.some.inj hs'
      exact ⟨rfl, hs.salt, .inr ⟨nofun, rfl, List.append_nil _⟩⟩
  | error e =>
      simp only [pollWrite, hrounds, hwire] at hs'
      obtain rfl := Option.some.inj hs'
      exact ⟨rfl, hs.salt, .inr ⟨nofun, rfl, List.append_nil _⟩⟩
  | ready n =>
      simp only [pollWrite, hrounds, hwire, hfront, List.nil_append] at hs'
      obtain rfl := Option.some.inj hs'
      have hall : data.take data.length = data := List.take_length
      exact ⟨rfl, hs.salt, .inl ⟨n, rfl, htaken, rfl, congrArg (s.reported ++ ·) hall⟩⟩

theorem Inv.step (hC : C.Lawful) (hs : s.Inv) (h : s.step C (data, answer) = some s') : s'.Inv := by
  obtain ⟨chunks, wire, -, -, -, -, -, -, -, henc, hsalt, -⟩ := pollWrite_spec hC hs h
  exact ⟨henc ▸ hs.keyed.after _, hsalt⟩

/-- What an encoding takes, and how far the counter has come. -/
theorem Intact.count (hC : C.Lawful) {start : AeadCipher} (hstart : start.Keyed)
    (h : s.Intact C start) : ∃ k, s.accepted.length = s.reported.length + 34 * k ∧
      s.enc = start.after k := by
  obtain ⟨chunks, hvalid, hflatten, hseal⟩ := h
  obtain ⟨wire, hwire, hlen⟩ := sealChunks_spec hC hvalid hstart
  obtain ⟨haccepted, henc⟩ := Prod.mk.inj (hseal.symm.trans hwire)
  rw [hflatten, ← Except.ok.inj haccepted] at hlen
  exact ⟨chunks.length, hlen, henc⟩

/-- **A call that is not taken whole** leaves a stream that is not intact. -/
theorem takesAll_iff_intact (hC : C.Lawful) {start : AeadCipher} (hstart : start.Keyed)
    (hs : s.Inv) (hgood : s.Intact C start) (h : s.step C (data, answer) = some s') :
    s.TakesAll C (data, answer) ↔ s'.Intact C start := by
  obtain ⟨chunks, wire, hvalid, hflatten, hcount, hshort, hwire, hlen, hoffered, henc, -, hcases⟩ :=
    pollWrite_spec hC hs h
  constructor
  · -- the new chunks go behind the old ones
    intro htakes
    obtain ⟨front, hfrontValid, hfrontFlatten, hfront⟩ := hgood
    have hall : s'.accepted = s.accepted ++ wire ∧ s'.reported = s.reported ++ data := by
      -- the connection took some bytes, which are all of them, or none
      rcases hcases with ⟨n, rfl, hn, haccepted, hreported⟩ | ⟨hanswer, haccepted, hreported⟩
      · have hfull : wire.length ≤ n := by
          rcases htakes with hnil | hall
          · obtain rfl : data = [] := hnil
            rw [List.length_nil] at hcount
            rw [List.length_nil] at hlen
            omega
          · rw [← hoffered, Poll.ready.inj hall]
        rw [haccepted, List.take_of_length_le hfull]
        exact ⟨rfl, hreported⟩
      · -- nothing was to be written
        have hnil : data = [] := htakes.resolve_right fun h => hanswer _ h
        rw [hnil, List.length_nil] at hcount
        rw [hnil, List.length_nil] at hlen
        have hwireNil : wire = [] := List.length_eq_zero_iff.mp (by omega)
        rw [hwireNil, hnil, List.append_nil, List.append_nil]
        exact ⟨haccepted, hreported⟩
    refine ⟨front ++ chunks, ?_, ?_, ?_⟩
    · intro chunk hmem
      exact (List.mem_append.mp hmem).elim (hfrontValid chunk) (hvalid chunk)
    · rw [List.flatten_append, hfrontFlatten, hflatten, hall.2]
    · rw [hall.1, henc]
      exact sealChunks_append hfront hwire
  · -- the counter has gone on by two for each chunk, and so has an encoding by its frame
    intro hgood'
    obtain ⟨k, hk, hkEnc⟩ := hgood.count hC hstart
    obtain ⟨k', hk', hkEnc'⟩ := hgood'.count hC hstart
    have hcounter : (2 * k + 2 * chunks.length) % 2 ^ 64 = 2 * k' % 2 ^ 64 := by
      have heq := congrArg (fun c => c.counter.toNat) (hkEnc'.symm.trans henc)
      rw [hkEnc] at heq
      simp only [AeadCipher.after, UInt64.toNat_add, UInt64.toNat_ofNat'] at heq
      have hlt := start.counter.toNat_lt
      omega
    refine or_iff_not_imp_left.mpr fun hnil => ?_
    have hpos : 0 < data.length := List.length_pos_of_ne_nil hnil
    have hchunks : chunks ≠ [] := by
      rintro rfl
      exact hnil hflatten.symm
    have hchunksPos := List.length_pos_of_ne_nil hchunks
    rcases hcases with ⟨n, rfl, hn, haccepted, hreported⟩ | ⟨-, haccepted, hreported⟩
    · rw [haccepted, hreported, List.length_append, List.length_append, List.length_take,
        Nat.min_eq_left hn] at hk'
      have hfull : n = wire.length := by omega
      rw [hfull, ← hoffered]
    · rw [haccepted, hreported] at hk'
      omega

end SsXhttpStream

/-! ### Runs -/

/-- No chunk has more than 16383 bytes. -/
theorem length_flatten_le {chunks : List Bytes} (hvalid : ValidChunks chunks) :
    chunks.flatten.length ≤ chunks.length * 16383 := by
  induction chunks with
  | nil => exact Nat.le_refl 0
  | cons chunk chunks ih =>
      obtain ⟨⟨-, hle⟩, hrest⟩ := List.forall_mem_cons.mp hvalid
      have hchunk : chunk.length ≤ 16383 := hle
      have hchunks := ih hrest
      rw [List.flatten_cons, List.length_append, List.length_cons]
      omega

/-- **A call that is taken whole**: the inner stream is offered 34 bytes more for each chunk, and it is reported
    that all of the data was written. -/
theorem SsXhttpStream.exists_step_takesAll (hC : C.Lawful) {s : SsXhttpStream} (hs : s.Inv) (data : Bytes) (n : Nat)
    (hshort : data.length < 2 ^ 63) (hn : n = data.length + 34 * ((data.length + 16382) / 16383)) :
    ∃ s', s.step C (data, .ready n) = some s' ∧ s.TakesAll C (data, .ready n) ∧ s'.Inv ∧
      s'.reported = s.reported ++ data := by
  obtain ⟨chunks, hvalid, hflatten, hcount, hrounds⟩ := sealRounds_eq (C := C) (Nat.le_refl data.length)
  obtain ⟨wire, hwire, hlen⟩ := sealChunks_spec hC hvalid hs.keyed
  have hchunks := length_flatten_le hvalid
  rw [hflatten] at hlen hchunks
  have hfront : s.front = [] := by rw [front, hs.salt, ite_self]
  have hoffered : s.offered C data = wire := by
    simp only [offered, hrounds, hwire, hfront, List.nil_append]
  have hfull : (s.offered C data).length = n := by
    rw [hoffered, hlen, hn]
    omega
  obtain ⟨s', hs'⟩ : ∃ s', s.step C (data, .ready n) = some s' :=
    ⟨_, if_pos ⟨Nat.le_of_eq hfull.symm, hshort⟩⟩
  refine ⟨s', hs', .inr (by rw [hfull]), hs.step hC hs', ?_⟩
  obtain ⟨-, -, -, -, -, -, -, -, -, -, -, ⟨-, -, -, -, hreported⟩ | ⟨hanswer, -⟩⟩ := pollWrite_spec hC hs hs'
  · exact hreported
  · exact absurd rfl (hanswer n)

/-- A stream that was made is behind the first payload, whatever that is. -/
theorem start_of_ssWrapXhttp {method : Method} (hmethod : method ≠ .none)
    {subkey salt firstPayload sent : Bytes} {start : SsXhttpStream}
    (h : ssWrapXhttp C method subkey salt firstPayload = .ok (sent, start)) :
    start = { enc := (AeadCipher.new method subkey).next.next, salt := [] } := by
  rw [ssWrapXhttp] at h
  rcases hseal : (AeadCipher.new method subkey).sealChunk C firstPayload with ⟨e | frame, enc⟩
  · rw [hseal] at h
    cases h
  · rw [hseal] at h
    obtain ⟨-, rfl⟩ := Prod.mk.inj (Except.ok.inj h)
    rw [AeadCipher.next_of_sealChunk hmethod hseal]

/-- The stream behind the first payload has used two nonces, and sends no salt again. -/
theorem ssWrapXhttp_spec (hC : C.Lawful) {method : Method} {subkey : Bytes}
    (h : (AeadCipher.new method subkey).Keyed) (salt : Bytes) {firstPayload : Bytes}
    (hfirst : firstPayload.length < 2 ^ 16) :
    ∃ sent, ssWrapXhttp C method subkey salt firstPayload
      = .ok (sent, { enc := (AeadCipher.new method subkey).next.next, salt := [] }) := by
  obtain ⟨frame, hseal, -⟩ := readChunk_sealChunk hC h hfirst
  exact ⟨salt ++ frame, by simp only [ssWrapXhttp, hseal]⟩

/-- In every run from a stream that was just made: what the inner stream has taken is always the
    encoding of what was reported as written, with consecutive nonces from the one behind the first
    payload on, exactly if each call with data is taken whole.  No such stream is made without
    encryption. -/
theorem SsXhttpStream.encodes_reported_iff (hC : C.Lawful) {method : Method} (hmethod : method ≠ .none)
    {subkey salt firstPayload sent : Bytes} (hkey : subkey.length = method.keyLen)
    {start s : SsXhttpStream}
    (hstart : ssWrapXhttp C method subkey salt firstPayload = .ok (sent, start))
    {calls : List (Bytes × Poll)} (hrun : run (step C) start calls = some s) :
    Guarded (step C) (TakesAll C) start calls ↔
      ∀ before after t, calls = before ++ after → run (step C) start before = some t →
        t.Intact C start.enc := by
  have hkeyed : (AeadCipher.new method subkey).Keyed := ⟨hmethod, hkey⟩
  obtain rfl := start_of_ssWrapXhttp hmethod hstart
  have hinv : ∀ s call s', step C s call = some s' → Inv s → Inv s' :=
    fun s call s' h hs => hs.step hC h
  refine guarded_iff_always hinv ?_ hrun ⟨hkeyed.next.next, rfl⟩ ⟨[], nofun, rfl, rfl⟩
  exact fun s call s' h hs hgood => takesAll_iff_intact hC hkeyed.next.next hs hgood h

/-! ### Short writes -/

/-- Data that fits into one chunk is one round of the loop. -/
theorem sealRounds_of_short {data frame : Bytes} {enc enc' : AeadCipher} (hnil : data ≠ [])
    (hshort : data.length ≤ maxPayload) (hseal : enc.sealChunk C data = (.ok frame, enc')) :
    sealRounds C data.length enc data = (.ok frame, enc') := by
  obtain ⟨n, hn⟩ := Nat.exists_eq_succ_of_ne_zero (mt List.length_eq_zero_iff.mp hnil)
  have hrest : sealRounds C n enc' [] = (.ok [], enc') := by
    cases n with
    | zero => rfl
    | succ n => exact if_pos rfl
  rw [hn, sealRounds, if_neg hnil, List.take_of_length_le hshort, hseal]
  simp only [List.drop_of_length_le hshort, hrest, List.append_nil]

/-- What becomes of data that fits into one chunk. -/
theorem SsXhttpStream.step_of_short (hC : C.Lawful) {s : SsXhttpStream} (hs : s.Inv) {data : Bytes}
    (hnil : data ≠ []) (hshort : data.length ≤ maxPayload) :
    ∃ frame, s.enc.sealChunk C data = (.ok frame, s.enc.next.next) ∧
      frame.length = data.length + 34 ∧
      s.step C (data, .pending) = some { s with enc := s.enc.next.next, saltSent := true } ∧
      s.step C (data, .ready (data.length + 34)) = some { s with
        enc := s.enc.next.next
        saltSent := true
        accepted := s.accepted ++ frame
        reported := s.reported ++ data } := by
  have hmax : data.length ≤ 16383 := hshort
  have hlt : data.length < 2 ^ 16 := by omega
  obtain ⟨frame, hseal, hlen, -⟩ := readChunk_sealChunk hC hs.keyed hlt
  have hlen : frame.length = data.length + 34 := hlen
  have hrounds := sealRounds_of_short hnil hshort hseal
  have hfront : s.front = [] := by rw [front, hs.salt, ite_self]
  have hoffered : s.offered C data = frame := by
    simp only [offered, hrounds, hfront, List.nil_append]
  have hbound : data.length < 2 ^ 63 := by omega
  refine ⟨frame, hseal, hlen, ?_, ?_⟩
  · rw [step, if_pos ⟨Nat.zero_le _, hbound⟩]
    simp only [pollWrite, hrounds, Poll.taken, List.take_zero, List.append_nil]
  · rw [step, if_pos ⟨by rw [hoffered, hlen]; exact Nat.le_refl _, hbound⟩]
    simp only [pollWrite, hrounds, hfront, List.nil_append, Poll.taken, List.take_length, ← hlen]

/-- One byte can only be cut into one chunk. -/
theorem eq_singleton_of_flatten {chunks : List Bytes} {b : UInt8} (hvalid : ValidChunks chunks)
    (h : chunks.flatten = [b]) : chunks = [[b]] := by
  cases chunks with
  | nil => cases h
  | cons chunk chunks =>
      obtain ⟨⟨hne, -⟩, hrest⟩ := List.forall_mem_cons.mp hvalid
      cases chunk with
      | nil => exact absurd rfl hne
      | cons c cs =>
          obtain ⟨rfl, hnil⟩ := List.cons.inj h
          obtain ⟨rfl, hflat⟩ := List.append_eq_nil_iff.mp hnil
          cases chunks with
          | nil => rfl
          | cons chunk chunks =>
              exact absurd (List.append_eq_nil_iff.mp hflat).1 (hrest chunk List.mem_cons_self).1

/-- A key of zeros, and the address 1.2.3.4:443. -/
def zeroKey : Bytes := List.replicate 16 0
def exampleAddr : Bytes := encodeTarget (.socket ⟨.v4 0x01020304#32, 443⟩)

/-- The stream behind the address, under AES-128-GCM. -/
def exampleStream : SsXhttpStream :=
  { enc := (AeadCipher.new .aes128Gcm zeroKey).next.next, salt := [] }

theorem keyed_example : (AeadCipher.new .aes128Gcm zeroKey).Keyed := ⟨by decide, by decide⟩

theorem inv_example : exampleStream.Inv := ⟨keyed_example.next.next, rfl⟩

theorem ssWrapXhttp_example : ∃ sent,
    ssWrapXhttp gcmCiphers .aes128Gcm zeroKey zeroKey exampleAddr = .ok (sent, exampleStream) := by
  have hshort : exampleAddr.length < 2 ^ 16 := by decide
  exact ssWrapXhttp_spec gcmCiphers_lawful keyed_example zeroKey hshort

/-- What becomes of one byte that is written while the connection takes nothing: it is sealed into a frame of 35
    bytes. -/
theorem step_example {s : SsXhttpStream} (hs : s.Inv) :
    ∃ frame, s.enc.sealChunk gcmCiphers [1] = (.ok frame, s.enc.next.next) ∧ frame.length = 35 ∧
      s.step gcmCiphers ([1], .pending) = some { s with enc := s.enc.next.next, saltSent := true } ∧
      s.step gcmCiphers ([1], .ready 35) = some { s with
        enc := s.enc.next.next
        saltSent := true
        accepted := s.accepted ++ frame
        reported := s.reported ++ [1] } := by
  have hshort : ([1] : Bytes).length ≤ maxPayload := by decide
  exact SsXhttpStream.step_of_short gcmCiphers_lawful hs (by decide) hshort

/-- Three bytes, a write of nothing that is put off, a write of two chunks, and one more byte. -/
def exampleCalls : List (Bytes × Poll) :=
  [([1, 2, 3], .ready 37), ([], .pending), (List.replicate 20000 4, .ready 20068), ([5], .ready 35)]

theorem SsXhttpStream.encodes_reported_iff_example : ∃ sent s,
    ssWrapXhttp gcmCiphers .aes128Gcm zeroKey zeroKey exampleAddr = .ok (sent, exampleStream) ∧
      run (step gcmCiphers) exampleStream exampleCalls = some s ∧
      s.reported = [1, 2, 3] ++ List.replicate 20000 4 ++ [5] ∧
      ∀ before after t, exampleCalls = before ++ after →
        run (step gcmCiphers) exampleStream before = some t →
        t.Intact gcmCiphers exampleStream.enc := by
  obtain ⟨sent, hwrap⟩ := ssWrapXhttp_example
  have hC := gcmCiphers_lawful
  obtain ⟨s₁, hstep₁, htakes₁, hs₁, hreported₁⟩ :=
    exists_step_takesAll hC inv_example [1, 2, 3] 37 (by decide) (by decide)
  obtain ⟨s₂, hstep₂⟩ : ∃ s₂, s₁.step gcmCiphers ([], .pending) = some s₂ :=
    ⟨_, if_pos ⟨Nat.zero_le _, by decide⟩⟩
  have hs₂ := hs₁.step hC hstep₂
  have hreported₂ : s₂.reported = s₁.reported := by
    obtain ⟨-, -, -, -, -, -, -, -, -, -, -, ⟨n, hn, -⟩ | ⟨-, -, hreported⟩⟩ := pollWrite_spec hC hs₁ hstep₂
    · cases hn
    · exact hreported
  have hlength : (List.replicate 20000 (4 : UInt8)).length = 20000 := List.length_replicate
  obtain ⟨s₃, hstep₃, htakes₃, hs₃, hreported₃⟩ :=
    exists_step_takesAll hC hs₂ (List.replicate 20000 4) 20068 (by omega) (by omega)
  obtain ⟨s₄, hstep₄, htakes₄, -, hreported₄⟩ := exists_step_takesAll hC hs₃ [5] 35 (by decide) (by decide)
  have hrun : run (step gcmCiphers) exampleStream exampleCalls = some s₄ :=
    run_cons hstep₁ (run_cons hstep₂ (run_cons hstep₃ (run_singleton hstep₄)))
  have hguard : Guarded (step gcmCiphers) (TakesAll gcmCiphers) exampleStream exampleCalls := by
    refine ⟨htakes₁, fun t₁ ht₁ => ⟨.inl rfl, fun t₂ ht₂ => ?_⟩⟩
    obtain rfl := Option.some.inj (hstep₁.symm.trans ht₁)
    obtain rfl := Option.some.inj (hstep₂.symm.trans ht₂)
    refine ⟨htakes₃, fun t₃ ht₃ => ?_⟩
    obtain rfl := Option.some.inj (hstep₃.symm.trans ht₃)
    exact ⟨htakes₄, fun _ _ => trivial⟩
  refine ⟨sent, s₄, hwrap, hrun, ?_, (encodes_reported_iff hC (by decide) (by decide) hwrap hrun).mp hguard⟩
  rw [hreported₄, hreported₃, hreported₂, hreported₁]
  rfl

/-- A write that is put off, and the same write again, as the caller has to make it: the inner stream
    has taken a chunk, and it is not the front of any encoding of the byte that was written. -/
theorem SsXhttpStream.not_intact_retried : ∃ sent s,
    ssWrapXhttp gcmCiphers .aes128Gcm zeroKey zeroKey exampleAddr = .ok (sent, exampleStream) ∧
      run (step gcmCiphers) exampleStream [([1], .pending), ([1], .ready 35)] = some s ∧
      s.reported = [1] ∧ ∀ chunks wire enc, ValidChunks chunks → chunks.flatten = s.reported →
        sealChunks gcmCiphers exampleStream.enc chunks = (.ok wire, enc) → ¬ s.accepted <+: wire := by
  obtain ⟨sent, hwrap⟩ := ssWrapXhttp_example
  obtain ⟨first, hfirst, -, hpending, -⟩ := step_example inv_example
  set s₁ : SsXhttpStream := { exampleStream with
    enc := exampleStream.enc.next.next, saltSent := true } with hs₁
  have hinv : s₁.Inv := ⟨keyed_example.next.next.next.next, rfl⟩
  obtain ⟨second, hsecond, hlen, -, hready⟩ := step_example hinv
  have hrun := run_cons hpending (run_singleton hready)
  have htwo : 2 ≤ second.length := by
    rw [hlen]
    decide
  refine ⟨sent, _, hwrap, hrun, rfl, fun chunks wire enc hvalid hflatten hseal hprefix => ?_⟩
  obtain rfl := eq_singleton_of_flatten hvalid hflatten
  simp only [sealChunks, hfirst, List.append_nil] at hseal
  obtain rfl := Except.ok.inj (Prod.mk.inj hseal).1
  -- the two chunks differ in their first bytes
  have hdiffer : ((exampleStream.enc.sealChunk gcmCiphers [1]).1.toOption.map (·.take 2))
      ≠ ((s₁.enc.sealChunk gcmCiphers [1]).1.toOption.map (·.take 2)) := by
    decide +kernel
  refine hdiffer ?_
  obtain ⟨rest, rfl⟩ := hprefix
  rw [hfirst, hsecond]
  exact congrArg some (List.take_append_of_le_length htwo)

end Reflex.Shadowsocks
