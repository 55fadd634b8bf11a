import Reflex.Lib.PolledStream
import Reflex.RustStd.Str

namespace Reflex.Outbound

open RustStd PolledStream

/-!
# Outbound — reading a VLESS stream

`VlessTcpStream::poll_read` of `outbound/vless.rs`: the server's bytes are a response header, which
is stripped, and the payload.  The header is read into a buffer of 512 bytes at a time.

* `pollRead_step` — what one poll delivers and leaves to come;
* `pollRead_faithful_iff` — the polls always deliver the payload, and report an end of the stream
  only at its end exactly when the first read goes past the header.
-/

variable {ε : Type}

/-- `VlessTcpStream`, as far as it is read from. -/
structure VlessTcpStream (ε : Type) where
  inner : Transport ε
  readBuf : Bytes := []
  responseHeaderSkipped : Bool := false
  rawBuf : Bytes := []

namespace VlessTcpStream

/-- The front of `read_buf` goes into the caller's buffer. -/
def takeReadBuf (s : VlessTcpStream ε) (cap : Nat) : Poll ε × VlessTcpStream ε :=
  (.ready (s.readBuf.take cap), { s with readBuf := s.readBuf.drop cap })

/-- The part of `poll_read` behind a read into `raw_buf`. -/
def parseHeader (s : VlessTcpStream ε) (cap : Nat) : Poll ε × VlessTcpStream ε :=
  match s.rawBuf with
  | _ :: addonLen :: _ =>
      let hdrLen := 2 + addonLen.toNat
      if hdrLen ≤ s.rawBuf.length then
        let payload := s.rawBuf.drop hdrLen
        let s := { s with responseHeaderSkipped := true, rawBuf := [] }
        if payload ≠ [] then { s with readBuf := payload }.takeReadBuf cap else (.ready [], s)
      else (.ready [], s)
  -- not enough data: the source returns `Ok` so that the caller polls again
  | _ => (.ready [], s)

/-- `poll_read` into a buffer with room for `cap` bytes. -/
def pollRead (s : VlessTcpStream ε) (cap : Nat) : Poll ε × VlessTcpStream ε :=
  if s.readBuf ≠ [] then s.takeReadBuf cap
  else if s.responseHeaderSkipped then
    let (r, inner) := s.inner.poll cap
    (r, { s with inner })
  else
    match s.inner.poll 512 with
    | (.ready filled, inner) =>
        if filled = [] then (.ready [], { s with inner })
        else { s with inner, rawBuf := s.rawBuf ++ filled }.parseHeader cap
    | (r, inner) => (r, { s with inner })

/-- The polls of a caller with the given room in its buffer each time: the stream before each poll
    and the result. -/
def polls (s : VlessTcpStream ε) : List Nat → List (VlessTcpStream ε × Poll ε)
  | [] => []
  | cap :: caps => (s, (s.pollRead cap).1) :: polls (s.pollRead cap).2 caps

/-- What the caller has been given. -/
def delivered (s : VlessTcpStream ε) (caps : List Nat) : Bytes :=
  (s.polls caps).flatMap fun p => p.2.bytes

end VlessTcpStream

namespace VlessTcpStream

variable {header : Bytes}

/-- A response header: the version, the length of the addons, and the addons. -/
def IsHeader (header : Bytes) : Prop :=
  ∃ version addonLen addons, header = version :: addonLen :: addons ∧
    addons.length = addonLen.toNat

/-- What is still to come is `rest`: with the header skipped it is in `read_buf` and behind it, and
    before that the header is only partly in `raw_buf`. -/
def Expects (header : Bytes) (s : VlessTcpStream ε) (rest : Bytes) : Prop :=
  if s.responseHeaderSkipped then s.readBuf ++ s.inner.bytes = rest
  else s.readBuf = [] ∧ s.rawBuf ++ s.inner.bytes = header ++ rest ∧
    s.rawBuf.length < header.length

/-- How many polls it takes at most until the end of the stream. -/
def todo (s : VlessTcpStream ε) : Nat := s.readBuf.length + s.inner.size

/-- An incomplete header is not taken for a complete one, and a complete one is stripped. -/
theorem parseHeader_eq {s : VlessTcpStream ε} (hheader : IsHeader header) {rest : Bytes} (cap : Nat)
    (hraw : s.rawBuf ++ s.inner.bytes = header ++ rest) :
    s.parseHeader cap =
      if header.length ≤ s.rawBuf.length then
        if s.rawBuf.drop header.length ≠ [] then
          { s with responseHeaderSkipped := true, rawBuf := []
                   readBuf := s.rawBuf.drop header.length }.takeReadBuf cap
        else (.ready [], { s with responseHeaderSkipped := true, rawBuf := [] })
      else (.ready [], s) := by
  obtain ⟨version, addonLen, addons, rfl, hlen⟩ := hheader
  have hhdr : (version :: addonLen :: addons).length = 2 + addonLen.toNat := by
    rw [List.length_cons, List.length_cons, hlen]
    omega
  unfold parseHeader
  split
  · rename_i v a raw heq
    rw [heq] at hraw
    obtain ⟨rfl, rfl, -⟩ : v = version ∧ a = addonLen ∧ _ := by simpa using hraw
    rw [hhdr]
  · rename_i hshort
    have : ¬ (version :: addonLen :: addons).length ≤ s.rawBuf.length := by
      intro hle
      rw [hhdr] at hle
      match hrawBuf : s.rawBuf, hle with
      | v :: a :: raw, _ => exact hshort v a raw hrawBuf
      | [_], hle => simp at hle; omega
      | [], hle => simp at hle
    rw [if_neg this]

theorem pollRead_readBuf {s : VlessTcpStream ε} (hbuf : s.readBuf ≠ []) (cap : Nat) :
    s.pollRead cap = s.takeReadBuf cap := if_pos hbuf

theorem pollRead_skipped {s : VlessTcpStream ε} (hbuf : s.readBuf = [])
    (hskipped : s.responseHeaderSkipped = true) (cap : Nat) :
    s.pollRead cap = ((s.inner.poll cap).1, { s with inner := (s.inner.poll cap).2 }) := by
  rw [pollRead, if_neg (by simpa using hbuf), if_pos hskipped]

section Header

variable {s : VlessTcpStream ε} {t : Transport ε}

/-- A poll before the header has been skipped finds the end of the stream. -/
theorem pollRead_header_end (hbuf : s.readBuf = []) (hskipped : s.responseHeaderSkipped = false)
    (hpoll : s.inner.poll 512 = (.ready [], t)) (cap : Nat) :
    s.pollRead cap = (.ready [], { s with inner := t }) := by
  rw [pollRead, if_neg (by simpa using hbuf), if_neg (by simp [hskipped]), hpoll]
  exact if_pos rfl

/-- A poll that reads some bytes while the header of the response has not been skipped. -/
theorem pollRead_header_ready (hbuf : s.readBuf = []) (hskipped : s.responseHeaderSkipped = false)
    {bs : Bytes} (hpoll : s.inner.poll 512 = (.ready bs, t)) (hne : bs ≠ []) (cap : Nat) :
    s.pollRead cap = { s with inner := t, rawBuf := s.rawBuf ++ bs }.parseHeader cap := by
  rw [pollRead, if_neg (by simpa using hbuf), if_neg (by simp [hskipped]), hpoll]
  exact if_neg hne

/-- While the header of the response is awaited, an answer without bytes is handed on: it has to wait, or it fails. -/
theorem pollRead_header_wait (hbuf : s.readBuf = []) (hskipped : s.responseHeaderSkipped = false)
    {r : Poll ε} (hpoll : s.inner.poll 512 = (r, t)) (hr : ∀ bs, r ≠ .ready bs) (cap : Nat) :
    s.pollRead cap = (r, { s with inner := t }) := by
  rw [pollRead, if_neg (by simpa using hbuf), if_neg (by simp [hskipped]), hpoll]
  cases r with
  | pending => rfl
  | ready bs => exact absurd rfl (hr bs)
  | error e => rfl

end Header

theorem expects_skipped {s : VlessTcpStream ε} {rest : Bytes}
    (hskipped : s.responseHeaderSkipped = true) :
    s.Expects header rest ↔ s.readBuf ++ s.inner.bytes = rest := by
  rw [Expects, if_pos hskipped]

theorem expects_header {s : VlessTcpStream ε} {rest : Bytes}
    (hskipped : s.responseHeaderSkipped = false) :
    s.Expects header rest ↔ s.readBuf = [] ∧ s.rawBuf ++ s.inner.bytes = header ++ rest ∧
      s.rawBuf.length < header.length := by
  rw [Expects, if_neg (by simp [hskipped])]

theorem expects_of_skipped {s : VlessTcpStream ε} {rest : Bytes}
    (hskipped : s.responseHeaderSkipped = true) (h : s.readBuf ++ s.inner.bytes = rest) :
    s.Expects header rest := (expects_skipped hskipped).mpr h

theorem expects_of_header {s : VlessTcpStream ε} {rest : Bytes}
    (hskipped : s.responseHeaderSkipped = false) (hbuf : s.readBuf = [])
    (hraw : s.rawBuf ++ s.inner.bytes = header ++ rest)
    (hshort : s.rawBuf.length < header.length) : s.Expects header rest :=
  (expects_header hskipped).mpr ⟨hbuf, hraw, hshort⟩

theorem skipped_of_readBuf {s : VlessTcpStream ε} {rest : Bytes} (h : s.Expects header rest)
    (hbuf : s.readBuf ≠ []) : s.responseHeaderSkipped = true := by
  by_contra hnot
  exact hbuf ((expects_header (by simpa using hnot)).mp h).1

/-- The transport may change as long as the same bytes are to come. -/
theorem expects_inner {s : VlessTcpStream ε} {rest : Bytes} {t : Transport ε}
    (h : s.Expects header rest) (hbytes : t.bytes = s.inner.bytes) :
    ({ s with inner := t } : VlessTcpStream ε).Expects header rest := by
  unfold Expects at h ⊢
  rw [hbytes]
  exact h

/-- What one poll does: it delivers `bytes` of what is to come, and leaves less to do unless the
    stream is at its end. -/
def Delivers (header : Bytes) (s : VlessTcpStream ε) (rest : Bytes)
    (result : Poll ε × VlessTcpStream ε) : Prop :=
  ∃ rest', rest = result.1.bytes ++ rest' ∧ result.2.Expects header rest' ∧
    (result.2.todo < s.todo ∨ (s.todo = 0 ∧ result.2 = s))

/-- A poll at the end of the stream. -/
theorem delivers_end {s : VlessTcpStream ε} {rest : Bytes} (h : s.Expects header rest)
    (hbuf : s.readBuf = []) (hend : s.inner = []) :
    Delivers header s rest (.ready [], { s with inner := [] }) := by
  have hself : ({ s with inner := [] } : VlessTcpStream ε) = s := by rw [← hend]
  refine ⟨rest, rfl, ?_, .inr ⟨?_, hself⟩⟩
  · rw [hself]
    exact h
  · rw [todo, hbuf, hend]
    rfl

/-- A poll that has to wait, or fails. -/
theorem delivers_wait {s : VlessTcpStream ε} {rest : Bytes} {r : Poll ε} {t : Transport ε}
    (h : s.Expects header rest) (hr : ∀ bs, r ≠ .ready bs) (hbytes : t.bytes = s.inner.bytes)
    (hsize : s.inner.size = 1 + t.size) : Delivers header s rest (r, { s with inner := t }) := by
  refine ⟨rest, ?_, expects_inner h hbytes, .inl ?_⟩
  · show rest = r.bytes ++ rest
    rw [Poll.bytes_eq_nil hr, List.nil_append]
  · show s.readBuf.length + t.size < s.readBuf.length + s.inner.size
    omega

/-- A poll that takes from `read_buf` delivers its first bytes, as long as the buffer is not empty. -/
theorem delivers_takeReadBuf {s t : VlessTcpStream ε} {rest : Bytes} {cap : Nat} (hcap : 0 < cap)
    (hskipped : t.responseHeaderSkipped = true) (hbuf : t.readBuf ≠ [])
    (h : t.Expects header rest) (htodo : t.todo ≤ s.todo) :
    Delivers header s rest (t.takeReadBuf cap) := by
  rw [expects_skipped hskipped] at h
  refine ⟨t.readBuf.drop cap ++ t.inner.bytes, ?_, ?_, .inl ?_⟩
  · show rest = t.readBuf.take cap ++ (t.readBuf.drop cap ++ t.inner.bytes)
    rw [← List.append_assoc, List.take_append_drop]
    exact h.symm
  · exact expects_of_skipped hskipped rfl
  · have hpos := List.length_pos_of_ne_nil hbuf
    have hdrop : (t.takeReadBuf cap).2.todo = (t.readBuf.drop cap).length + t.inner.size := rfl
    rw [List.length_drop] at hdrop
    unfold todo at htodo hdrop ⊢
    omega

/-- A poll of the header that read some bytes. -/
theorem delivers_parseHeader (hheader : IsHeader header) {s : VlessTcpStream ε} {rest bs : Bytes}
    {t : Transport ε} {cap : Nat} (hcap : 0 < cap) (hskipped : s.responseHeaderSkipped = false)
    (h : s.Expects header rest) (hbs : bs ≠ []) (hbytes : s.inner.bytes = bs ++ t.bytes)
    (hsize : s.inner.size = bs.length + t.size) :
    Delivers header s rest ({ s with inner := t, rawBuf := s.rawBuf ++ bs }.parseHeader cap) := by
  obtain ⟨hbuf, hraw, hshort⟩ := (expects_header hskipped).mp h
  have hpos := List.length_pos_of_ne_nil hbs
  have hraw' : (s.rawBuf ++ bs) ++ t.bytes = header ++ rest := by
    rw [List.append_assoc, ← hbytes]
    exact hraw
  rw [parseHeader_eq hheader cap hraw']
  have htodo : s.todo = bs.length + t.size := by
    rw [todo, hbuf, hsize, List.length_nil, Nat.zero_add]
  simp only
  split
  · rename_i hcomplete
    -- both sides without the header
    have hrest : (s.rawBuf ++ bs).drop header.length ++ t.bytes = rest := by
      have := congrArg (List.drop header.length) hraw'
      rwa [List.drop_append_of_le_length hcomplete, List.drop_left] at this
    have hpayload : ((s.rawBuf ++ bs).drop header.length).length < bs.length := by
      rw [List.length_drop, List.length_append] at *
      omega
    split
    · rename_i hne
      refine delivers_takeReadBuf hcap rfl hne (expects_of_skipped rfl hrest) ?_
      rw [htodo]
      show ((s.rawBuf ++ bs).drop header.length).length + t.size ≤ _
      omega
    · rename_i hnil
      rw [ne_eq, not_not] at hnil
      rw [hnil] at hrest
      refine ⟨rest, rfl, expects_of_skipped rfl ?_, .inl ?_⟩
      · show s.readBuf ++ t.bytes = rest
        rw [hbuf]
        exact hrest
      · show s.readBuf.length + t.size < s.todo
        rw [htodo, hbuf, List.length_nil]
        omega
  · rename_i hincomplete
    refine ⟨rest, rfl, expects_of_header hskipped hbuf hraw' (Nat.lt_of_not_le hincomplete), .inl ?_⟩
    show s.readBuf.length + t.size < s.todo
    rw [htodo, hbuf, List.length_nil]
    omega

/-- **One poll** delivers the front of what is to come. -/
theorem pollRead_step (hheader : IsHeader header) {s : VlessTcpStream ε} {rest : Bytes} {cap : Nat}
    (hcap : 0 < cap) (h : s.Expects header rest) : Delivers header s rest (s.pollRead cap) := by
  by_cases hbuf : s.readBuf = []
  · rcases hskipped : s.responseHeaderSkipped with _ | _
    · rcases poll_cases (by decide : 0 < 512) s.inner with
        ⟨hend, hpoll⟩ | ⟨bs, t, hpoll, hne, hbytes, hsize, -⟩ | ⟨r, t, hpoll, hr, hbytes, hsize, -⟩
      · -- the end of the stream in the middle of the header
        rw [pollRead_header_end hbuf hskipped hpoll]
        exact delivers_end h hbuf hend
      · rw [pollRead_header_ready hbuf hskipped hpoll hne]
        exact delivers_parseHeader hheader hcap hskipped h hne hbytes hsize
      · rw [pollRead_header_wait hbuf hskipped hpoll hr]
        exact delivers_wait h hr hbytes hsize
    · rw [pollRead_skipped hbuf hskipped]
      rcases poll_cases hcap s.inner with
        ⟨hend, hpoll⟩ | ⟨bs, t, hpoll, hne, hbytes, hsize, -⟩ | ⟨r, t, hpoll, hr, hbytes, hsize, -⟩
      · rw [hpoll]
        exact delivers_end h hbuf hend
      · have hrest := (expects_skipped hskipped).mp h
        rw [hbuf, List.nil_append] at hrest
        have hpos := List.length_pos_of_ne_nil hne
        rw [hpoll]
        refine ⟨t.bytes, ?_, expects_of_skipped hskipped ?_, .inl ?_⟩
        · exact hrest.symm.trans hbytes
        · show s.readBuf ++ t.bytes = t.bytes
          rw [hbuf]
          rfl
        · show s.readBuf.length + t.size < s.readBuf.length + s.inner.size
          omega
      · rw [hpoll]
        exact delivers_wait h hr hbytes hsize
  · rw [pollRead_readBuf hbuf]
    exact delivers_takeReadBuf hcap (skipped_of_readBuf h hbuf) hbuf h (Nat.le_refl _)

/-- With nothing left to do, nothing is to come: the header has been read. -/
theorem expects_nil_of_todo {s : VlessTcpStream ε} {rest : Bytes} (h : s.Expects header rest)
    (htodo : s.todo = 0) : rest = [] := by
  have hbuf : s.readBuf = [] := List.length_eq_zero_iff.mp (by unfold todo at htodo; omega)
  have hinner : s.inner = [] := eq_nil_of_size (by unfold todo at htodo; omega)
  rcases hskipped : s.responseHeaderSkipped with _ | _
  · obtain ⟨-, hraw, hshort⟩ := (expects_header hskipped).mp h
    have hlen := congrArg List.length hraw
    rw [hinner] at hlen
    simp only [Transport.bytes, List.append_nil, List.length_append] at hlen
    omega
  · have hrest := (expects_skipped hskipped).mp h
    rw [hbuf, hinner] at hrest
    exact hrest.symm

/-- **Many polls** deliver a front of what is to come, and enough of them all of it. -/
theorem delivered_of_expects (hheader : IsHeader header) {s : VlessTcpStream ε} {rest : Bytes}
    (h : s.Expects header rest) {caps : List Nat} (hcaps : ∀ cap ∈ caps, 0 < cap) :
    ∃ rest', rest = s.delivered caps ++ rest' ∧ (s.todo ≤ caps.length → rest' = []) := by
  induction caps generalizing s rest with
  | nil =>
    refine ⟨rest, rfl, fun hle => ?_⟩
    exact expects_nil_of_todo h (Nat.le_zero.mp hle)
  | cons cap caps ih =>
    obtain ⟨rest', rfl, h', hless⟩ := pollRead_step hheader (hcaps cap (by simp)) h
    obtain ⟨rest'', rfl, hdone⟩ := ih h' fun c hc => hcaps c (by simp [hc])
    refine ⟨rest'', ?_, fun hle => hdone ?_⟩
    · rw [← List.append_assoc]
      rfl
    · rw [List.length_cons] at hle
      rcases hless with hless | ⟨hzero, hself⟩
      · omega
      · rw [hself]
        omega

/-! ### Ends of the stream -/

/-- A poll that completes with no bytes finds the transport at its end. -/
def EndsOnlyAtEnd (s : VlessTcpStream ε) (caps : List Nat) : Prop :=
  ∀ p ∈ s.polls caps, p.2 = .ready [] → p.1.inner = []

/-- The header has been skipped, or the first read will go past it. -/
def PastHeader (header : Bytes) (s : VlessTcpStream ε) : Prop :=
  s.responseHeaderSkipped = true ∨
    (s.rawBuf = [] ∧ ∃ seg, s.inner.first? = some seg ∧
      header.length < (seg.bytes.take 512).length)

/-- Into a buffer with room, something is taken from `read_buf`. -/
theorem takeReadBuf_ne {s : VlessTcpStream ε} {cap : Nat} (hcap : 0 < cap) (hbuf : s.readBuf ≠ []) :
    (s.takeReadBuf cap).1 ≠ .ready [] := by
  intro hzero
  have htake : s.readBuf.take cap = [] := by
    injection hzero
  rcases List.take_eq_nil_iff.mp htake with hz | hnil
  · omega
  · exact hbuf hnil

/-- One poll of a stream whose first read goes past the header. -/
theorem pastHeader_step (hheader : IsHeader header) {s : VlessTcpStream ε} {rest : Bytes} {cap : Nat}
    (hcap : 0 < cap) (h : s.Expects header rest) (hpast : s.PastHeader header) :
    (s.pollRead cap).2.PastHeader header ∧
      ((s.pollRead cap).1 = .ready [] → s.inner = []) := by
  by_cases hbuf : s.readBuf = []
  · rcases hskipped : s.responseHeaderSkipped with _ | _
    · obtain hskip | ⟨hraw, seg, hseg, hlong⟩ := hpast
      · rw [hskipped] at hskip
        cases hskip
      -- the first read of the response has ended the stream, has bytes, or has to wait
      rcases poll_cases (by decide : 0 < 512) s.inner with
        ⟨hend, -⟩ | ⟨bs, t, hpoll, hne, hbytes, hsize, hfirst⟩ | ⟨r, t, hpoll, hr, -, -, hfirst⟩
      · rw [hend] at hseg
        cases hseg
      · -- the whole header and some payload are in the first read
        rw [hseg, Option.map_some, Option.some.injEq] at hfirst
        rw [hfirst] at hlong
        obtain ⟨-, hexpects, -⟩ := (expects_header hskipped).mp h
        have hraw' : (s.rawBuf ++ bs) ++ t.bytes = header ++ rest := by
          rw [List.append_assoc, ← hbytes]
          exact hexpects
        have hpayload : (s.rawBuf ++ bs).drop header.length ≠ [] := by
          rw [ne_eq, List.drop_eq_nil_iff, hraw, List.nil_append]
          omega
        have hcomplete : header.length ≤ (s.rawBuf ++ bs).length := by
          rw [hraw, List.nil_append]
          omega
        rw [pollRead_header_ready hbuf hskipped hpoll hne, parseHeader_eq hheader cap hraw']
        simp only [if_pos hcomplete, if_pos hpayload]
        exact ⟨.inl rfl, fun hzero => absurd hzero (takeReadBuf_ne hcap hpayload)⟩
      · rw [pollRead_header_wait hbuf hskipped hpoll hr]
        exact ⟨.inr ⟨hraw, seg, hfirst.trans hseg, hlong⟩, fun hzero => absurd hzero (hr [])⟩
    · rw [pollRead_skipped hbuf hskipped]
      refine ⟨.inl hskipped, fun hzero => ?_⟩
      -- behind the header the reads are those of the inner stream
      rcases poll_cases hcap s.inner with
        ⟨hend, -⟩ | ⟨bs, t, hpoll, hne, -⟩ | ⟨r, t, hpoll, hr, -⟩
      · exact hend
      · rw [hpoll] at hzero
        injection hzero with hnil
        exact absurd hnil hne
      · rw [hpoll] at hzero
        exact absurd hzero (hr [])
  · have hskipped := skipped_of_readBuf h hbuf
    rw [pollRead_readBuf hbuf]
    exact ⟨.inl hskipped, fun hzero => absurd hzero (takeReadBuf_ne hcap hbuf)⟩

theorem endsOnlyAtEnd_of_pastHeader (hheader : IsHeader header) {s : VlessTcpStream ε} {rest : Bytes}
    (h : s.Expects header rest) (hpast : s.PastHeader header) {caps : List Nat}
    (hcaps : ∀ cap ∈ caps, 0 < cap) : s.EndsOnlyAtEnd caps := by
  induction caps generalizing s rest with
  | nil =>
    intro p hp
    cases hp
  | cons cap caps ih =>
    have hcap := hcaps cap (by simp)
    obtain ⟨rest', -, h', -⟩ := pollRead_step hheader hcap h
    obtain ⟨hpast', hend⟩ := pastHeader_step hheader hcap h hpast
    intro p hp
    rcases List.mem_cons.mp hp with rfl | hp
    · exact hend
    · exact ih h' hpast' (fun c hc => hcaps c (by simp [hc])) p hp

/-- A first read that does not go past the header is reported as the end of the stream. -/
theorem exists_early_end (hheader : IsHeader header) {t : Transport ε} {rest : Bytes}
    (hbytes : t.bytes = header ++ rest) {seg : Segment} (hseg : t.first? = some seg)
    (hshort : (seg.bytes.take 512).length ≤ header.length) :
    ∃ caps : List Nat, (∀ cap ∈ caps, 0 < cap) ∧
      ¬ (⟨t, [], false, []⟩ : VlessTcpStream ε).EndsOnlyAtEnd caps := by
  induction t with
  | nil => cases hseg
  | cons e t ih =>
    -- polls until the first segment arrives
    have hlater : ∀ r : Poll ε, (⟨e :: t, [], false, []⟩ : VlessTcpStream ε).pollRead 1
          = (r, ⟨t, [], false, []⟩) → Transport.bytes t = header ++ rest →
          Transport.first? t = some seg →
        ∃ caps : List Nat, (∀ cap ∈ caps, 0 < cap) ∧
          ¬ (⟨e :: t, [], false, []⟩ : VlessTcpStream ε).EndsOnlyAtEnd caps := by
      intro r hpoll hb hs
      obtain ⟨caps, hcaps, hearly⟩ := ih hb hs
      refine ⟨1 :: caps, by simpa using hcaps, fun hall => hearly fun p hp => hall p ?_⟩
      refine List.mem_cons_of_mem _ ?_
      rw [hpoll]
      exact hp
    cases e with
    | pending => exact hlater .pending rfl hbytes hseg
    | error e => exact hlater (.error e) rfl hbytes hseg
    | data seg' =>
      obtain rfl : seg' = seg := Option.some.inj hseg
      refine ⟨[1], by simp, fun hall => ?_⟩
      have hzero : ((⟨.data seg' :: t, [], false, []⟩ : VlessTcpStream ε).pollRead 1).1
          = .ready [] := by
        rcases poll_cases (by decide : 0 < 512) (Event.data seg' :: t) with
          ⟨hend, -⟩ | ⟨bs, t', hpoll, hne, hb, -, hfirst⟩ | ⟨r, t', hpoll, hr, -⟩
        · cases hend
        · have hbs : seg'.bytes.take 512 = bs := Option.some.inj hfirst
          rw [hbs] at hshort
          rw [pollRead_header_ready rfl rfl hpoll hne, parseHeader_eq hheader 1 (hb.symm.trans hbytes)]
          have hnil : bs.drop header.length = [] := List.drop_eq_nil_of_le hshort
          simp only [List.nil_append, hnil, ne_eq, not_true_eq_false, if_false]
          split <;> rfl
        · have hready := poll_data seg' t 512
          rw [hpoll] at hready
          exact absurd hready (hr _)
      have := hall _ (List.mem_cons_self ..) hzero
      cases this

/-! ### The stream as a whole -/

/-- **Reading a VLESS stream.** For a server stream of a response header and a payload, however the
    transport splits it and whatever room the caller has: the polls deliver a front of the payload,
    and as many of them as there are bytes and waits to come deliver all of it.  They report the
    end of the stream only at its end exactly when the first read of the transport, of at most 512
    bytes, goes past the header. -/
theorem pollRead_faithful_iff (inner : Transport ε) (n : UInt8) (addons payload : Bytes)
    (haddons : addons.length = n.toNat)
    (hbytes : inner.bytes = 0x00 :: n :: addons ++ payload) :
    (∀ caps : List Nat, (∀ cap ∈ caps, 0 < cap) →
        (⟨inner, [], false, []⟩ : VlessTcpStream ε).delivered caps <+: payload ∧
          (inner.size ≤ caps.length →
            (⟨inner, [], false, []⟩ : VlessTcpStream ε).delivered caps = payload)) ∧
      ((∀ caps : List Nat, (∀ cap ∈ caps, 0 < cap) →
          (⟨inner, [], false, []⟩ : VlessTcpStream ε).EndsOnlyAtEnd caps) ↔
        ∃ seg, inner.first? = some seg ∧ 2 + n.toNat < (seg.bytes.take 512).length) := by
  have hheader : IsHeader (0x00 :: n :: addons) := ⟨0x00, n, addons, rfl, haddons⟩
  have hlen : (0x00 :: n :: addons).length = 2 + n.toNat := by
    rw [List.length_cons, List.length_cons, haddons]
    omega
  have hstart : (⟨inner, [], false, []⟩ : VlessTcpStream ε).Expects (0x00 :: n :: addons) payload :=
    expects_of_header rfl rfl hbytes (by simp)
  constructor
  · intro caps hcaps
    obtain ⟨rest, hrest, hdone⟩ := delivered_of_expects hheader hstart hcaps
    refine ⟨⟨rest, hrest.symm⟩, fun hle => ?_⟩
    have htodo : (⟨inner, [], false, []⟩ : VlessTcpStream ε).todo = inner.size := Nat.zero_add _
    rw [hdone (by rw [htodo]; exact hle), List.append_nil] at hrest
    exact hrest.symm
  · constructor
    · intro hall
      -- the header is not empty, so there is a first segment
      obtain ⟨seg, hseg⟩ : ∃ seg, inner.first? = some seg :=
        exists_first_of_bytes (by rw [hbytes]; simp)
      refine ⟨seg, hseg, ?_⟩
      by_contra hshort
      obtain ⟨caps, hcaps, hearly⟩ := exists_early_end hheader hbytes hseg (by omega)
      exact hearly (hall caps hcaps)
    · rintro ⟨seg, hseg, hlong⟩ caps hcaps
      exact endsOnlyAtEnd_of_pastHeader hheader hstart
        (.inr ⟨rfl, seg, hseg, by rw [hlen]; exact hlong⟩) hcaps

/-- The header and the payload in one segment. -/
def gluedStream : Transport Unit := [.data ⟨[0, 0, 1, 2, 3], by simp⟩]

/-- One segment of five bytes is read whole. -/
theorem pollRead_faithful_glued :
    (⟨gluedStream, [], false, []⟩ : VlessTcpStream Unit).delivered [2, 2, 2, 2, 2] = [1, 2, 3] ∧
      (⟨gluedStream, [], false, []⟩ : VlessTcpStream Unit).EndsOnlyAtEnd [2, 2, 2, 2, 2] := by
  obtain ⟨hdelivers, hends⟩ := pollRead_faithful_iff gluedStream 0 [] [1, 2, 3] rfl rfl
  exact ⟨(hdelivers [2, 2, 2, 2, 2] (by decide)).2 (by decide),
    hends.mpr ⟨⟨[0, 0, 1, 2, 3], by simp⟩, rfl, by decide⟩ [2, 2, 2, 2, 2] (by decide)⟩

/-- The header in a segment of its own, as the VLESS inbound writes it. -/
def splitStream : Transport Unit := [.data ⟨[0, 0], by simp⟩, .data ⟨[1, 2, 3], by simp⟩]

/-- The first poll completes with no bytes while the payload is still to come. -/
theorem pollRead_ends_early :
    ¬ ∀ (inner : Transport Unit) (n : UInt8) (addons payload : Bytes),
      addons.length = n.toNat → inner.bytes = 0x00 :: n :: addons ++ payload →
        ∀ caps : List Nat, (∀ cap ∈ caps, 0 < cap) →
          (⟨inner, [], false, []⟩ : VlessTcpStream Unit).EndsOnlyAtEnd caps := by
  intro h
  have hfirst := h splitStream 0 [] [1, 2, 3] rfl rfl [8] (by decide)
    (⟨splitStream, [], false, []⟩, .ready []) (by exact List.mem_singleton.mpr rfl) rfl
  cases hfirst

end VlessTcpStream

end Reflex.Outbound
