import Reflex.App.Sniff
import Reflex.Lib.PolledStream
import Reflex.Lib.Words

namespace Reflex.Inbound

open RustStd App PolledStream Words

/-!
# Inbounds — looking at the first bytes of a stream

`SniffedStream` of `inbound/mod.rs` keeps bytes that were read ahead in front of the stream they came
from, and `sniff` of `app/sniff.rs` reads some, gives them back and looks at them.  What is given
back is put behind the bytes that are still kept.

* `SniffedStream.bytes` — what is still to be read;
* `Restorable` — when bytes that were read can be given back;
* `pollRead_prepend_iff`, `sniff_iff` — exactly then nothing changes.
-/

variable {ε : Type}

/-! ### The code -/

/-- `SniffedStream`, for reading. -/
structure SniffedStream (ε : Type) where
  pre : Bytes := []
  inner : Transport ε
  liveDown : Option Int := none

namespace SniffedStream

/-- The counter of bytes that were read. -/
def count (s : SniffedStream ε) (n : Nat) : SniffedStream ε :=
  { s with liveDown := s.liveDown.map (· + n) }

/-- `SniffedStream::prepend`. -/
def prepend (s : SniffedStream ε) (data : Bytes) : SniffedStream ε :=
  if data = [] then s
  else if s.pre = [] then { s with pre := data }
  else { s with pre := s.pre ++ data }

/-- `SniffedStream::poll_read`, into a buffer with room for `cap` bytes. -/
def pollRead (cap : Nat) (s : SniffedStream ε) : Poll ε × SniffedStream ε :=
  if s.pre ≠ [] then
    let amt := min s.pre.length cap
    (.ready (s.pre.take amt), { s with pre := s.pre.drop amt }.count amt)
  else
    let (result, inner) := s.inner.poll cap
    (result, { s with inner }.count result.bytes.length)

/-- `stream.read` under a timeout that is over after the given number of polls. -/
def readWithin (cap : Nat) : Nat → SniffedStream ε → Poll ε × SniffedStream ε
  | 0, s => (.pending, s)
  | polls + 1, s =>
      match s.pollRead cap with
      | (.pending, s) => readWithin cap polls s
      | r => r

end SniffedStream

/-- `PEEK_BUF_SIZE`. -/
def peekBufSize : Nat := 2048

/-- `SniffType::defaults`. -/
def defaultSniffTypes : List SniffType := [.tls, .http, .quic, .ssh, .bitTorrent]

/-- `sniff`; `recognise` is the parser for a type. -/
def sniff (recognise : SniffType → Bytes → Option SniffResult) (sniffTypes : List SniffType)
    (polls : Nat) (stream : SniffedStream ε) : Option SniffResult × SniffedStream ε :=
  let effectiveTypes := if sniffTypes.isEmpty then defaultSniffTypes else sniffTypes
  match stream.readWithin peekBufSize polls with
  | (.ready data, stream) =>
      if data = [] then (none, stream)
      else (effectiveTypes.findSome? fun t => recognise t data, stream.prepend data)
  | (_, stream) => (none, stream)

/-! ### What is still to be read -/

/-- The bytes that a stream will still yield. -/
def SniffedStream.bytes (s : SniffedStream ε) : Bytes := s.pre ++ s.inner.bytes

/-- What a read into `cap` bytes takes of the bytes that are kept can be given back: it takes them
    all, or they are a word repeated and it takes whole words. -/
def Restorable (cap : Nat) (pre : Bytes) : Prop :=
  pre.length ≤ cap ∨ ∃ w k, pre = power w k ∧ w.length ∣ cap

section Stream

variable {s s' : SniffedStream ε} {cap : Nat} {bs : Bytes}

@[simp] theorem bytes_count (s : SniffedStream ε) (n : Nat) : (s.count n).bytes = s.bytes := rfl

theorem bytes_prepend (s : SniffedStream ε) (data : Bytes) :
    (s.prepend data).bytes = s.pre ++ data ++ s.inner.bytes := by
  unfold SniffedStream.prepend
  split_ifs with hdata hpre
  · rw [hdata, List.append_nil]
    rfl
  · rw [hpre]
    rfl
  · rfl

/-- **Bytes that were kept** are read from the front. -/
theorem pollRead_of_pre (hpre : s.pre ≠ []) :
    s.pollRead cap = (.ready (s.pre.take cap),
      { s with pre := s.pre.drop cap }.count (min s.pre.length cap)) := by
  have htake : s.pre.take (min s.pre.length cap) = s.pre.take cap := by
    rw [Nat.min_comm, ← List.take_eq_take_min]
  have hdrop : s.pre.drop (min s.pre.length cap) = s.pre.drop cap := by
    rw [Nat.min_comm, ← List.drop_eq_drop_min]
  rw [SniffedStream.pollRead, if_pos hpre]
  simp only [htake, hdrop]

/-- **Without kept bytes** the stream below is read. -/
theorem pollRead_of_nil (hpre : s.pre = []) {r : Poll ε} (h : s.pollRead cap = (r, s')) :
    s'.pre = [] ∧ s.bytes = r.bytes ++ s'.bytes := by
  rw [SniffedStream.pollRead, if_neg (not_not.mpr hpre)] at h
  have hbytes := bytes_poll cap s.inner
  cases hpoll : s.inner.poll cap with
  | mk result inner =>
    rw [hpoll] at h hbytes
    obtain ⟨rfl, rfl⟩ := Prod.mk.inj h
    refine ⟨hpre, ?_⟩
    rw [bytes_count, SniffedStream.bytes, SniffedStream.bytes, hpre, List.nil_append,
      List.nil_append, hbytes]

/-- A read that does not go beyond the kept bytes leaves them as they were if it takes whole words. -/
theorem bytes_giveBack_iff (n : Nat) :
    (({ s with pre := s.pre.drop cap }.count n).prepend (s.pre.take cap)).bytes = s.bytes
      ↔ Restorable cap s.pre := by
  rw [bytes_prepend]
  show s.pre.drop cap ++ s.pre.take cap ++ s.inner.bytes = s.pre ++ s.inner.bytes ↔ _
  rw [List.append_cancel_right_eq, Restorable]
  rcases Nat.lt_or_ge cap s.pre.length with hlt | hge
  · rw [rotate_iff (Nat.le_of_lt hlt), or_iff_right (not_le.mpr hlt)]
  · rw [List.drop_of_length_le hge, List.take_of_length_le hge]
    exact iff_of_true rfl (.inl hge)

/-- Without kept bytes, what was read can always be given back. -/
theorem bytes_prepend_of_nil (hpre : s'.pre = []) (hbytes : s.bytes = bs ++ s'.bytes) :
    (s'.prepend bs).bytes = s.bytes := by
  rw [bytes_prepend, hbytes, SniffedStream.bytes, hpre, List.nil_append, List.nil_append]

theorem restorable_nil (cap : Nat) : Restorable cap [] := .inl (Nat.zero_le _)

/-- **One read**, given back: the stream is as it was exactly if the kept bytes allow it. -/
theorem pollRead_prepend_iff (s : SniffedStream ε) (cap : Nat) :
    (∀ bs s', s.pollRead cap = (.ready bs, s') → bs ≠ [] → (s'.prepend bs).bytes = s.bytes)
      ↔ Restorable cap s.pre := by
  by_cases hpre : s.pre = []
  · rw [hpre]
    refine iff_of_true (fun bs s' hread hbs => ?_) (restorable_nil cap)
    obtain ⟨hpre', hbytes⟩ := pollRead_of_nil hpre hread
    exact bytes_prepend_of_nil hpre' hbytes
  · rw [pollRead_of_pre hpre]
    constructor
    · intro h
      by_cases hcap : cap = 0
      · -- nothing is read, and every number divides 0
        exact .inr ⟨s.pre, 1, (power_one _).symm, hcap ▸ Nat.dvd_zero _⟩
      · refine (bytes_giveBack_iff _).mp (h _ _ rfl ?_)
        rw [ne_eq, List.take_eq_nil_iff, not_or]
        exact ⟨hcap, hpre⟩
    · intro h bs s' hread hbs
      obtain ⟨hready, rfl⟩ := Prod.mk.inj hread
      obtain rfl := Poll.ready.inj hready
      exact (bytes_giveBack_iff _).mpr h

theorem readWithin_of_pre (hpre : s.pre ≠ []) (polls : Nat) :
    s.readWithin cap (polls + 1) = s.pollRead cap := by
  rw [SniffedStream.readWithin, pollRead_of_pre hpre]

/-- The polls of one read when nothing is left of the sniffed bytes: what it returns comes off the inner stream. -/
theorem readWithin_of_nil {polls : Nat} {r : Poll ε} (hpre : s.pre = [])
    (h : s.readWithin cap polls = (r, s')) : s'.pre = [] ∧ s.bytes = r.bytes ++ s'.bytes := by
  induction polls generalizing s with
  | zero =>
    obtain ⟨rfl, rfl⟩ := Prod.mk.inj h
    exact ⟨hpre, rfl⟩
  | succ polls ih =>
    rw [SniffedStream.readWithin] at h
    cases hpoll : s.pollRead cap with
    | mk r₁ s₁ =>
      obtain ⟨hpre₁, hbytes₁⟩ := pollRead_of_nil hpre hpoll
      rw [hpoll] at h
      cases r₁ with
      | pending =>
        obtain ⟨hpre', hbytes⟩ := ih hpre₁ h
        exact ⟨hpre', hbytes₁.trans hbytes⟩
      | ready bs =>
        obtain ⟨rfl, rfl⟩ := Prod.mk.inj h
        exact ⟨hpre₁, hbytes₁⟩
      | error e =>
        obtain ⟨rfl, rfl⟩ := Prod.mk.inj h
        exact ⟨hpre₁, hbytes₁⟩

variable (recognise : SniffType → Bytes → Option SniffResult) (sniffTypes : List SniffType)

/-- What a sniffed stream will still yield. -/
theorem bytes_sniff {polls : Nat} {r : Poll ε}
    (h : s.readWithin peekBufSize polls = (r, s')) :
    (sniff recognise sniffTypes polls s).2.bytes = (s'.prepend r.bytes).bytes := by
  simp only [sniff, h]
  cases r with
  | ready data =>
    by_cases hdata : data = []
    · simp only [hdata, if_true]
      rfl
    · simp only [hdata, if_false]
      rfl
  | pending => rfl
  | error e => rfl

/-- **Sniffing** leaves a stream as it was, whenever its timeout is over, exactly if the kept bytes
    allow it. -/
theorem sniff_iff (s : SniffedStream ε) :
    (∀ polls, (sniff recognise sniffTypes polls s).2.bytes = s.bytes)
      ↔ Restorable peekBufSize s.pre := by
  by_cases hpre : s.pre = []
  · rw [hpre]
    refine iff_of_true (fun polls => ?_) (restorable_nil _)
    rw [bytes_sniff recognise sniffTypes rfl]
    obtain ⟨hpre', hbytes⟩ := readWithin_of_nil hpre rfl
    exact bytes_prepend_of_nil hpre' hbytes
  · have hpoll : s.pollRead peekBufSize = _ := pollRead_of_pre hpre
    have hread := fun polls => (readWithin_of_pre hpre polls).trans hpoll
    constructor
    · intro h
      rw [← bytes_giveBack_iff, ← h 1, bytes_sniff recognise sniffTypes (hread 0)]
      rfl
    · intro h polls
      cases polls with
      | zero => rfl
      | succ polls =>
        rw [bytes_sniff recognise sniffTypes (hread polls)]
        exact (bytes_giveBack_iff _).mpr h

end Stream

/-- Bytes that were read from a stream and given back change nothing exactly if the read took all
    kept bytes, or these are a word repeated and the size of the buffer is that of whole words.  For
    sniffing the size is 2048. -/
theorem sniffed_iff (recognise : SniffType → Bytes → Option SniffResult)
    (sniffTypes : List SniffType) (s : SniffedStream ε) :
    (∀ cap,
      (∀ bs s', s.pollRead cap = (.ready bs, s') → bs ≠ [] → (s'.prepend bs).bytes = s.bytes)
        ↔ Restorable cap s.pre) ∧
    ((∀ polls, (sniff recognise sniffTypes polls s).2.bytes = s.bytes)
      ↔ Restorable peekBufSize s.pre) :=
  ⟨pollRead_prepend_iff s, sniff_iff recognise sniffTypes s⟩

/-- Two kept bytes, of which one is read and given back. -/
theorem not_prepend_restores :
    ¬ ∀ (s : SniffedStream Unit) (cap : Nat) (bs : Bytes) (s' : SniffedStream Unit),
      s.pollRead cap = (.ready bs, s') → bs ≠ [] → (s'.prepend bs).bytes = s.bytes := by
  intro h
  have := h { pre := [1, 2], inner := [] } 1 [1] _ rfl (by decide)
  exact absurd this (by decide)

end Reflex.Inbound
