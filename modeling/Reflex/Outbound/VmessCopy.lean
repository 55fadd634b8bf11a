import Reflex.Outbound.VmessWrite

namespace Reflex.Vmess

open RustStd Transition

/-!
# VMess — the upload of a relay

`copy_half` of `outbound/mod.rs` with a `VmessWriteHalf` to write to: it reads up to 64 KiB, writes all
of it and reads again, and it never flushes.  The writer keeps each frame until the next call.

* `Inv.step` — what was read is what was written and what is left of the chunk, and a writer that has
  taken a chunk keeps its frame;
* `handed_iff` — while `copy_half` waits for the next read, the frames of all bytes read so far have
  been handed over exactly if there are none.
-/

/-! ### The loop -/

/-- Where `copy_half` is: at a read, in `write_all` with what is left of a chunk, at the shutdown, or
    at its end. -/
inductive CopyStage where
  | reading
  | writing (chunk : Nat) (rest : Bytes)
  | closing
  | done
  deriving DecidableEq, Repr

/-- `copy_half` with its writer, and every byte that was read. -/
structure VmessCopy where
  stage : CopyStage := .reading
  writer : VmessWriteHalf
  total : Nat := 0
  read : Bytes := []

/-- What happens next: a read returns bytes, a read returns none or fails, and one poll of `write_all`
    or of `shutdown`, with the answers of the inner stream. -/
inductive CopyEvent where
  | read (data : Bytes)
  | eof
  | write (answers : List (Poll Nat))
  | shutdown (shut : Poll Unit)
  deriving DecidableEq, Repr

variable (C : DataCrypto)

namespace VmessCopy

/-- `copy_half` at its start. -/
def start (encoder : VmessEncoder) : VmessCopy := { writer := .new encoder }

/-- One poll of `write_all`: a write that takes no byte is an error. -/
def writeAll (s : VmessCopy) (chunk : Nat) (rest : Bytes) (answers : List (Poll Nat)) :
    Option VmessCopy :=
  (s.writer.pollWrite C rest answers).map fun (result, writer) =>
    match result with
    | .pending => { s with writer }
    | .error _ => { s with stage := .closing, writer }
    | .ready n =>
        let writer := { writer with written := writer.written ++ [(rest.take n, writer.pending)] }
        if n = 0 then { s with stage := .closing, writer }
        else if rest.drop n = [] then { s with stage := .reading, writer, total := s.total + chunk }
        else { s with stage := .writing chunk (rest.drop n), writer }

/-- One event of the copy: a read, its end, a `write_all` with the answers of the stream, or the shutdown. -/
def step (s : VmessCopy) : CopyEvent → Option VmessCopy
  | .read data =>
      if s.stage = .reading ∧ data ≠ [] ∧ data.length ≤ 65536 then
        some { s with stage := .writing data.length data, read := s.read ++ data }
      else none
  | .eof => if s.stage = .reading then some { s with stage := .closing } else none
  | .write answers =>
      match s.stage with
      | .writing chunk rest => s.writeAll C chunk rest answers
      | _ => none
  | .shutdown shut =>
      if s.stage = .closing then
        let (result, writer) := s.writer.pollShutdown shut
        -- `let _ = writer.shutdown().await`: an error is not looked at
        some { s with stage := if result = .pending then .closing else .done, writer }
      else none

/-- `copy_half` waits for the next read. -/
def Waiting (s : VmessCopy) : Prop := s.stage = .reading

/-- The bytes that were written, without their frames. -/
def taken (s : VmessCopy) : Bytes := (s.writer.written.map Prod.fst).flatten

/-- The frames of all bytes that were read have been handed to the inner stream. -/
def Handed (s : VmessCopy) : Prop :=
  s.taken = s.read ∧ VmessWriteHalf.encoded s.writer.written <+: s.writer.accepted

variable {C}

/-! ### Frames -/

theorem ne_nil_of_lengthPrefix (len : Nat) (body : Bytes) : beBytes 2 len ++ body ≠ [] := by
  apply List.append_ne_nil_of_left_ne_nil
  exact List.ne_nil_of_length_pos (by simp)

/-- A chunk with bytes has a frame with bytes. -/
theorem ne_nil_of_encode {e e' : VmessEncoder} {chunk frame : Bytes} (hchunk : chunk ≠ [])
    (h : e.encode C chunk = (.ok frame, e')) : frame ≠ [] := by
  unfold VmessEncoder.encode at h
  split at h
  · -- without frames the chunk goes as it is
    obtain ⟨heq, -⟩ := Prod.mk.inj h
    exact Except.ok.inj heq ▸ hchunk
  · split at h
    · obtain ⟨heq, -⟩ := Prod.mk.inj h
      rw [← Except.ok.inj heq]
      apply ne_nil_of_lengthPrefix
    · -- the encryption gives a body, which goes behind its length
      rcases hcipher : e.cipher with _ | cipher
      · simp [hcipher] at h
      · rcases hencrypt : cipher.encrypt C (makeNonce e.count e.baseNonce) chunk with _ | body
        · simp [hcipher, hencrypt] at h
        · simp only [hcipher, hencrypt] at h
          obtain ⟨heq, -⟩ := Prod.mk.inj h
          rw [← Except.ok.inj heq]
          apply ne_nil_of_lengthPrefix

/-! ### One event -/

variable {s s' : VmessCopy}

/-- **One poll of `write_all`** is a write; it leaves the chunk as it is, or gives it up, or has a
    piece of it encoded that is still pending then. -/
theorem writeAll_cases {chunk : Nat} {rest : Bytes} {answers : List (Poll Nat)} (hrest : rest ≠ [])
    (h : s.writeAll C chunk rest answers = some s') :
    s.writer.step C (.write rest answers) = some s'.writer ∧ s'.read = s.read ∧
      ((s'.stage = s.stage ∧ s'.taken = s.taken) ∨ s'.stage = .closing ∨
        (s'.taken = s.taken ++ rest.take 15000 ∧ s'.writer.pending ≠ [] ∧
          s'.stage = if rest.drop 15000 = [] then .reading else .writing chunk (rest.drop 15000))) := by
  obtain ⟨⟨result, writer⟩, hpoll, rfl⟩ := Option.map_eq_some_iff.mp h
  simp only [VmessWriteHalf.step, hpoll, Option.map_some, Option.some.injEq]
  rcases VmessWriteHalf.pollWrite_cases hpoll with ⟨hnot, encoder, sent, left, -, rfl⟩ |
    ⟨rfl, encoder, frame, hencode, rfl⟩
  · rcases result with _ | n | e
    · exact ⟨rfl, rfl, .inl ⟨rfl, rfl⟩⟩
    · exact absurd rfl (hnot n)
    · exact ⟨rfl, rfl, .inr (.inl rfl)⟩
  · -- a piece with bytes was encoded
    have hpiece : rest.take 15000 ≠ [] := by simpa using hrest
    have hpos : (rest.take 15000).length ≠ 0 := by simpa using hrest
    have htake : rest.take (rest.take 15000).length = rest.take 15000 := by
      rw [List.length_take, ← List.take_eq_take_min]
    have hdrop : rest.drop (rest.take 15000).length = rest.drop 15000 := by
      rw [List.length_take, ← List.drop_eq_drop_min]
    have hframe := ne_nil_of_encode hpiece hencode
    simp only [if_neg hpos, htake, hdrop]
    split
    · exact ⟨rfl, rfl, .inr (.inr ⟨by simp [taken], hframe, rfl⟩)⟩
    · exact ⟨rfl, rfl, .inr (.inr ⟨by simp [taken], hframe, rfl⟩)⟩

/-! ### The invariant -/

/-- What was written and what is left of the chunk is what was read, and at a read the last frame is
    still pending, if there is one. -/
structure Inv (s : VmessCopy) : Prop where
  writer : s.writer.Inv
  reading : s.stage = .reading → s.taken = s.read ∧
    ((s.read = [] ∧ s.writer.pending = []) ∨ (s.read ≠ [] ∧ s.writer.pending ≠ []))
  writing : ∀ chunk rest, s.stage = .writing chunk rest → s.taken ++ rest = s.read ∧ rest ≠ []

/-- The invariant at a read: all that was read has been taken by the writer. -/
theorem inv_of_reading (hwriter : s.writer.Inv) (hstage : s.stage = .reading)
    (h : s.taken = s.read ∧
      ((s.read = [] ∧ s.writer.pending = []) ∨ (s.read ≠ [] ∧ s.writer.pending ≠ []))) : s.Inv where
  writer := hwriter
  reading _ := h
  writing _ _ hwriting := by
    rw [hstage] at hwriting
    cases hwriting

/-- The invariant in `write_all`: what was read is what the writer has taken and the rest of the buffer. -/
theorem inv_of_writing (hwriter : s.writer.Inv) {chunk : Nat} {rest : Bytes}
    (hstage : s.stage = .writing chunk rest) (h : s.taken ++ rest = s.read ∧ rest ≠ []) :
    s.Inv where
  writer := hwriter
  reading hreading := by
    rw [hstage] at hreading
    cases hreading
  writing _ _ hwriting := by
    obtain ⟨rfl, rfl⟩ := CopyStage.writing.inj (hstage.symm.trans hwriting)
    exact h

/-- The invariant behind the loop, where nothing more is read or written. -/
theorem inv_of_ended (hwriter : s.writer.Inv) (hstage : s.stage = .closing ∨ s.stage = .done) :
    s.Inv where
  writer := hwriter
  reading hreading := by
    rcases hstage with hstage | hstage <;> rw [hstage] at hreading <;> cases hreading
  writing _ _ hwriting := by
    rcases hstage with hstage | hstage <;> rw [hstage] at hwriting <;> cases hwriting

theorem inv_start (encoder : VmessEncoder) : (start encoder).Inv :=
  inv_of_reading (VmessWriteHalf.inv_new encoder) rfl ⟨rfl, .inl ⟨rfl, rfl⟩⟩

theorem Inv.writeAll (hs : s.Inv) {chunk : Nat} {rest : Bytes}
    (hstage : s.stage = .writing chunk rest) {answers : List (Poll Nat)}
    (h : s.writeAll C chunk rest answers = some s') : s'.Inv := by
  obtain ⟨htaken, hrest⟩ := hs.writing chunk rest hstage
  obtain ⟨hwriter, hread, hcases⟩ := writeAll_cases hrest h
  have hinv : s'.writer.Inv := hs.writer.step hwriter
  rcases hcases with ⟨hsame, htaken'⟩ | hclosing | ⟨htaken', hpending, hnext⟩
  · exact inv_of_writing hinv (hsame.trans hstage) ⟨by rw [htaken', hread, htaken], hrest⟩
  · exact inv_of_ended hinv (.inl hclosing)
  · have hsplit : s'.taken ++ rest.drop 15000 = s'.read := by
      rw [htaken', List.append_assoc, List.take_append_drop, hread, htaken]
    by_cases hlast : rest.drop 15000 = []
    · -- the last piece: the loop is at a read again, and its frame is pending
      rw [if_pos hlast] at hnext
      rw [hlast, List.append_nil] at hsplit
      have hsome : s'.read ≠ [] := by
        rw [hread, ← htaken]
        exact List.append_ne_nil_of_right_ne_nil _ hrest
      exact inv_of_reading hinv hnext ⟨hsplit, .inr ⟨hsome, hpending⟩⟩
    · rw [if_neg hlast] at hnext
      exact inv_of_writing hinv hnext ⟨hsplit, hlast⟩

theorem Inv.step {event : CopyEvent} (hs : s.Inv) (h : s.step C event = some s') : s'.Inv := by
  cases event with
  | read data =>
    simp only [VmessCopy.step, Option.ite_none_right_eq_some, Option.some.injEq] at h
    obtain ⟨⟨hstage, hdata, -⟩, rfl⟩ := h
    exact inv_of_writing hs.writer rfl ⟨congrArg (· ++ data) (hs.reading hstage).1, hdata⟩
  | eof =>
    simp only [VmessCopy.step, Option.ite_none_right_eq_some, Option.some.injEq] at h
    obtain ⟨-, rfl⟩ := h
    exact inv_of_ended hs.writer (.inl rfl)
  | write answers =>
    simp only [VmessCopy.step] at h
    split at h
    · rename_i chunk rest hstage
      exact hs.writeAll hstage h
    · cases h
  | shutdown shut =>
    simp only [VmessCopy.step, Option.ite_none_right_eq_some, Option.some.injEq] at h
    obtain ⟨-, rfl⟩ := h
    exact inv_of_ended hs.writer (ite_eq_or_eq _ _ _)

/-! ### What is handed over -/

/-- The frames are all handed over when none is pending. -/
theorem encoded_isPrefix_iff (hs : s.writer.Inv) :
    VmessWriteHalf.encoded s.writer.written <+: s.writer.accepted ↔ s.writer.pending = [] := by
  rw [← hs.bytes]
  constructor
  · intro h
    have hlen := h.length_le
    rw [List.length_append] at hlen
    exact List.length_eq_zero_iff.mp (by omega)
  · intro h
    rw [h, List.append_nil]

/-- **Waiting for the next read.** In every run of `copy_half` with a VMess writer, whatever the inner
    stream answers: while it waits for the next read, the frames of every byte read so far have been
    handed over exactly if no byte was read. -/
theorem handed_iff {encoder : VmessEncoder} {events : List CopyEvent}
    (hrun : run (step C) (start encoder) events = some s) (hwaiting : s.Waiting) :
    s.Handed ↔ s.read = [] := by
  have hs : s.Inv := invariant_of_steps (fun _ _ _ h hs => Inv.step hs h) hrun (inv_start encoder)
  obtain ⟨htaken, hkept⟩ := hs.reading hwaiting
  rw [Handed, encoded_isPrefix_iff hs.writer, and_iff_right htaken]
  rcases hkept with ⟨hread, hpending⟩ | ⟨hread, hpending⟩
  · exact iff_of_true hpending hread
  · exact iff_of_false hpending hread

/-- Two chunks, the second while nothing more is known of the first. -/
theorem handed_iff_twoChunks : ∃ s,
    run (step plainData) (start VmessWriteHalf.rawEncoder)
      [.read [1, 2], .write [], .read [3], .write [.ready 1, .pending], .write [.ready 1]] = some s ∧
      s.writer.accepted = [1, 2] ∧ (s.Handed ↔ s.read = []) :=
  ⟨_, rfl, rfl, handed_iff (C := plainData)
    (show run _ (start VmessWriteHalf.rawEncoder) [.read [1, 2], .write [], .read [3],
      .write [.ready 1, .pending], .write [.ready 1]] = _ from rfl) rfl⟩

/-- A request of three bytes: `copy_half` waits for the next read, and the inner stream has been offered
    nothing. -/
theorem not_handed_request : ∃ s,
    VmessEncoder.new plainData securityNone 0 zeroKey zeroKey = some VmessWriteHalf.rawEncoder ∧
      run (step plainData) (start VmessWriteHalf.rawEncoder) [.read [1, 2, 3], .write []] = some s ∧
      s.Waiting ∧ s.read = [1, 2, 3] ∧ s.writer.accepted = [] ∧ ¬ s.Handed :=
  ⟨_, rfl, rfl, rfl, rfl, rfl, fun h => absurd h.2 (by decide)⟩

end VmessCopy

end Reflex.Vmess
