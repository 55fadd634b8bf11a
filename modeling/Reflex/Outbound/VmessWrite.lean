import Mathlib.Data.List.DropRight
import Reflex.Lib.Transition
import Reflex.Outbound.VmessStream

namespace Reflex.Vmess

open RustStd Transition

/-!
# VMess — writing a stream

`VmessWriteHalf` of `outbound/vmess/aead.rs`.  A write encodes a chunk into `pending`; the next write
and a flush hand it over to the inner stream first.  A shutdown shuts the inner stream down and leaves
`pending` as it is.

* `drain_eq_some` — the loop hands over the front of what is pending;
* `step_cases` — what one call does;
* `Inv.step` — what was handed over and what is pending are the frames of what was written;
* `shutdown_complete_iff` — every completed shutdown finds all that was written handed over, exactly
  if none is made while something is pending.
-/

/-! ### The stream -/

/-- The result of a poll. -/
inductive Poll (α : Type) where
  | pending
  | ready (a : α)
  | error (e : DataError)
  deriving DecidableEq, Repr

/-- `VmessWriteHalf`, with the bytes that the inner stream has taken, the chunks that were reported as
    written, each with its frame, and what was due when a `poll_shutdown` was last completed. -/
structure VmessWriteHalf where
  encoder : VmessEncoder
  pending : Bytes := []
  accepted : Bytes := []
  written : List (Bytes × Bytes) := []
  promised : Bytes := []

/-- The loop `while !pending.is_empty()`, with an answer of the inner stream for each round.  It
    returns how it ends, what was taken and what is still pending. -/
def drain : Bytes → List (Poll Nat) → Option (Poll Unit × Bytes × Bytes)
  | [], [] => some (.ready (), [], [])
  | b :: bs, [.pending] => some (.pending, [], b :: bs)
  | b :: bs, [.error e] => some (.error e, [], b :: bs)
  | b :: bs, .ready n :: answers =>
      -- the inner stream takes no more than it is offered
      if n ≤ bs.length + 1 then
        (drain ((b :: bs).drop n) answers).map fun (r, taken, rest) =>
          (r, (b :: bs).take n ++ taken, rest)
      else none
  | _, _ => none

variable (C : DataCrypto)

namespace VmessWriteHalf

/-- `VmessWriteHalf::new`. -/
def new (encoder : VmessEncoder) : VmessWriteHalf := { encoder }

/-- `poll_write`; `none` where the answers are not those of a run of the loop. -/
def pollWrite (s : VmessWriteHalf) (data : Bytes) (answers : List (Poll Nat)) :
    Option (Poll Nat × VmessWriteHalf) :=
  (drain s.pending answers).map fun (r, taken, rest) =>
    let s := { s with pending := rest, accepted := s.accepted ++ taken }
    match r with
    | .pending => (.pending, s)
    | .error e => (.error e, s)
    | .ready () =>
        let chunk := data.take 15000
        match s.encoder.encode C chunk with
        | (.error e, encoder) => (.error e, { s with encoder })
        | (.ok frame, encoder) => (.ready chunk.length, { s with encoder, pending := frame })

/-- `poll_flush`, where the inner stream answers its own flush with `flushed`. -/
def pollFlush (s : VmessWriteHalf) (answers : List (Poll Nat)) (flushed : Poll Unit) :
    Option (Poll Unit × VmessWriteHalf) :=
  (drain s.pending answers).map fun (r, taken, rest) =>
    let s := { s with pending := rest, accepted := s.accepted ++ taken }
    match r with
    | .ready () => (flushed, s)
    | r => (r, s)

/-- `poll_shutdown`, where the inner stream answers with `shut`. -/
def pollShutdown (s : VmessWriteHalf) (shut : Poll Unit) : Poll Unit × VmessWriteHalf := (shut, s)

/-! ### Runs -/

/-- A call, with the answers of the inner stream. -/
inductive Call where
  | write (data : Bytes) (answers : List (Poll Nat))
  | flush (answers : List (Poll Nat)) (flushed : Poll Unit)
  | shutdown (shut : Poll Unit)
  deriving DecidableEq, Repr

/-- The encodings of all that was written, one behind the other. -/
def encoded (written : List (Bytes × Bytes)) : Bytes := (written.map Prod.snd).flatten

/-- The encoding of every byte that was written: up to the last chunk with bytes. -/
def due (s : VmessWriteHalf) : Bytes := encoded (s.written.rdropWhile fun w => w.1 = [])

/-- One call of the writer, with the answers that the inner stream gives in it. -/
def step (s : VmessWriteHalf) : Call → Option VmessWriteHalf
  | .write data answers =>
      (s.pollWrite C data answers).map fun (result, s) =>
        match result with
        | .ready n => { s with written := s.written ++ [(data.take n, s.pending)] }
        | _ => s
  | .flush answers flushed => (s.pollFlush answers flushed).map Prod.snd
  | .shutdown shut =>
      let (result, s) := s.pollShutdown shut
      some (if result = .ready () then { s with promised := s.due } else s)

/-- The call is no completed shutdown, or nothing is pending; the frame of a chunk without bytes may
    be. -/
def NothingLeft (s : VmessWriteHalf) (call : Call) : Prop :=
  call = .shutdown (.ready ()) → s.pending = [] ∨ s.written.getLast?.map Prod.fst = some []

instance (s : VmessWriteHalf) (call : Call) : Decidable (s.NothingLeft call) :=
  inferInstanceAs (Decidable (_ → _))

/-- The inner stream has received what was due at the last completed shutdown. -/
def Received (s : VmessWriteHalf) : Prop := s.promised <+: s.accepted

instance (s : VmessWriteHalf) : Decidable s.Received := inferInstanceAs (Decidable (_ <+: _))

/-! ### What is handed over -/

variable {C}

theorem drain_eq_some {pending taken rest : Bytes} {answers : List (Poll Nat)} {r : Poll Unit}
    (h : drain pending answers = some (r, taken, rest)) :
    taken ++ rest = pending ∧ (r = .ready () → rest = []) := by
  fun_induction drain pending answers generalizing taken rest r with
  | case1 =>
      obtain ⟨rfl, rfl, rfl⟩ := by simpa using h
      exact ⟨rfl, fun _ => rfl⟩
  | case2 b bs =>
      obtain ⟨rfl, rfl, rfl⟩ := by simpa using h
      exact ⟨rfl, fun h => (nomatch h)⟩
  | case3 b bs e =>
      obtain ⟨rfl, rfl, rfl⟩ := by simpa using h
      exact ⟨rfl, fun h => (nomatch h)⟩
  | case4 b bs n answers hle ih =>
      obtain ⟨⟨r', taken', rest'⟩, hdrain, heq⟩ := Option.map_eq_some_iff.mp h
      obtain ⟨rfl, rfl, rfl⟩ := by simpa using heq
      obtain ⟨htaken, hready⟩ := ih hdrain
      exact ⟨by rw [List.append_assoc, htaken, List.take_append_drop], hready⟩
  | case5 => cases h
  | case6 => cases h

variable {s s' : VmessWriteHalf} {call : Call}

/-- A write hands over the front of what is pending and reports nothing, or it hands over all of it
    and encodes a chunk. -/
theorem pollWrite_cases {data : Bytes} {answers : List (Poll Nat)} {result : Poll Nat}
    {t : VmessWriteHalf} (h : s.pollWrite C data answers = some (result, t)) :
    ((∀ n, result ≠ .ready n) ∧ ∃ encoder taken rest, taken ++ rest = s.pending ∧
        t = { s with encoder, pending := rest, accepted := s.accepted ++ taken }) ∨
      (result = .ready (data.take 15000).length ∧ ∃ encoder frame,
        s.encoder.encode C (data.take 15000) = (.ok frame, encoder) ∧
        t = { s with encoder, pending := frame, accepted := s.accepted ++ s.pending }) := by
  obtain ⟨⟨r, taken, rest⟩, hdrain, heq⟩ := Option.map_eq_some_iff.mp h
  obtain ⟨htaken, hready⟩ := drain_eq_some hdrain
  cases r with
  | pending =>
      obtain ⟨rfl, rfl⟩ := Prod.mk.inj heq
      exact .inl ⟨nofun, s.encoder, taken, rest, htaken, rfl⟩
  | error e =>
      obtain ⟨rfl, rfl⟩ := Prod.mk.inj heq
      exact .inl ⟨nofun, s.encoder, taken, rest, htaken, rfl⟩
  | ready u =>
      obtain rfl := hready rfl
      rw [List.append_nil] at htaken
      rcases hencode : s.encoder.encode C (data.take 15000) with ⟨x, encoder⟩
      simp only [hencode] at heq
      cases x with
      | error e =>
          obtain ⟨rfl, rfl⟩ := Prod.mk.inj heq
          exact .inl ⟨nofun, encoder, taken, [], by rw [List.append_nil, htaken], rfl⟩
      | ok frame =>
          obtain ⟨rfl, rfl⟩ := Prod.mk.inj heq
          exact .inr ⟨rfl, encoder, frame, rfl, by rw [htaken]⟩

/-- A flush hands over the front of what is pending. -/
theorem pollFlush_eq_some {answers : List (Poll Nat)} {flushed result : Poll Unit}
    {t : VmessWriteHalf} (h : s.pollFlush answers flushed = some (result, t)) :
    ∃ taken rest, taken ++ rest = s.pending ∧
      t = { s with pending := rest, accepted := s.accepted ++ taken } := by
  obtain ⟨⟨r, taken, rest⟩, hdrain, heq⟩ := Option.map_eq_some_iff.mp h
  refine ⟨taken, rest, (drain_eq_some hdrain).1, ?_⟩
  cases r with
  | pending => exact (Prod.mk.inj heq).2.symm
  | error e => exact (Prod.mk.inj heq).2.symm
  | ready u => exact (Prod.mk.inj heq).2.symm

/-- **One call** hands over the front of what is pending; or it is a write that has handed over all
    and encodes a chunk; or it is a completed shutdown. -/
theorem step_cases (h : s.step C call = some s') :
    (call ≠ .shutdown (.ready ()) ∧ ∃ encoder taken rest, taken ++ rest = s.pending ∧
        s' = { s with encoder, pending := rest, accepted := s.accepted ++ taken }) ∨
      (∃ data answers encoder frame, call = .write data answers ∧
        s.encoder.encode C (data.take 15000) = (.ok frame, encoder) ∧
        s' = { s with
          encoder
          pending := frame
          accepted := s.accepted ++ s.pending
          written := s.written ++ [(data.take 15000, frame)] }) ∨
      (call = .shutdown (.ready ()) ∧ s' = { s with promised := s.due }) := by
  cases call with
  | write data answers =>
      obtain ⟨⟨result, t⟩, hpoll, rfl⟩ := Option.map_eq_some_iff.mp h
      rcases pollWrite_cases hpoll with ⟨hnot, encoder, taken, rest, htaken, rfl⟩ |
        ⟨rfl, encoder, frame, hencode, rfl⟩
      · refine .inl ⟨nofun, encoder, taken, rest, htaken, ?_⟩
        cases result with
        | ready n => exact absurd rfl (hnot n)
        | pending => rfl
        | error e => rfl
      · -- the number that is reported is that of the bytes in the frame
        have hreported : data.take (data.take 15000).length = data.take 15000 := by
          rw [List.length_take, ← List.take_eq_take_min]
        refine .inr (.inl ⟨data, answers, encoder, frame, rfl, hencode, ?_⟩)
        simp only [hreported]
  | flush answers flushed =>
      obtain ⟨⟨result, t⟩, hpoll, rfl⟩ := Option.map_eq_some_iff.mp h
      obtain ⟨taken, rest, htaken, rfl⟩ := pollFlush_eq_some hpoll
      exact .inl ⟨nofun, s.encoder, taken, rest, htaken, rfl⟩
  | shutdown shut =>
      obtain rfl := Option.some.inj h
      -- a shutdown is a promise only if it goes through
      by_cases hshut : shut = .ready ()
      · rw [hshut]
        exact .inr (.inr ⟨rfl, rfl⟩)
      · refine .inl ⟨fun h => hshut (Call.shutdown.inj h), s.encoder, [], s.pending, rfl, ?_⟩
        rw [List.append_nil]
        exact if_neg hshut

/-! ### The invariant -/

/-- What was handed over and what is pending are the frames of what was written, and what is pending
    is the end of the last one. -/
structure Inv (s : VmessWriteHalf) : Prop where
  bytes : s.accepted ++ s.pending = encoded s.written
  last : s.pending = [] ∨
    ∃ front chunk frame, s.written = front ++ [(chunk, frame)] ∧ s.pending <:+ frame

theorem encoded_concat (front : List (Bytes × Bytes)) (chunk frame : Bytes) :
    encoded (front ++ [(chunk, frame)]) = encoded front ++ frame := by
  rw [encoded, List.map_append, List.flatten_append]
  exact congrArg (encoded front ++ ·) (List.append_nil frame)

theorem inv_new (encoder : VmessEncoder) : (new encoder).Inv := ⟨rfl, .inl rfl⟩

theorem Inv.step (hs : s.Inv) (h : s.step C call = some s') : s'.Inv := by
  rcases step_cases h with ⟨-, encoder, taken, rest, htaken, rfl⟩ |
    ⟨data, answers, encoder, frame, -, -, rfl⟩ | ⟨-, rfl⟩
  · refine ⟨?_, ?_⟩
    · show (s.accepted ++ taken) ++ rest = _
      rw [List.append_assoc, htaken]
      exact hs.bytes
    · rcases hs.last with hnil | ⟨front, chunk, frame, hwritten, hsuffix⟩
      · exact .inl (List.append_eq_nil_iff.mp (htaken.trans hnil)).2
      · refine .inr ⟨front, chunk, frame, hwritten, ?_⟩
        exact (List.suffix_append taken rest).trans (htaken ▸ hsuffix)
  · refine ⟨?_, .inr ⟨s.written, _, frame, rfl, List.suffix_refl frame⟩⟩
    rw [encoded_concat, ← hs.bytes]
  · exact ⟨hs.bytes, hs.last⟩

theorem encoded_isPrefix {front written : List (Bytes × Bytes)} (h : front <+: written) :
    encoded front <+: encoded written := by
  obtain ⟨rest, rfl⟩ := h
  rw [encoded, encoded, List.map_append, List.flatten_append]
  exact List.prefix_append _ _

/-- All that is due was handed over, exactly if nothing is left. -/
theorem Inv.due_isPrefix_iff (hs : s.Inv) :
    s.due <+: s.accepted ↔ s.pending = [] ∨ s.written.getLast?.map Prod.fst = some [] := by
  rcases hs.last with hnil | ⟨front, chunk, frame, hwritten, ⟨sent, hsent⟩⟩
  · have hdue : s.due <+: encoded s.written := encoded_isPrefix (List.rdropWhile_prefix _ _)
    rw [← hs.bytes, hnil, List.append_nil] at hdue
    exact iff_of_true hdue (.inl hnil)
  · have hbytes := hs.bytes
    rw [hwritten, encoded_concat] at hbytes
    rw [hwritten, List.getLast?_concat, Option.map_some, due, hwritten]
    by_cases hchunk : chunk = []
    · -- the last chunk has no bytes, and all frames in front of its frame were handed over
      have haccepted : s.accepted = encoded front ++ sent := by
        rw [← hsent, ← List.append_assoc] at hbytes
        exact List.append_cancel_right hbytes
      refine iff_of_true ?_ (.inr (congrArg some hchunk))
      rw [List.rdropWhile_concat, if_pos (decide_eq_true hchunk), haccepted]
      exact (encoded_isPrefix (List.rdropWhile_prefix _ _)).trans (List.prefix_append _ _)
    · rw [List.rdropWhile_concat, if_neg (by simpa using hchunk), encoded_concat, ← hbytes]
      constructor
      · intro h
        have hlen := h.length_le
        rw [List.length_append] at hlen
        exact .inl (List.length_eq_zero_iff.mp (by omega))
      · rintro (hnil | hlast)
        · rw [hnil, List.append_nil]
        · exact absurd (Option.some.inj hlast) hchunk

/-- **Shutdowns.** In every run from a new stream: after every completed `poll_shutdown` the inner
    stream has received the encoding of every byte that was reported as written, exactly if none was
    made while some of that was pending. -/
theorem shutdown_complete_iff {encoder : VmessEncoder} {calls : List Call}
    (hrun : run (step C) (new encoder) calls = some s) :
    Guarded (step C) NothingLeft (new encoder) calls ↔
      ∀ before after t, calls = before ++ after → run (step C) (new encoder) before = some t →
        t.Received := by
  refine guarded_iff_always (fun _ _ _ h hs => Inv.step hs h) ?_ hrun (inv_new encoder)
    List.nil_prefix
  intro s call s' h hs hgood
  rcases step_cases h with ⟨hcall, encoder, taken, rest, -, rfl⟩ |
    ⟨data, answers, encoder, frame, rfl, -, rfl⟩ | ⟨rfl, rfl⟩
  · exact iff_of_true (fun h => absurd h hcall) (hgood.trans (List.prefix_append _ _))
  · exact iff_of_true nofun (hgood.trans (List.prefix_append _ _))
  · -- what is promised now is what is due
    refine Iff.trans ?_ hs.due_isPrefix_iff.symm
    exact ⟨fun h => h rfl, fun h _ => h⟩

/-- An encoder without length mask or cipher, which lets bytes go as they are. -/
def rawEncoder : VmessEncoder := ⟨none, zeroKey, 0, none, securityNone, 0⟩

/-- A write, a flush that takes two rounds, and a shutdown. -/
def flushedCalls : List Call :=
  [.write [1, 2, 3] [], .flush [.ready 2, .ready 1] (.ready ()), .shutdown (.ready ())]

theorem shutdown_complete_iff_flushed : ∃ s,
    run (step plainData) (new rawEncoder) flushedCalls = some s ∧ s.accepted = [1, 2, 3] ∧
      ∀ before after t, flushedCalls = before ++ after →
        run (step plainData) (new rawEncoder) before = some t → t.Received :=
  ⟨_, rfl, rfl, (shutdown_complete_iff rfl).mp (by decide)⟩

/-- A write and a shutdown: the inner stream is shut down, and has received nothing. -/
theorem not_received_unflushed : ∃ s,
    VmessEncoder.new plainData securityNone 0 zeroKey zeroKey = some rawEncoder ∧
      run (step plainData) (new rawEncoder) [.write [1, 2, 3] [], .shutdown (.ready ())] = some s ∧
      s.promised = [1, 2, 3] ∧ s.accepted = [] ∧ ¬ s.Received :=
  ⟨_, rfl, rfl, rfl, rfl, by decide⟩

end VmessWriteHalf

end Reflex.Vmess
