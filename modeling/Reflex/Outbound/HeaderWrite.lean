import Reflex.Outbound.VlessWrite

namespace Reflex.Outbound

open RustStd Transition

/-!
# Outbounds — a header in front of the first write

`TrojanTcpStream` of `outbound/trojan.rs` and `PrependedTcpStream` of `outbound/reality.rs`.  The first
`poll_write` takes the prepared bytes out of the stream and offers them to the inner one, Trojan's with
the data behind them and REALITY's in place of the data; a `Pending` puts them back.  `poll_flush` and
`poll_shutdown` do not look at them.

* `Complete.step`, `Complete.fail` — what a step keeps, and what it breaks otherwise;
* `writes_kept_iff` — the inner stream is given the prepared bytes and the data, in every run in which the
  first write takes them whole and no shutdown comes before it.
-/

/-! ### The two streams -/

/-- What the first write does with its data: what it offers behind the prepared bytes, and what it
    reports when `n` of the offered bytes were taken. -/
structure FirstWrite where
  behind : Bytes → Bytes
  report : Bytes → Bytes → Nat → Nat
  behind_nil : behind [] = []
  /-- of the data that is offered it reports what was taken -/
  take_report : ∀ header data n,
    (behind data).take (report header data n) = (behind data).take (n - header.length)
  /-- it reports nothing where data was offered and not reached -/
  report_eq_zero_iff : ∀ header {data} n, data ≠ [] →
    (report header data n = 0 ↔ behind data ≠ [] ∧ n ≤ header.length)

/-- `TrojanTcpStream::poll_write`: the header and the data in one piece. -/
def TrojanTcpStream.firstWrite : FirstWrite where
  behind data := data
  report header _ n := if header.length ≤ n then n - header.length else 0
  behind_nil := rfl
  take_report header data n := by
    show data.take (if header.length ≤ n then n - header.length else 0) = _
    congr 1
    split <;> omega
  report_eq_zero_iff header data n hdata := by
    rw [and_iff_right hdata]
    split <;> omega

/-- `PrependedTcpStream::poll_write`: the hello in place of the data, all of which is reported. -/
def PrependedTcpStream.firstWrite : FirstWrite where
  behind _ := []
  report _ data _ := data.length
  behind_nil := rfl
  take_report _ _ _ := by simp
  report_eq_zero_iff _ _ _ hdata := by simp [hdata]

/-- What the inner stream makes of a flush or a shutdown. -/
inductive EndPoll where
  | pending
  | ready
  | error
  deriving DecidableEq, Repr

/-- One of the two streams, as far as it is written to; `accepted` is what the inner stream has taken,
    and `reported` the data that the calls have reported as written, without what the hello has
    replaced. -/
structure HeaderWriter where
  pendingHeader : Option Bytes
  accepted : Bytes := []
  reported : Bytes := []
  deriving DecidableEq, Repr

namespace HeaderWriter

/-- A call, with the answer of the inner stream. -/
inductive Call where
  | write (data : Bytes) (r : WritePoll)
  | flush (r : EndPoll)
  | shutdown (r : EndPoll)
  deriving DecidableEq, Repr

/-- `TrojanTcpStream::new`, `PrependedTcpStream::new`. -/
def new (header : Bytes) : HeaderWriter := { pendingHeader := some header }

variable (first : FirstWrite)

/-- The data of a write that is offered to the inner stream. -/
def payload (s : HeaderWriter) (data : Bytes) : Bytes :=
  match s.pendingHeader with
  | some _ => first.behind data
  | none => data

/-- `poll_write`, where the inner stream answers with `r`. -/
def pollWrite (s : HeaderWriter) (data : Bytes) (r : WritePoll) : WritePoll × HeaderWriter :=
  match s.pendingHeader with
  | some header =>
      let offered := header ++ first.behind data
      match r with
      | .ready n =>
          (.ready (first.report header data n),
            { s with pendingHeader := none, accepted := s.accepted ++ offered.take n })
      | .error => (.error, { s with pendingHeader := none })
      -- the header is put back
      | .pending => (.pending, s)
  | none => (r, { s with accepted := s.accepted ++ data.take r.taken })

/-- `poll_flush`. -/
def pollFlush (s : HeaderWriter) (r : EndPoll) : EndPoll × HeaderWriter := (r, s)

/-- `poll_shutdown`. -/
def pollShutdown (s : HeaderWriter) (r : EndPoll) : EndPoll × HeaderWriter := (r, s)

/-- One call.  The inner stream takes no more than it is offered. -/
def step (s : HeaderWriter) : Call → Option HeaderWriter
  | .write data r =>
      if r.taken ≤ (s.pendingHeader.getD [] ++ s.payload first data).length then
        let (result, t) := s.pollWrite first data r
        some { t with reported := t.reported ++ (s.payload first data).take result.taken }
      else none
  | .flush r => some (s.pollFlush r).2
  | .shutdown r => some (s.pollShutdown r).2

/-- What a call has to leave: the inner stream has been given a part of the header and the reported
    data, and all of it after a completed shutdown; and no write of data reports none of it unless the
    inner stream has taken nothing. -/
structure Meets (header : Bytes) (s : HeaderWriter) (call : Call) (s' : HeaderWriter) : Prop where
  isPrefix : s'.accepted <+: header ++ s'.reported
  zero : ∀ data r, call = .write data r → data ≠ [] → (s.pollWrite first data r).1 = .ready 0 →
    r = .ready 0
  shutdown : ∀ r, call = .shutdown r → (s.pollShutdown r).1 = .ready →
    s'.accepted = header ++ s'.reported

/-- The call leaves what it has to leave. -/
def Kept (header : Bytes) (s : HeaderWriter) (call : Call) : Prop :=
  ∀ s', s.step first call = some s' → Meets first header s call s'

/-- The first write is put off, or the header is taken whole and some of the data behind it, if any was
    offered; and no shutdown is completed while there is a header to write. -/
def HeaderTaken (s : HeaderWriter) : Call → Prop
  | .write data r => ∀ header ∈ s.pendingHeader, r = .pending ∨ (header.length ≤ r.taken ∧
      (first.behind data = [] ∨ header.length < r.taken ∨ r.taken = 0))
  | .flush _ => True
  | .shutdown r => r = .ready → s.pendingHeader.getD [] = []

instance (s : HeaderWriter) (call : Call) : Decidable (HeaderTaken first s call) :=
  match call with
  | .write _ _ => inferInstanceAs (Decidable (∀ header ∈ s.pendingHeader, _ ∨ (_ ∧ (_ ∨ _ ∨ _))))
  | .flush _ => .isTrue trivial
  | .shutdown _ => inferInstanceAs (Decidable (_ → _))

/-! ### One call -/

/-- Nothing was written yet, or the header and the reported data were. -/
def Complete (header : Bytes) (s : HeaderWriter) : Prop :=
  (s.pendingHeader = some header ∧ s.accepted = [] ∧ s.reported = []) ∨
    (s.pendingHeader = none ∧ s.accepted = header ++ s.reported)

/-- The end of the header, from the byte `b` on, was not written and will not be. -/
def Lost (header : Bytes) (s : HeaderWriter) : Prop :=
  s.pendingHeader = none ∧ ∃ front b rest, header = front ++ b :: rest ∧
    s.accepted = front ++ s.reported

variable {first} {header data : Bytes} {r : WritePoll} {s s' : HeaderWriter} {call : Call}

theorem complete_new (header : Bytes) : Complete header (new header) := .inl ⟨rfl, rfl, rfl⟩

/-- Without a header to write, what is taken is what is reported. -/
theorem write_of_none (hnone : s.pendingHeader = none) (h : s.step first (.write data r) = some s') :
    s' = { s with
      accepted := s.accepted ++ data.take r.taken
      reported := s.reported ++ data.take r.taken } := by
  obtain ⟨-, hs'⟩ := Option.ite_none_right_eq_some.mp h
  simpa [pollWrite, payload, hnone] using hs'.symm

/-- The first write: put off, or the header is gone and what was taken is the front of what was
    offered. -/
theorem write_of_header (hpending : s.pendingHeader = some header)
    (h : s.step first (.write data r) = some s') :
    (r = .pending ∧ s' = s) ∨
      (r ≠ .pending ∧ s' =
        { pendingHeader := none
          accepted := s.accepted ++ (header ++ first.behind data).take r.taken
          reported := s.reported ++ (first.behind data).take (r.taken - header.length) }) := by
  obtain ⟨-, hs'⟩ := Option.ite_none_right_eq_some.mp h
  obtain rfl := Option.some.inj hs'
  cases r with
  | pending =>
      refine .inl ⟨rfl, ?_⟩
      simp only [hpending, WritePoll.taken, List.take_zero, List.append_nil]
      rw [← hpending]
  | ready n =>
      refine .inr ⟨by simp, ?_⟩
      simp only [payload, hpending, WritePoll.taken, first.take_report]
  | error =>
      refine .inr ⟨by simp, ?_⟩
      simp [payload, hpending, WritePoll.taken]

theorem Complete.isPrefix (hs : s.Complete header) : s.accepted <+: header ++ s.reported := by
  rcases hs with ⟨-, hacc, -⟩ | ⟨-, hacc⟩
  · rw [hacc]
    exact List.nil_prefix
  · rw [hacc]

/-- A write that takes the header whole leaves nothing behind. -/
theorem Complete.step (hs : s.Complete header) (h : s.step first call = some s')
    (htaken : HeaderTaken first s call) : s'.Complete header := by
  cases call with
  | write data r =>
    rcases hs with ⟨hpending, hacc, hrep⟩ | ⟨hnone, hacc⟩
    · rcases write_of_header hpending h with ⟨-, rfl⟩ | ⟨hready, rfl⟩
      · exact .inl ⟨hpending, hacc, hrep⟩
      · obtain ⟨hlen, -⟩ := (htaken header hpending).resolve_left hready
        refine .inr ⟨rfl, ?_⟩
        show s.accepted ++ _ = header ++ (s.reported ++ _)
        rw [hacc, hrep, List.nil_append, List.nil_append, List.take_append,
          List.take_of_length_le hlen]
    · rw [write_of_none hnone h]
      refine .inr ⟨hnone, ?_⟩
      show s.accepted ++ _ = header ++ (s.reported ++ _)
      rw [hacc, List.append_assoc]
  | flush r =>
    obtain rfl := Option.some.inj h
    exact hs
  | shutdown r =>
    obtain rfl := Option.some.inj h
    exact hs

/-- What is lost stays lost: no later call writes the rest of the header. -/
theorem Lost.step (hs : s.Lost header) (h : s.step first call = some s') : s'.Lost header := by
  cases call with
  | write data r =>
    obtain ⟨hnone, front, b, rest, hheader, hacc⟩ := hs
    rw [write_of_none hnone h]
    refine ⟨hnone, front, b, rest, hheader, ?_⟩
    show s.accepted ++ _ = front ++ (s.reported ++ _)
    rw [hacc, List.append_assoc]
  | flush r =>
    obtain rfl := Option.some.inj h
    exact hs
  | shutdown r =>
    obtain rfl := Option.some.inj h
    exact hs

/-- The first write reports that it has written no data: only if the inner stream has stopped in front
    of it. -/
theorem pollWrite_eq_zero (hpending : s.pendingHeader = some header) (hdata : data ≠ []) :
    (s.pollWrite first data r).1 = .ready 0 ↔
      first.behind data ≠ [] ∧ ∃ n, r = .ready n ∧ n ≤ header.length := by
  cases r with
  | pending => simp [pollWrite, hpending]
  | error => simp [pollWrite, hpending]
  | ready n => simp [pollWrite, hpending, first.report_eq_zero_iff header n hdata]

/-- **A call that takes the header whole**, or comes behind it, leaves what it has to leave. -/
theorem Complete.kept (hs : s.Complete header) (htaken : HeaderTaken first s call) :
    Kept first header s call := by
  intro s' h
  refine ⟨(hs.step h htaken).isPrefix, ?_, ?_⟩
  · rintro data r rfl hdata hzero
    rcases hs with ⟨hpending, -, -⟩ | ⟨hnone, -⟩
    · obtain ⟨hbehind, n, rfl, hn⟩ := (pollWrite_eq_zero hpending hdata).mp hzero
      obtain ⟨hlen, hpast⟩ := (htaken header hpending).resolve_left (by simp)
      -- the inner stream has taken neither header nor data
      have hn0 : n = 0 := (hpast.resolve_left hbehind).resolve_left (by simpa [WritePoll.taken] using hn)
      rw [hn0]
    · simpa [pollWrite, hnone] using hzero
  · rintro r rfl hready
    obtain rfl := Option.some.inj h
    rcases hs with ⟨hpending, hacc, hrep⟩ | ⟨-, hacc⟩
    · have hnil := htaken hready
      rw [hpending, Option.getD_some] at hnil
      simp [pollShutdown, hacc, hrep, hnil]
    · exact hacc

/-- **A call that does not**: it does not leave what it has to leave, or the end of the header is
    lost. -/
theorem Complete.fail (hs : s.Complete header) (h : s.step first call = some s')
    (htaken : ¬ HeaderTaken first s call) : ¬ Kept first header s call ∨ s'.Lost header := by
  cases call with
  | write data r =>
    simp only [HeaderTaken, not_forall] at htaken
    obtain ⟨_, hpending, hfail⟩ := htaken
    rcases hs with ⟨hpending', hacc, hrep⟩ | ⟨hnone, -⟩
    · obtain rfl := Option.some.inj (hpending'.symm.trans hpending)
      obtain ⟨hready, hlen⟩ := not_or.mp hfail
      rcases Nat.lt_or_ge r.taken header.length with hlt | hge
      · -- a write that stops inside the header
        rcases write_of_header hpending' h with ⟨hput, -⟩ | ⟨-, rfl⟩
        · exact absurd hput hready
        · refine .inr ⟨rfl, header.take r.taken, header[r.taken], header.drop (r.taken + 1), ?_, ?_⟩
          · rw [List.getElem_cons_drop, List.take_append_drop]
          · simp [hacc, hrep, List.take_append_of_le_length hlt.le, Nat.sub_eq_zero_of_le hlt.le]
      · -- a write that stops at its end, in front of the data
        left
        intro hkept
        obtain ⟨hbehind, hpast⟩ := not_or.mp (fun h => hlen ⟨hge, h⟩)
        obtain ⟨hle, hpos⟩ := not_or.mp hpast
        have hdata : data ≠ [] := by
          rintro rfl
          exact hbehind first.behind_nil
        obtain ⟨n, rfl⟩ : ∃ n, r = .ready n := by
          cases r with
          | pending => exact absurd rfl hready
          | ready n => exact ⟨n, rfl⟩
          | error => exact absurd rfl hpos
        -- the call reports that nothing was written, though there was something to write
        have hzero := (pollWrite_eq_zero hpending' hdata).mpr ⟨hbehind, n, rfl, not_lt.mp hle⟩
        exact hpos (congrArg WritePoll.taken ((hkept s' h).zero data _ rfl hdata hzero))
    · rw [hnone] at hpending
      cases hpending
  | flush r => exact absurd trivial htaken
  | shutdown r =>
    simp only [HeaderTaken, Classical.not_imp] at htaken
    obtain ⟨rfl, hheader⟩ := htaken
    rcases hs with ⟨hpending, hacc, hrep⟩ | ⟨hnone, -⟩
    · rw [hpending, Option.getD_some] at hheader
      left
      intro hkept
      have hall := (hkept s' h).shutdown .ready rfl rfl
      obtain rfl := Option.some.inj h
      -- the shutdown goes through while a part of the header is still here
      simp [pollShutdown, hacc, hrep] at hall
      exact hheader hall
    · exact absurd (by rw [hnone]; rfl) hheader

/-- After a loss one more byte is enough: it stands where the lost byte belongs. -/
theorem Lost.exists_not_isPrefix (first : FirstWrite) (hs : s.Lost header) :
    ∃ b u, s.step first (.write [b] (.ready 1)) = some u ∧
      ¬ u.accepted <+: header ++ u.reported := by
  obtain ⟨hnone, front, lost, rest, rfl, hacc⟩ := hs
  obtain ⟨b, hb⟩ := exists_not_isPrefix_concat front lost rest s.reported
  have hstep : s.step first (.write [b] (.ready 1)) = some
      { s with accepted := s.accepted ++ [b], reported := s.reported ++ [b] } := by
    simp [HeaderWriter.step, pollWrite, payload, hnone, WritePoll.taken]
  refine ⟨b, _, hstep, ?_⟩
  rwa [hacc]

/-! ### Runs -/

/-- **Writing behind a header.** In every run of either stream, whatever the inner stream does: if the
    first write takes the header whole and some of the data that is offered behind it, and no shutdown
    is completed before, then every call leaves what it has to leave; and otherwise some call does not,
    or a single further byte does not. -/
theorem writes_kept_iff {calls : List Call} (hrun : run (step first) (new header) calls = some s) :
    (Guarded (step first) (HeaderTaken first) (new header) calls →
        Guarded (step first) (Kept first header) (new header) calls) ∧
      (¬ Guarded (step first) (HeaderTaken first) (new header) calls →
        ¬ Guarded (step first) (Kept first header) (new header) calls ∨
          ∃ b u, s.step first (.write [b] (.ready 1)) = some u ∧
            ¬ u.accepted <+: header ++ u.reported) := by
  have hstep : ∀ s call s', s.step first call = some s' → HeaderTaken first s call →
      s.Complete header → s'.Complete header := fun _ _ _ h htaken hs => hs.step h htaken
  refine ⟨fun hguard => ?_, fun hguard => ?_⟩
  · exact hguard.imp_of_inv hstep (fun _ _ hs htaken => hs.kept htaken) (complete_new header)
  · have hend := not_guarded_or_of_run hstep (fun _ _ _ h htaken hs => hs.fail h htaken)
      (fun _ _ _ h hs => Lost.step hs h) (complete_new header) hrun hguard
    exact hend.imp_right (Lost.exists_not_isPrefix first)

/-- A Trojan request for 1.2.3.4:443. -/
def someHeader : Bytes :=
  buildTcpHeader (fun _ => Vector.replicate 28 0) ['p'] (.socket ⟨.v4 0x01020304#32, 443⟩)

/-- A write that is put off and then taken with one byte behind the header; and a hello that is taken
    whole in place of the data. -/
theorem writes_kept_iff_whole :
    (∃ s, run (step TrojanTcpStream.firstWrite) (new someHeader)
          [.write [7, 8] .pending, .write [7, 8] (.ready 69), .write [8] (.ready 1),
            .shutdown .ready] = some s ∧ s.accepted = someHeader ++ [7, 8] ∧
        Guarded (step TrojanTcpStream.firstWrite) (Kept TrojanTcpStream.firstWrite someHeader)
          (new someHeader) [.write [7, 8] .pending, .write [7, 8] (.ready 69), .write [8] (.ready 1),
            .shutdown .ready]) ∧
      ∃ s, run (step PrependedTcpStream.firstWrite) (new [22, 3, 1])
            [.write [1, 2] (.ready 3), .write [8] (.ready 1)] = some s ∧
          s.accepted = [22, 3, 1, 8] ∧
          Guarded (step PrependedTcpStream.firstWrite) (Kept PrependedTcpStream.firstWrite [22, 3, 1])
            (new [22, 3, 1]) [.write [1, 2] (.ready 3), .write [8] (.ready 1)] := by
  have htrojan : run (step TrojanTcpStream.firstWrite) (new someHeader)
      [.write [7, 8] .pending, .write [7, 8] (.ready 69), .write [8] (.ready 1), .shutdown .ready]
        = some ⟨none, someHeader ++ [7, 8], [7, 8]⟩ := by decide
  have hreality : run (step PrependedTcpStream.firstWrite) (new [22, 3, 1])
      [.write [1, 2] (.ready 3), .write [8] (.ready 1)] = some ⟨none, [22, 3, 1, 8], [8]⟩ := by
    decide
  exact ⟨⟨_, htrojan, rfl, (writes_kept_iff htrojan).1 (by decide)⟩,
    _, hreality, rfl, (writes_kept_iff hreality).1 (by decide)⟩

/-- A Trojan stream that is shut down before a write sends no request; a first write that is taken up
    to the end of the request reports that nothing was written; one that is taken up to its tenth byte
    cuts it off, and so it is with a hello. -/
theorem not_kept :
    (∃ s, run (step TrojanTcpStream.firstWrite) (new someHeader) [.shutdown .ready] = some s ∧
        ¬ s.accepted = someHeader ++ s.reported) ∧
      ((new someHeader).pollWrite TrojanTcpStream.firstWrite [7] (.ready 68)).1 = .ready 0 ∧
      (∃ s, run (step TrojanTcpStream.firstWrite) (new someHeader)
          [.write [7] (.ready 10), .write [7] (.ready 1)] = some s ∧
        ¬ s.accepted <+: someHeader ++ s.reported) ∧
      ∃ s, run (step PrependedTcpStream.firstWrite) (new [22, 3, 1])
          [.write [1, 2] (.ready 2), .write [8] (.ready 1)] = some s ∧
        ¬ s.accepted <+: [22, 3, 1] ++ s.reported := by
  refine ⟨⟨⟨some someHeader, [], []⟩, ?_, ?_⟩, ?_, ⟨⟨none, someHeader.take 10 ++ [7], [7]⟩, ?_, ?_⟩,
    ⟨⟨none, [22, 3, 8], [8]⟩, ?_, ?_⟩⟩
  all_goals decide

end HeaderWriter

end Reflex.Outbound
