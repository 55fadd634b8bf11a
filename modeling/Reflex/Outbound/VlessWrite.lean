import Reflex.Lib.Transition
import Reflex.Outbound.ClientHeader

namespace Reflex.Outbound

open RustStd Transition

/-!
# Outbound — writing a VLESS stream

`VlessTcpStream::poll_write` of `outbound/vless.rs`: the first write offers the request header and
the data to the inner stream in one piece, and takes the header out of `pending_header` for it.  Only
a `Pending` puts it back; what a short write leaves of the header is offered by nobody.

* `pollWrite_cases` — what one poll hands over and reports;
* `accepted_of_headerTaken` — while no write has stopped inside the header, the inner stream has been
  given the header and the data that was reported;
* `accepted_isPrefix_iff` — a run stays good, whatever is written next, exactly when that is so.
-/

/-! ### The stream -/

/-- What the inner stream makes of the bytes it is offered. -/
inductive WritePoll where
  | pending
  | ready (n : Nat)
  | error
  deriving DecidableEq, Repr

/-- How many of the offered bytes the inner stream has taken. -/
def WritePoll.taken : WritePoll → Nat
  | .ready n => n
  | _ => 0

/-- `VlessTcpStream`, as far as it is written to; `accepted` is what the inner stream has taken and
    `reported` the data that the calls have reported as written. -/
structure VlessTcpWriter where
  pendingHeader : Option Bytes
  accepted : Bytes := []
  reported : Bytes := []
  deriving DecidableEq, Repr

/-- Where the byte `lost` and what is behind it are missing, some further byte shows it. -/
theorem exists_not_isPrefix_concat (front : Bytes) (lost : UInt8) (rest reported : Bytes) :
    ∃ b, ¬ (front ++ reported) ++ [b] <+: (front ++ lost :: rest) ++ (reported ++ [b]) := by
  have hlt : reported.length < (lost :: rest ++ reported).length := by
    simp only [List.length_append, List.length_cons]
    omega
  -- a byte other than the one that is owed at this place
  obtain ⟨owed, howed⟩ : ∃ owed, (lost :: rest ++ reported)[reported.length]? = some owed :=
    ⟨_, List.getElem?_eq_getElem hlt⟩
  refine ⟨owed + 1, fun hpre => ?_⟩
  simp only [List.append_assoc] at hpre
  have hat := List.prefix_iff_getElem?.mp ((List.prefix_append_right_inj front).mp hpre)
    reported.length (by simp)
  rw [← List.append_assoc, List.getElem?_append_left hlt, howed,
    List.getElem_concat_length rfl] at hat
  exact absurd (Option.some.inj hat) (by simp)

namespace VlessTcpWriter

/-- `VlessTcpStream::new`. -/
def new (header : Bytes) : VlessTcpWriter := { pendingHeader := some header }

/-- The bytes that the next write offers to the inner stream. -/
def offered (s : VlessTcpWriter) (data : Bytes) : Bytes :=
  match s.pendingHeader with
  | some header => header ++ data
  | none => data

/-- `poll_write`, where the inner stream answers the write with `r`. -/
def pollWrite (s : VlessTcpWriter) (data : Bytes) (r : WritePoll) : WritePoll × VlessTcpWriter :=
  match s.pendingHeader with
  | some header =>
      let combined := header ++ data
      match r with
      | .ready n =>
          (.ready (if header.length ≤ n then n - header.length else 0),
            { s with pendingHeader := none, accepted := s.accepted ++ combined.take n })
      | .error => (.error, { s with pendingHeader := none })
      -- the header is put back
      | .pending => (.pending, s)
  | none => (r, { s with accepted := s.accepted ++ data.take r.taken })

/-- One call of `poll_write`.  The inner stream takes no more than it is offered. -/
def step (s : VlessTcpWriter) (call : Bytes × WritePoll) : Option VlessTcpWriter :=
  if call.2.taken ≤ (s.offered call.1).length then
    let (result, s) := s.pollWrite call.1 call.2
    some { s with reported := s.reported ++ call.1.take result.taken }
  else none

/-- The write does not stop inside the header: it is put off, or the header is taken whole. -/
def HeaderTaken (s : VlessTcpWriter) (call : Bytes × WritePoll) : Prop :=
  call.2 = .pending ∨ (s.pendingHeader.getD []).length ≤ call.2.taken

instance (s : VlessTcpWriter) (call : Bytes × WritePoll) : Decidable (s.HeaderTaken call) :=
  inferInstanceAs (Decidable (_ ∨ _))

/-! ### What the inner stream has been given -/

/-- Nothing was written yet, or the header and the reported data were. -/
def Complete (header : Bytes) (s : VlessTcpWriter) : Prop :=
  (s.pendingHeader = some header ∧ s.accepted = [] ∧ s.reported = []) ∨
    (s.pendingHeader = none ∧ s.accepted = header ++ s.reported)

/-- The end of the header, from the byte `b` on, was not written and will not be. -/
def Lost (header : Bytes) (s : VlessTcpWriter) : Prop :=
  s.pendingHeader = none ∧ ∃ front b rest, header = front ++ b :: rest ∧
    s.accepted = front ++ s.reported

variable {header : Bytes} {s s' : VlessTcpWriter} {call : Bytes × WritePoll}

theorem complete_new (header : Bytes) : Complete header (new header) := .inl ⟨rfl, rfl, rfl⟩

theorem step_eq_some (h : s.step call = some s') : call.2.taken ≤ (s.offered call.1).length ∧
    s' = { (s.pollWrite call.1 call.2).2 with
      reported := (s.pollWrite call.1 call.2).2.reported
        ++ call.1.take (s.pollWrite call.1 call.2).1.taken } := by
  rw [step] at h
  obtain ⟨hle, hs'⟩ := Option.ite_none_right_eq_some.mp h
  exact ⟨hle, (Option.some.inj hs').symm⟩

/-- Without a header to write, what is taken is what is reported. -/
theorem step_of_none (hnone : s.pendingHeader = none) (h : s.step call = some s') :
    s' = { s with
      accepted := s.accepted ++ call.1.take call.2.taken
      reported := s.reported ++ call.1.take call.2.taken } := by
  obtain ⟨-, rfl⟩ := step_eq_some h
  simp only [pollWrite, hnone]

/-- The first write: put off, stopped inside the header, or past it. -/
theorem step_of_header (hpending : s.pendingHeader = some header) (h : s.step call = some s') :
    (call.2 = .pending ∧ s' = s) ∨
      (call.2 ≠ .pending ∧ call.2.taken ≤ (header ++ call.1).length ∧
        s' = { pendingHeader := none
               accepted := s.accepted ++ (header ++ call.1).take call.2.taken
               reported := s.reported ++ call.1.take (call.2.taken - header.length) }) := by
  obtain ⟨hle, rfl⟩ := step_eq_some h
  obtain ⟨data, r⟩ := call
  rw [offered, hpending] at hle
  cases r with
  | pending =>
      refine .inl ⟨rfl, ?_⟩
      simp only [pollWrite, hpending, WritePoll.taken, List.take_zero, List.append_nil]
      rw [← hpending]
  | ready n =>
      refine .inr ⟨by simp, hle, ?_⟩
      have hreported : (if header.length ≤ n then n - header.length else 0) = n - header.length := by
        split <;> omega
      simp only [pollWrite, hpending, WritePoll.taken, hreported]
  | error =>
      refine .inr ⟨by simp, hle, ?_⟩
      simp only [pollWrite, hpending, WritePoll.taken, List.take_zero, List.append_nil, Nat.zero_sub]

/-- A write that does not stop inside the header leaves nothing behind. -/
theorem Complete.step (hs : s.Complete header) (h : s.step call = some s')
    (htaken : s.HeaderTaken call) : s'.Complete header := by
  rcases hs with ⟨hpending, hacc, hrep⟩ | ⟨hnone, hacc⟩
  · rcases step_of_header hpending h with ⟨-, rfl⟩ | ⟨hready, -, rfl⟩
    · exact .inl ⟨hpending, hacc, hrep⟩
    · have hlen : header.length ≤ call.2.taken := by
        simpa [HeaderTaken, hready, hpending] using htaken
      refine .inr ⟨rfl, ?_⟩
      rw [hacc, hrep, List.nil_append, List.nil_append, List.take_append,
        List.take_of_length_le hlen]
  · rw [step_of_none hnone h]
    exact .inr ⟨hnone, by rw [hacc, List.append_assoc]⟩

/-- A write that stops inside the header loses the rest of it. -/
theorem Complete.lost (hs : s.Complete header) (h : s.step call = some s')
    (htaken : ¬ s.HeaderTaken call) : s'.Lost header := by
  obtain ⟨hready, hlen⟩ := not_or.mp htaken
  rcases hs with ⟨hpending, hacc, hrep⟩ | ⟨hnone, -⟩
  · rw [hpending, Option.getD_some, not_le] at hlen
    rcases step_of_header hpending h with ⟨hput, -⟩ | ⟨-, -, rfl⟩
    · exact absurd hput hready
    · refine ⟨rfl, header.take call.2.taken, header[call.2.taken], header.drop (call.2.taken + 1),
        ?_, ?_⟩
      · rw [List.getElem_cons_drop, List.take_append_drop]
      · rw [hacc, hrep, List.take_append_of_le_length hlen.le, Nat.sub_eq_zero_of_le hlen.le,
          List.take_zero, List.nil_append, List.append_nil, List.append_nil]
  · rw [hnone] at hlen
    exact absurd (Nat.zero_le _) hlen

/-- What is lost stays lost: no later call writes the rest of the header. -/
theorem Lost.step (hs : s.Lost header) (h : s.step call = some s') : s'.Lost header := by
  obtain ⟨hnone, front, b, rest, hheader, hacc⟩ := hs
  rw [step_of_none hnone h]
  exact ⟨hnone, front, b, rest, hheader, by rw [hacc, List.append_assoc]⟩

/-- **Runs.** While no write has stopped inside the header nothing is lost; after the first that has,
    something is. -/
theorem complete_or_lost {calls : List (Bytes × WritePoll)} (hs : s.Complete header)
    (hrun : run VlessTcpWriter.step s calls = some s') :
    (Guarded VlessTcpWriter.step HeaderTaken s calls ∧ s'.Complete header) ∨
      (¬ Guarded VlessTcpWriter.step HeaderTaken s calls ∧ s'.Lost header) := by
  induction calls generalizing s with
  | nil =>
      obtain rfl := Option.some.inj hrun
      exact .inl ⟨trivial, hs⟩
  | cons call calls ih =>
      obtain ⟨t, ht, hrest⟩ := Option.bind_eq_some_iff.mp hrun
      by_cases htaken : s.HeaderTaken call
      · rcases ih (hs.step ht htaken) hrest with ⟨hguard, hs'⟩ | ⟨hguard, hs'⟩
        · refine .inl ⟨⟨htaken, fun u hu => ?_⟩, hs'⟩
          obtain rfl := Option.some.inj (ht.symm.trans hu)
          exact hguard
        · exact .inr ⟨fun h => hguard (h.2 t ht), hs'⟩
      · have hlost := hs.lost ht htaken
        exact .inr ⟨fun h => htaken h.1,
          invariant_of_steps (fun _ _ _ h hs => Lost.step hs h) hrest hlost⟩

theorem Complete.isPrefix (hs : s.Complete header) : s.accepted <+: header ++ s.reported := by
  rcases hs with ⟨-, hacc, -⟩ | ⟨-, hacc⟩
  · rw [hacc]
    exact List.nil_prefix
  · rw [hacc]

/-- After a loss one more byte is enough: it stands where the lost byte belongs. -/
theorem Lost.exists_not_isPrefix (hs : s.Lost header) :
    ∃ b u, s.step ([b], .ready 1) = some u ∧ ¬ u.accepted <+: header ++ u.reported := by
  obtain ⟨hnone, front, lost, rest, rfl, hacc⟩ := hs
  obtain ⟨b, hb⟩ := exists_not_isPrefix_concat front lost rest s.reported
  have hstep : s.step ([b], .ready 1) = some
      { s with accepted := s.accepted ++ [b], reported := s.reported ++ [b] } := by
    simp only [VlessTcpWriter.step, offered, pollWrite, hnone, WritePoll.taken]
    exact if_pos (Nat.le_refl 1)
  refine ⟨b, _, hstep, ?_⟩
  rwa [hacc]

/-- **Writing.** Whatever the inner stream does with the writes: as long as no write has stopped
    inside the header, what it has accepted is a prefix of the header and the data reported as
    written, and after the first that has, a single further byte makes that false. -/
theorem accepted_isPrefix_iff {calls : List (Bytes × WritePoll)}
    (hrun : run VlessTcpWriter.step (new header) calls = some s) :
    (Guarded VlessTcpWriter.step HeaderTaken (new header) calls →
        s.accepted <+: header ++ s.reported) ∧
      (¬ Guarded VlessTcpWriter.step HeaderTaken (new header) calls →
        ∃ b u, s.step ([b], .ready 1) = some u ∧ ¬ u.accepted <+: header ++ u.reported) := by
  rcases complete_or_lost (complete_new header) hrun with ⟨hguard, hs⟩ | ⟨hguard, hs⟩
  · exact ⟨fun _ => hs.isPrefix, fun h => absurd hguard h⟩
  · exact ⟨fun h => absurd h hguard, fun _ => hs.exists_not_isPrefix⟩

/-- The request for 1.2.3.4:443. -/
def someRequest : Bytes :=
  vlessRequest (Vector.replicate 16 0xAA) 0x01 (.socket ⟨.v4 0x01020304#32, 443⟩)

theorem accepted_isPrefix_iff_whole :
    ∃ s, run VlessTcpWriter.step (new someRequest)
        [([7, 8], .pending), ([7, 8], .ready 27), ([8], .ready 1)] = some s ∧
      s.accepted = someRequest ++ [7, 8] ∧ s.accepted <+: someRequest ++ s.reported := by
  have hrun : run VlessTcpWriter.step (new someRequest)
      [([7, 8], .pending), ([7, 8], .ready 27), ([8], .ready 1)]
        = some ⟨none, someRequest ++ [7, 8], [7, 8]⟩ := by decide
  exact ⟨_, hrun, rfl, (accepted_isPrefix_iff hrun).1 (by decide)⟩

/-- A write that stops behind ten bytes of the request: the rest of it is never sent. -/
theorem accepted_short :
    ∃ s, run VlessTcpWriter.step (new someRequest) [([7], .ready 10), ([7], .ready 1)] = some s ∧
      s.accepted = someRequest.take 10 ++ [7] ∧ s.reported = [7] ∧
      ¬ s.accepted <+: someRequest ++ s.reported :=
  ⟨⟨none, someRequest.take 10 ++ [7], [7]⟩, by decide, rfl, rfl, by decide⟩

end VlessTcpWriter

end Reflex.Outbound
