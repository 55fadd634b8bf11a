import Mathlib.Algebra.BigOperators.Group.List.Basic
import Mathlib.Data.List.Infix
import Mathlib.Data.Nat.Basic
import Reflex.Lib.Transition
import Reflex.RustStd.Str

namespace Reflex.Xhttp

open RustStd Transition

/-!
# XHTTP — the uploader of packet-up

`connect_packet_up` and the writer of `XhttpStream` of `outbound/xhttp.rs`: `poll_write` sends chunks through
a channel, and a task cuts what it receives into bodies of `max_post_bytes` and posts them one after another.

* `step` — the writer, the task and the answers to its posts, in any interleaving;
* `Inv.step` — what was posted and what is in the buffer is what was received;
* `upToLimit_iff_good`, `PacketUp.uploads_iff` — each body has bytes and is small, and everything is posted
  before the task waits, exactly if the bytes received until then are a multiple of the limit, which is
  not zero.
-/

/-- Where the uploading task is in its two loops. -/
inductive Phase where
  /-- in `recv` -/
  | waiting
  /-- before the test of the inner loop -/
  | draining
  /-- in `post_packet`; the `last` one is behind the loop -/
  | posting (last : Bool)
  | done
  | failed
  deriving DecidableEq

/-- Is the task in its loop? -/
def Phase.inLoop : Phase → Bool
  | .waiting | .draining | .posting false => true
  | .posting true | .done | .failed => false

/-- The stream and its task, with the bytes that were accepted and received and the bodies that were
    posted. -/
structure PacketUp where
  /-- the channel -/
  rx : List Bytes
  /-- does the writer have the sender of the channel? -/
  isOpen : Bool
  buf : Bytes
  phase : Phase
  accepted : Bytes
  received : Bytes
  posted : List Bytes
  deriving DecidableEq

namespace PacketUp

/-- `connect_packet_up`. -/
def start : PacketUp := ⟨[], true, [], .waiting, [], [], []⟩

/-- How many chunks the channel holds. -/
def channelSize : Nat := 128

/-- What a write is answered. -/
inductive WritePoll where
  | pending
  | ready (n : Nat)
  /-- `BrokenPipe` -/
  | closed
  deriving DecidableEq

/-- `poll_write`, when `reserved` slots of the channel are with tasks that an earlier one has spawned. -/
def pollWrite (s : PacketUp) (data : Bytes) (reserved : Nat) : WritePoll × PacketUp :=
  if s.isOpen = false ∨ s.phase = .done ∨ s.phase = .failed then (.closed, s)
  else if s.rx.length + reserved < channelSize then
    (.ready data.length, { s with rx := s.rx ++ [data], accepted := s.accepted ++ data })
  else (.pending, s)

/-- `poll_shutdown`: the sender is replaced by one of a dead channel. -/
def pollShutdown (s : PacketUp) : PacketUp := { s with isOpen := false }

/-- `recv` of the task returns. -/
def recv (s : PacketUp) : Option PacketUp :=
  if s.phase = .waiting then
    match s.rx with
    | chunk :: rx =>
        some { s with rx, buf := s.buf ++ chunk, received := s.received ++ chunk, phase := .draining }
    | [] =>
        if s.isOpen then none
        else if s.buf = [] then some { s with phase := .done }
        else some { s with buf := [], posted := s.posted ++ [s.buf], phase := .posting true }
  else none

variable (maxPostBytes : Nat)

/-- The test of the inner loop, and the start of a post. -/
def drain (s : PacketUp) : Option PacketUp :=
  if s.phase = .draining then
    if maxPostBytes ≤ s.buf.length then
      some { s with buf := s.buf.drop maxPostBytes, posted := s.posted ++ [s.buf.take maxPostBytes],
                    phase := .posting false }
    else some { s with phase := .waiting }
  else none

/-- `post_packet` returns. -/
def answer (ok : Bool) (s : PacketUp) : Option PacketUp :=
  match s.phase with
  | .posting last => some { s with phase := if ok then if last then .done else .draining else .failed }
  | _ => none

inductive Event where
  | write (data : Bytes) (reserved : Nat)
  | shutdown
  | recv
  | drain
  | answer (ok : Bool)

/-- One step: the caller writes or shuts down, or the task goes on, with the answer to a post where it makes one. -/
def step (s : PacketUp) : Event → Option PacketUp
  | .write data reserved => some (s.pollWrite data reserved).2
  | .shutdown => some s.pollShutdown
  | .recv => s.recv
  | .drain => s.drain maxPostBytes
  | .answer ok => s.answer ok

/-! ### The bytes -/

/-- What was posted is what was received, short of the buffer; bodies are full but the last. -/
structure Inv (s : PacketUp) : Prop where
  received_eq : s.posted.flatten ++ s.buf = s.received
  accepted_eq : s.received ++ s.rx.flatten = s.accepted
  full : s.phase.inLoop → ∀ body ∈ s.posted, body.length = maxPostBytes
  waiting : s.phase = .waiting → s.buf.length < maxPostBytes ∨ s.buf = []
  last : s.phase = .posting true ∨ s.phase = .done → s.buf = []

variable {maxPostBytes : Nat} {s s' : PacketUp}

theorem inv_start : Inv maxPostBytes start :=
  ⟨rfl, rfl, fun _ => nofun, fun _ => .inr rfl, fun h => by rcases h with h | h <;> cases h⟩

/-- **A write** is accepted as a whole or not at all. -/
theorem pollWrite_cases (s : PacketUp) (data : Bytes) (reserved : Nat) :
    s.pollWrite data reserved = (.ready data.length,
        { s with rx := s.rx ++ [data], accepted := s.accepted ++ data }) ∨
      (∀ n, (s.pollWrite data reserved).1 ≠ .ready n) ∧ (s.pollWrite data reserved).2 = s := by
  rw [pollWrite]
  split
  · exact .inr ⟨nofun, rfl⟩
  split
  · exact .inl rfl
  · exact .inr ⟨nofun, rfl⟩

theorem Inv.write (hs : Inv maxPostBytes s) (data : Bytes) (reserved : Nat) :
    Inv maxPostBytes (s.pollWrite data reserved).2 := by
  rcases pollWrite_cases s data reserved with hready | ⟨-, hsame⟩
  · rw [hready]
    refine ⟨hs.received_eq, ?_, hs.full, hs.waiting, hs.last⟩
    rw [List.flatten_concat, ← List.append_assoc, hs.accepted_eq]
  · rw [hsame]
    exact hs

/-- **What `recv` brings**: a chunk, the end, or the end with bytes that are left. -/
theorem recv_cases (h : s.recv = some s') :
    s.phase = .waiting ∧
      ((∃ chunk rx, s.rx = chunk :: rx ∧
          s' = { s with rx, buf := s.buf ++ chunk, received := s.received ++ chunk, phase := .draining }) ∨
        (s.buf = [] ∧ s' = { s with phase := .done }) ∨
        (s.buf ≠ [] ∧ s' = { s with buf := [], posted := s.posted ++ [s.buf], phase := .posting true })) := by
  rw [recv] at h
  obtain ⟨hphase, h⟩ := Option.ite_none_right_eq_some.mp h
  refine ⟨hphase, ?_⟩
  split at h
  · rename_i chunk rx hrx
    exact .inl ⟨chunk, rx, hrx, (Option.some.inj h).symm⟩
  · obtain ⟨-, h⟩ := Option.ite_none_left_eq_some.mp h
    split at h
    · exact .inr (.inl ⟨‹_›, (Option.some.inj h).symm⟩)
    · exact .inr (.inr ⟨‹_›, (Option.some.inj h).symm⟩)

/-- **The inner loop** posts a full body or goes back to `recv`. -/
theorem drain_cases (h : s.drain maxPostBytes = some s') :
    s.phase = .draining ∧
      ((maxPostBytes ≤ s.buf.length ∧
          s' = { s with buf := s.buf.drop maxPostBytes, posted := s.posted ++ [s.buf.take maxPostBytes],
                        phase := .posting false }) ∨
        (s.buf.length < maxPostBytes ∧ s' = { s with phase := .waiting })) := by
  rw [drain] at h
  obtain ⟨hphase, h⟩ := Option.ite_none_right_eq_some.mp h
  refine ⟨hphase, ?_⟩
  split at h
  · exact .inl ⟨‹_›, (Option.some.inj h).symm⟩
  · exact .inr ⟨not_le.mp ‹_›, (Option.some.inj h).symm⟩

/-- **The answer** to a post: the loop goes on, or the task ends. -/
theorem answer_cases {ok : Bool} (h : s.answer ok = some s') :
    ∃ last, s.phase = .posting last ∧
      s' = { s with phase := if ok then if last then .done else .draining else .failed } := by
  rw [answer] at h
  split at h
  · exact ⟨_, ‹_›, (Option.some.inj h).symm⟩
  · cases h

theorem Inv.recv (hs : Inv maxPostBytes s) (h : s.recv = some s') : Inv maxPostBytes s' := by
  obtain ⟨hphase, ⟨chunk, rx, hrx, rfl⟩ | ⟨hbuf, rfl⟩ | ⟨hbuf, rfl⟩⟩ := recv_cases h
  · have haccepted := hs.accepted_eq
    rw [hrx, List.flatten_cons, ← List.append_assoc] at haccepted
    refine ⟨?_, haccepted, fun _ => hs.full (by rw [hphase]; rfl), nofun,
      fun h => by rcases h with h | h <;> cases h⟩
    rw [← List.append_assoc, hs.received_eq]
  · exact ⟨hs.received_eq, hs.accepted_eq, nofun, nofun, fun _ => hbuf⟩
  · refine ⟨?_, hs.accepted_eq, nofun, nofun, fun _ => rfl⟩
    rw [List.flatten_concat, List.append_nil, hs.received_eq]

theorem Inv.drain (hs : Inv maxPostBytes s) (h : s.drain maxPostBytes = some s') : Inv maxPostBytes s' := by
  obtain ⟨hphase, ⟨hlen, rfl⟩ | ⟨hlen, rfl⟩⟩ := drain_cases h
  · refine ⟨?_, hs.accepted_eq, fun _ body hmem => ?_, nofun,
      fun h => by rcases h with h | h <;> cases h⟩
    · rw [List.flatten_concat, List.append_assoc, List.take_append_drop, hs.received_eq]
    · rcases List.mem_append.mp hmem with hmem | hmem
      · exact hs.full (by rw [hphase]; rfl) body hmem
      · rw [List.mem_singleton.mp hmem, List.length_take_of_le hlen]
  · exact ⟨hs.received_eq, hs.accepted_eq, fun _ => hs.full (by rw [hphase]; rfl), fun _ => .inl hlen,
      fun h => by rcases h with h | h <;> cases h⟩

theorem Inv.answer (hs : Inv maxPostBytes s) {ok : Bool} (h : s.answer ok = some s') :
    Inv maxPostBytes s' := by
  obtain ⟨last, hphase, rfl⟩ := answer_cases h
  cases ok with
  | false =>
    exact ⟨hs.received_eq, hs.accepted_eq, nofun, nofun, fun h => by rcases h with h | h <;> cases h⟩
  | true =>
    cases last with
    | false =>
      have hfull := hs.full (by rw [hphase]; rfl)
      exact ⟨hs.received_eq, hs.accepted_eq, fun _ => hfull, nofun,
        fun h => by rcases h with h | h <;> cases h⟩
    | true => exact ⟨hs.received_eq, hs.accepted_eq, nofun, nofun, fun _ => hs.last (.inl hphase)⟩

/-- **One step** keeps the bytes together: posted, buffered and in the channel, they are those accepted. -/
theorem Inv.step (hs : Inv maxPostBytes s) {e : Event} (h : s.step maxPostBytes e = some s') :
    Inv maxPostBytes s' := by
  cases e with
  | write data reserved =>
    obtain rfl := Option.some.inj h
    exact hs.write data reserved
  | shutdown =>
    obtain rfl := Option.some.inj h
    exact ⟨hs.received_eq, hs.accepted_eq, hs.full, hs.waiting, hs.last⟩
  | recv => exact hs.recv h
  | drain => exact hs.drain h
  | answer ok => exact hs.answer h

/-! ### What is posted -/

variable (maxPostBytes s) in
/-- Every body has bytes and no more than the limit, the bodies are the front of what was accepted, and
    when the task waits and when it has ended they are all that was received. -/
structure Good : Prop where
  bodies : ∀ body ∈ s.posted, body ≠ [] ∧ body.length ≤ maxPostBytes
  accepted : s.posted.flatten <+: s.accepted
  posted : s.phase = .waiting ∨ s.phase = .done → s.posted.flatten = s.received

variable (maxPostBytes s) in
/-- The condition on a step: the limit is not zero when the inner loop is entered, and when it is left, the
    bytes received so far are a multiple of the limit. -/
def UpToLimit : Event → Prop
  | .drain => 0 < maxPostBytes ∧ (s.buf.length < maxPostBytes → maxPostBytes ∣ s.received.length)
  | _ => True

/-- The bodies are the front of what was accepted. -/
theorem Inv.isPrefix (hs : Inv maxPostBytes s) : s.posted.flatten <+: s.accepted := by
  rw [← hs.accepted_eq, ← hs.received_eq, List.append_assoc]
  exact List.prefix_append ..

/-- Everything is posted exactly if the buffer is empty. -/
theorem Inv.posted_iff (hs : Inv maxPostBytes s) : s.posted.flatten = s.received ↔ s.buf = [] := by
  rw [← hs.received_eq]
  exact List.self_eq_append_right

/-- When the loop is left, the buffer has what is over. -/
theorem Inv.dvd_iff (hs : Inv maxPostBytes s) (hphase : s.phase = .draining)
    (hlen : s.buf.length < maxPostBytes) : maxPostBytes ∣ s.received.length ↔ s.buf = [] := by
  have hposted : s.posted.flatten.length = s.posted.length * maxPostBytes := by
    rw [List.length_flatten, List.map_congr_left (hs.full (by rw [hphase]; rfl)), List.map_const',
      List.sum_replicate_nat]
  rw [← hs.received_eq, List.length_append, hposted, ← Nat.dvd_add_iff_right (Nat.dvd_mul_left ..)]
  constructor
  · intro hdvd
    exact List.length_eq_zero_iff.mp (Nat.eq_zero_of_dvd_of_lt hdvd hlen)
  · intro hbuf
    rw [hbuf]
    exact Nat.dvd_zero _

/-- **The condition** is what keeps the state good. -/
theorem upToLimit_iff_good {e : Event} (h : s.step maxPostBytes e = some s') (hs : Inv maxPostBytes s)
    (hgood : Good maxPostBytes s) : UpToLimit maxPostBytes s e ↔ Good maxPostBytes s' := by
  have hs' := hs.step h
  cases e with
  | write data reserved =>
    obtain rfl := Option.some.inj h
    refine iff_of_true trivial ?_
    rcases pollWrite_cases s data reserved with hready | ⟨-, hsame⟩
    · refine ⟨?_, hs'.isPrefix, ?_⟩
      · rw [hready]
        exact hgood.bodies
      · rw [hready]
        exact hgood.posted
    · rw [hsame]
      exact hgood
  | shutdown =>
    obtain rfl := Option.some.inj h
    exact iff_of_true trivial ⟨hgood.bodies, hs'.isPrefix, hgood.posted⟩
  | recv =>
    refine iff_of_true trivial ?_
    -- a chunk comes in, or the channel is closed; a rest that is left then is shorter than the limit
    obtain ⟨hphase, ⟨chunk, rx, hrx, rfl⟩ | ⟨hbuf, rfl⟩ | ⟨hbuf, rfl⟩⟩ := recv_cases h
    · exact ⟨hgood.bodies, hs'.isPrefix, fun h => by rcases h with h | h <;> cases h⟩
    · exact ⟨hgood.bodies, hs'.isPrefix, fun _ => hgood.posted (.inl hphase)⟩
    · have hbody := And.intro hbuf ((hs.waiting hphase).resolve_right hbuf).le
      exact ⟨List.forall_mem_append.mpr ⟨hgood.bodies, List.forall_mem_singleton.mpr hbody⟩, hs'.isPrefix,
        fun h => by rcases h with h | h <;> cases h⟩
  | drain =>
    -- the loop posts a full body, or leaves a rest for which it waits
    obtain ⟨hphase, ⟨hlen, rfl⟩ | ⟨hlen, rfl⟩⟩ := drain_cases h
    · constructor
      · rintro ⟨hpos, -⟩
        have hlength := List.length_take_of_le hlen
        have hbody : s.buf.take maxPostBytes ≠ [] ∧ (s.buf.take maxPostBytes).length ≤ maxPostBytes :=
          ⟨List.ne_nil_of_length_pos (by omega), hlength.le⟩
        exact ⟨List.forall_mem_append.mpr ⟨hgood.bodies, List.forall_mem_singleton.mpr hbody⟩, hs'.isPrefix,
          fun h => by rcases h with h | h <;> cases h⟩
      · intro hgood'
        have hbody := (hgood'.bodies _ (List.mem_append_right _ (List.mem_singleton_self _))).1
        -- with a limit of zero the body would be empty
        refine ⟨Nat.pos_of_ne_zero fun hzero => hbody ?_, fun hlt => absurd hlt (not_lt.mpr hlen)⟩
        rw [hzero, List.take_zero]
    · constructor
      · rintro ⟨-, hdvd⟩
        -- less than a full body is left, which is nothing exactly if the limit divides the length
        have hbuf : s.buf = [] := (hs.dvd_iff hphase hlen).mp (hdvd hlen)
        exact ⟨hgood.bodies, hs'.isPrefix, fun _ => hs.posted_iff.mpr hbuf⟩
      · intro hgood'
        refine ⟨Nat.zero_lt_of_lt hlen, fun _ => ?_⟩
        exact (hs.dvd_iff hphase hlen).mpr (hs.posted_iff.mp (hgood'.posted (.inl rfl)))
  | answer ok =>
    refine iff_of_true trivial ?_
    obtain ⟨last, -, rfl⟩ := answer_cases h
    refine ⟨hgood.bodies, hs'.isPrefix, fun hend => hs'.posted_iff.mpr ?_⟩
    cases ok with
    | false => rcases hend with hend | hend <;> cases hend
    | true =>
      cases last with
      | false => rcases hend with hend | hend <;> cases hend
      | true => exact hs'.last (.inr rfl)

/-- **The uploader.** In every run: the bodies have bytes and are within the limit, they are the front of
    what was accepted, and all that was received is posted whenever the task waits or has ended, exactly if
    the limit is not zero when a chunk is taken and the bytes received are a multiple of it whenever the
    task goes back to `recv`. -/
theorem uploads_iff (maxPostBytes : Nat) {events : List Event} {s : PacketUp}
    (hrun : run (step maxPostBytes) start events = some s) :
    Guarded (step maxPostBytes) (UpToLimit maxPostBytes) start events ↔
      ∀ front rest t, events = front ++ rest → run (step maxPostBytes) start front = some t →
        Good maxPostBytes t := by
  have hstart : Good maxPostBytes start :=
    ⟨fun _ hmem => absurd hmem List.not_mem_nil, List.prefix_rfl, fun _ => rfl⟩
  have hinv : ∀ s e s', step maxPostBytes s e = some s' → Inv maxPostBytes s → Inv maxPostBytes s' :=
    fun _ _ _ h hs => hs.step h
  have hgood : ∀ s e s', step maxPostBytes s e = some s' → Inv maxPostBytes s → Good maxPostBytes s →
      (UpToLimit maxPostBytes s e ↔ Good maxPostBytes s') :=
    fun _ _ _ h hs hgood => upToLimit_iff_good h hs hgood
  exact guarded_iff_always hinv hgood hrun inv_start hstart

/-- With a limit of two bytes, two writes of two and four bytes become three bodies. -/
theorem uploads_two :
    Guarded (step 2) (UpToLimit 2) start
        [.write [1, 2] 0, .recv, .drain, .write [3, 4, 5, 6] 0, .answer true, .drain] ↔
      ∀ front rest t, [Event.write [1, 2] 0, .recv, .drain, .write [3, 4, 5, 6] 0, .answer true, .drain] =
          front ++ rest → run (step 2) start front = some t → Good 2 t :=
  uploads_iff 2 (s := ⟨[[3, 4, 5, 6]], true, [], .waiting, [1, 2, 3, 4, 5, 6], [1, 2], [[1, 2]]⟩) rfl

/-- **Bytes that wait for more.** With the default limit, one byte that was received stays in the buffer while
    the task waits for the next chunk; with the limit zero, the task posts a body without bytes. -/
theorem not_uploads :
    (∃ t, run (step 1000000) start [.write [22] 0, .recv, .drain] = some t ∧ ¬ Good 1000000 t) ∧
      ∃ t, run (step 0) start [.write [22] 0, .recv, .drain] = some t ∧ ¬ Good 0 t := by
  constructor
  · refine ⟨⟨[], true, [22], .waiting, [22], [22], []⟩, by decide, fun h => ?_⟩
    exact absurd (h.posted (.inl rfl)) (by decide)
  · refine ⟨⟨[], true, [22], .posting false, [22], [22], [[]]⟩, by decide, fun h => ?_⟩
    exact (h.bodies [] (List.mem_singleton_self _)).1 rfl

end PacketUp

end Reflex.Xhttp
