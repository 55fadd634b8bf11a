import Reflex.Lib.Transition
import Reflex.RustStd.Str

namespace Reflex.Outbound

open RustStd

/-!
# Outbounds — relaying between two streams

`relay` of `outbound/mod.rs` copies in both directions until both have ended, and shuts each writer
down behind the last byte.  `relay_with_interrupt` of `outbound/group.rs` races the two directions
and an interrupt, and returns as soon as one of the three is done.  A stream is its bytes; how they
are cut into reads and writes, and how the directions interleave, is up to the events.

* `relay_finished` — `relay` delivers both streams whole and counts them;
* `meets_iff` — when `relay_with_interrupt` does what `relay` does.
-/

/-! ### One direction -/

/-- One direction of a relay: the bytes still to be read, those read and not yet written, and those
    written. -/
structure Half where
  source : Bytes
  buffer : Bytes
  delivered : Bytes
  /-- the size of the last read -/
  chunk : Nat
  /-- the running count -/
  total : Nat
  /-- the loop has been left -/
  done : Bool
  /-- it was left because a read or a write failed -/
  failed : Bool

/-- What one direction does next: a read returns `n` bytes, a write takes `n` bytes, a read sees the
    end, or a read or a write fails. -/
inductive HalfEvent where
  | read (n : Nat)
  | write (n : Nat)
  | eof
  | fail
  deriving DecidableEq

namespace Half

/-- A direction before anything has been read of its stream. -/
def start (stream : Bytes) : Half := ⟨stream, [], [], 0, 0, false, false⟩

/-- `copy_half`: a chunk is written whole before the next read, and counted then. -/
def copyHalf (h : Half) : HalfEvent → Option Half
  | .read n =>
      if h.done = false ∧ h.buffer = [] ∧ 0 < n ∧ n ≤ 65536 ∧ n ≤ h.source.length then
        some { h with source := h.source.drop n, buffer := h.source.take n, chunk := n }
      else none
  | .write n =>
      if h.done = false ∧ 0 < n ∧ n ≤ h.buffer.length then
        some { h with
          buffer := h.buffer.drop n
          delivered := h.delivered ++ h.buffer.take n
          total := if n = h.buffer.length then h.total + h.chunk else h.total }
      else none
  | .eof =>
      if h.done = false ∧ h.buffer = [] ∧ h.source = [] then some { h with done := true } else none
  | .fail =>
      if h.done = false then some { h with done := true, failed := true } else none

/-- `tokio::io::copy`: a buffer of 8 KiB that may be filled up while it is written, and every
    written byte is counted. -/
def copy (h : Half) : HalfEvent → Option Half
  | .read n =>
      if h.done = false ∧ 0 < n ∧ h.buffer.length + n ≤ 8192 ∧ n ≤ h.source.length then
        some { h with
          source := h.source.drop n, buffer := h.buffer ++ h.source.take n, chunk := n }
      else none
  | .write n =>
      if h.done = false ∧ 0 < n ∧ n ≤ h.buffer.length then
        some { h with
          buffer := h.buffer.drop n
          delivered := h.delivered ++ h.buffer.take n
          total := h.total + n }
      else none
  | .eof =>
      if h.done = false ∧ h.buffer = [] ∧ h.source = [] then some { h with done := true } else none
  | .fail =>
      if h.done = false then some { h with done := true, failed := true } else none

/-- `res.unwrap_or(0)`: the count of a copy that has ended well. -/
def unwrapOr (h : Half) : Nat := if h.failed then 0 else h.total

/-- No byte is lost or changed, and a direction that has ended well has delivered them all. -/
structure Copies (stream : Bytes) (h : Half) : Prop where
  whole : h.delivered ++ h.buffer ++ h.source = stream
  ended : h.done = true → h.failed = false → h.buffer = [] ∧ h.source = []
  failed : h.failed = true → h.done = true

/-- What `copy_half` has counted: the chunks that are written whole. -/
def ChunkCount (h : Half) : Prop :=
  h.delivered.length + h.buffer.length = h.total + if h.buffer = [] then 0 else h.chunk

variable {stream : Bytes} {h h' : Half} {e : HalfEvent}

/-- A direction that has ended well has delivered its stream. -/
theorem Copies.delivered_of_done (hc : h.Copies stream) (hdone : h.done = true)
    (hfailed : h.failed = false) : h.delivered = stream := by
  obtain ⟨hbuffer, hsource⟩ := hc.ended hdone hfailed
  have hwhole := hc.whole
  rw [hbuffer, hsource, List.append_nil, List.append_nil] at hwhole
  exact hwhole

/-- Of an empty stream nothing is delivered. -/
theorem Copies.delivered_of_nil (hc : h.Copies []) : h.delivered = [] := by
  have hwhole := hc.whole
  rw [List.append_assoc] at hwhole
  exact (List.append_eq_nil_iff.mp hwhole).1

theorem copies_start (stream : Bytes) : (start stream).Copies stream :=
  ⟨rfl, fun hdone => (nomatch hdone), fun hfailed => (nomatch hfailed)⟩

/-- **Reading** moves bytes from the source to the end of the buffer. -/
theorem Copies.read (hc : h.Copies stream) (hdone : h.done = false) (n chunk : Nat) :
    Copies stream { h with
      source := h.source.drop n, buffer := h.buffer ++ h.source.take n, chunk } := by
  refine ⟨?_, fun hd => ?_, hc.failed⟩
  · show h.delivered ++ (h.buffer ++ h.source.take n) ++ h.source.drop n = stream
    rw [List.append_assoc, List.append_assoc h.buffer, List.take_append_drop, ← List.append_assoc]
    exact hc.whole
  · rw [show h.done = true from hd] at hdone
    cases hdone

/-- **Writing** moves bytes from the buffer to what is delivered. -/
theorem Copies.write (hc : h.Copies stream) (hdone : h.done = false) (n total : Nat) :
    Copies stream { h with
      buffer := h.buffer.drop n, delivered := h.delivered ++ h.buffer.take n, total } := by
  refine ⟨?_, fun hd => ?_, hc.failed⟩
  · show h.delivered ++ h.buffer.take n ++ h.buffer.drop n ++ h.source = stream
    rw [List.append_assoc h.delivered, List.take_append_drop]
    exact hc.whole
  · rw [show h.done = true from hd] at hdone
    cases hdone

/-- **Ending well** takes a direction that has written all of its source. -/
theorem Copies.eof (hc : h.Copies stream) (hempty : h.buffer = [] ∧ h.source = []) :
    Copies stream { h with done := true } :=
  ⟨hc.whole, fun _ _ => hempty, fun _ => rfl⟩

theorem Copies.fail (hc : h.Copies stream) :
    Copies stream { h with done := true, failed := true } :=
  ⟨hc.whole, fun _ hfailed => (nomatch hfailed), fun _ => rfl⟩

/-- What one event of `copy_half` can do. -/
theorem copyHalf_cases (hstep : h.copyHalf e = some h') :
    h.done = false ∧
      ((∃ n, h.buffer = [] ∧ 0 < n ∧ n ≤ h.source.length ∧
          h' = { h with source := h.source.drop n, buffer := h.source.take n, chunk := n }) ∨
        (∃ n, 0 < n ∧ n ≤ h.buffer.length ∧
          h' = { h with
            buffer := h.buffer.drop n
            delivered := h.delivered ++ h.buffer.take n
            total := if n = h.buffer.length then h.total + h.chunk else h.total }) ∨
        (h.buffer = [] ∧ h.source = [] ∧ h' = { h with done := true }) ∨
        h' = { h with done := true, failed := true }) := by
  cases e with
  | read n =>
      simp only [Half.copyHalf, Option.ite_none_right_eq_some, Option.some.injEq] at hstep
      obtain ⟨⟨hdone, hempty, hpos, -, hle⟩, rfl⟩ := hstep
      exact ⟨hdone, .inl ⟨n, hempty, hpos, hle, rfl⟩⟩
  | write n =>
      simp only [Half.copyHalf, Option.ite_none_right_eq_some, Option.some.injEq] at hstep
      obtain ⟨⟨hdone, hpos, hle⟩, rfl⟩ := hstep
      exact ⟨hdone, .inr (.inl ⟨n, hpos, hle, rfl⟩)⟩
  | eof =>
      simp only [Half.copyHalf, Option.ite_none_right_eq_some, Option.some.injEq] at hstep
      obtain ⟨⟨hdone, hbuffer, hsource⟩, rfl⟩ := hstep
      exact ⟨hdone, .inr (.inr (.inl ⟨hbuffer, hsource, rfl⟩))⟩
  | fail =>
      simp only [Half.copyHalf, Option.ite_none_right_eq_some, Option.some.injEq] at hstep
      obtain ⟨hdone, rfl⟩ := hstep
      exact ⟨hdone, .inr (.inr (.inr rfl))⟩

/-- **`copy_half`** loses no byte and writes none twice, whatever the streams answer. -/
theorem Copies.copyHalf (hc : h.Copies stream) (hstep : h.copyHalf e = some h') :
    h'.Copies stream := by
  obtain ⟨hdone, ⟨n, hempty, -, -, rfl⟩ | ⟨n, -, -, rfl⟩ | ⟨hbuffer, hsource, rfl⟩ | rfl⟩ :=
    copyHalf_cases hstep
  · have hread := hc.read hdone n n
    rw [hempty, List.nil_append] at hread
    exact hread
  · exact hc.write hdone n _
  · exact hc.eof ⟨hbuffer, hsource⟩
  · exact hc.fail

theorem take_ne_nil {bytes : Bytes} {n : Nat} (hpos : 0 < n) (hle : n ≤ bytes.length) :
    bytes.take n ≠ [] := by
  intro hnil
  have hlen := congrArg List.length hnil
  rw [List.length_take_of_le hle] at hlen
  exact absurd hlen hpos.ne'

theorem ChunkCount.copyHalf (hcount : h.ChunkCount) (hstep : h.copyHalf e = some h') :
    h'.ChunkCount := by
  unfold ChunkCount at hcount ⊢
  obtain ⟨-, ⟨n, hempty, hpos, hle, rfl⟩ | ⟨n, hpos, hle, rfl⟩ | ⟨-, -, rfl⟩ | rfl⟩ :=
    copyHalf_cases hstep
  · rw [hempty, if_pos rfl, List.length_nil] at hcount
    show h.delivered.length + (h.source.take n).length
      = h.total + if h.source.take n = [] then 0 else n
    rw [if_neg (take_ne_nil hpos hle), List.length_take_of_le hle]
    omega
  · have hbuffer : h.buffer ≠ [] := by
      intro hnil
      rw [hnil] at hle
      exact absurd hle (Nat.not_le.mpr hpos)
    rw [if_neg hbuffer] at hcount
    dsimp only
    rw [List.length_append, List.length_take_of_le hle, List.length_drop]
    by_cases hall : n = h.buffer.length
    · -- the last byte of the chunk: it is counted now
      rw [if_pos hall, if_pos (List.drop_eq_nil_of_le hall.ge)]
      omega
    · have hrest : h.buffer.drop n ≠ [] := by
        intro hnil
        have hlen := congrArg List.length hnil
        rw [List.length_drop, List.length_nil] at hlen
        omega
      rw [if_neg hall, if_neg hrest]
      omega
  · exact hcount
  · exact hcount

/-- **`tokio::io::copy`** loses no byte and counts what it has written. -/
theorem Copies.copy (hc : h.Copies stream) (htotal : h.total = h.delivered.length)
    (hstep : h.copy e = some h') : h'.Copies stream ∧ h'.total = h'.delivered.length := by
  cases e with
  | read n =>
      simp only [Half.copy, Option.ite_none_right_eq_some, Option.some.injEq] at hstep
      obtain ⟨⟨hdone, -⟩, rfl⟩ := hstep
      exact ⟨hc.read hdone n n, htotal⟩
  | write n =>
      simp only [Half.copy, Option.ite_none_right_eq_some, Option.some.injEq] at hstep
      obtain ⟨⟨hdone, -, hle⟩, rfl⟩ := hstep
      refine ⟨hc.write hdone n _, ?_⟩
      show h.total + n = (h.delivered ++ h.buffer.take n).length
      rw [List.length_append, List.length_take_of_le hle, htotal]
  | eof =>
      simp only [Half.copy, Option.ite_none_right_eq_some, Option.some.injEq] at hstep
      obtain ⟨⟨-, hempty⟩, rfl⟩ := hstep
      exact ⟨hc.eof hempty, htotal⟩
  | fail =>
      simp only [Half.copy, Option.ite_none_right_eq_some, Option.some.injEq] at hstep
      obtain ⟨-, rfl⟩ := hstep
      exact ⟨hc.fail, htotal⟩

/-- A write that is made delivers at least a byte; nothing else delivers. -/
theorem copy_delivered_eq_nil (hstep : h.copy e = some h') :
    h'.delivered = [] ↔ h.delivered = [] ∧ ∀ n, e ≠ .write n := by
  cases e with
  | read n =>
      simp only [Half.copy, Option.ite_none_right_eq_some, Option.some.injEq] at hstep
      obtain ⟨-, rfl⟩ := hstep
      exact ⟨fun hnil => ⟨hnil, fun _ => HalfEvent.noConfusion⟩, And.left⟩
  | write n =>
      simp only [Half.copy, Option.ite_none_right_eq_some, Option.some.injEq] at hstep
      obtain ⟨⟨-, hpos, hle⟩, rfl⟩ := hstep
      refine ⟨fun hnil => ?_, fun hno => absurd rfl (hno.2 n)⟩
      exact absurd (List.append_eq_nil_iff.mp hnil).2 (take_ne_nil hpos hle)
  | eof =>
      simp only [Half.copy, Option.ite_none_right_eq_some, Option.some.injEq] at hstep
      obtain ⟨-, rfl⟩ := hstep
      exact ⟨fun hnil => ⟨hnil, fun _ => HalfEvent.noConfusion⟩, And.left⟩
  | fail =>
      simp only [Half.copy, Option.ite_none_right_eq_some, Option.some.injEq] at hstep
      obtain ⟨-, rfl⟩ := hstep
      exact ⟨fun hnil => ⟨hnil, fun _ => HalfEvent.noConfusion⟩, And.left⟩

/-- **A direction can always be copied to its end**: byte by byte, and then the end is seen. -/
theorem exists_run_copyHalf (hdone : h.done = false) (hfailed : h.failed = false)
    (hbuffer : h.buffer = []) :
    ∃ events h', Transition.run copyHalf h events = some h' ∧
      h'.done = true ∧ h'.failed = false := by
  obtain ⟨source, buffer, delivered, chunk, total, done, failed⟩ := h
  obtain rfl : done = false := hdone
  obtain rfl : failed = false := hfailed
  obtain rfl : buffer = [] := hbuffer
  induction source generalizing delivered chunk total with
  | nil => exact ⟨[.eof], ⟨[], [], delivered, chunk, total, true, false⟩, rfl, rfl, rfl⟩
  | cons b source ih =>
      obtain ⟨events, h', hrun, hends⟩ := ih (delivered ++ [b]) 1 (total + 1)
      refine ⟨.read 1 :: .write 1 :: events, h', ?_, hends⟩
      simpa [Transition.run, copyHalf] using hrun

end Half

/-! ### `relay` -/

/-- The two directions of a relay: `up` from the local side to the remote one, `down` back. -/
structure Relay where
  up : Half
  down : Half

/-- An event of a direction. -/
inductive RelayEvent where
  | up (e : HalfEvent)
  | down (e : HalfEvent)

namespace Relay

def start (up down : Bytes) : Relay := ⟨.start up, .start down⟩

/-- `relay`: `join!` polls both directions, in any order. -/
def relay (s : Relay) : RelayEvent → Option Relay
  | .up e => (s.up.copyHalf e).map fun up => { s with up }
  | .down e => (s.down.copyHalf e).map fun down => { s with down }

/-- `join!` is done when both directions are; each has shut its writer down by then. -/
def Finished (s : Relay) : Prop := s.up.done = true ∧ s.down.done = true

/-- No read and no write has failed. -/
def Clean (s : Relay) : Prop := s.up.failed = false ∧ s.down.failed = false

/-- `(r1, r2)` -/
def returned (s : Relay) : Nat × Nat := (s.up.total, s.down.total)

/-- No byte is lost in either direction, and the counts are those of `copy_half`. -/
structure Inv (up down : Bytes) (s : Relay) : Prop where
  up : s.up.Copies up
  down : s.down.Copies down
  upCount : s.up.ChunkCount
  downCount : s.down.ChunkCount

variable {up down : Bytes} {s s' : Relay}

theorem Inv.step (hs : s.Inv up down) {e : RelayEvent} (hstep : s.relay e = some s') :
    s'.Inv up down := by
  cases e with
  | up e =>
      obtain ⟨h, hh, rfl⟩ := Option.map_eq_some_iff.mp hstep
      exact ⟨hs.up.copyHalf hh, hs.down, hs.upCount.copyHalf hh, hs.downCount⟩
  | down e =>
      obtain ⟨h, hh, rfl⟩ := Option.map_eq_some_iff.mp hstep
      exact ⟨hs.up, hs.down.copyHalf hh, hs.upCount, hs.downCount.copyHalf hh⟩

theorem Inv.of_run {events : List RelayEvent}
    (hrun : Transition.run relay (start up down) events = some s) : s.Inv up down := by
  refine Transition.invariant_of_steps (fun _ _ _ hstep hs => hs.step hstep) hrun ?_
  exact ⟨Half.copies_start up, Half.copies_start down, rfl, rfl⟩

/-- **`relay` delivers** both streams whole, whatever the order of reads and writes, and returns how
    many bytes it has delivered. -/
theorem relay_finished {events : List RelayEvent}
    (hrun : Transition.run relay (start up down) events = some s) (hdone : s.Finished)
    (hclean : s.Clean) :
    s.up.delivered = up ∧ s.down.delivered = down ∧ s.returned = (up.length, down.length) := by
  have hs := Inv.of_run hrun
  have hup := hs.up.delivered_of_done hdone.1 hclean.1
  have hdown := hs.down.delivered_of_done hdone.2 hclean.2
  have hupCount := hs.upCount
  have hdownCount := hs.downCount
  simp only [Half.ChunkCount, (hs.up.ended hdone.1 hclean.1).1, hup, if_true, List.length_nil,
    Nat.add_zero] at hupCount
  simp only [Half.ChunkCount, (hs.down.ended hdone.2 hclean.2).1, hdown, if_true, List.length_nil,
    Nat.add_zero] at hdownCount
  exact ⟨hup, hdown, by rw [returned, hupCount, hdownCount]⟩

/-- Any two streams can be relayed to their ends. -/
theorem exists_run (up down : Bytes) :
    ∃ events s, Transition.run relay (start up down) events = some s ∧ s.Finished ∧ s.Clean := by
  obtain ⟨ups, u, hu, hudone, hufailed⟩ :=
    Half.exists_run_copyHalf (h := .start up) rfl rfl rfl
  obtain ⟨downs, d, hd, hddone, hdfailed⟩ :=
    Half.exists_run_copyHalf (h := .start down) rfl rfl rfl
  refine ⟨ups.map .up ++ downs.map .down, ⟨u, d⟩, ?_, ⟨hudone, hddone⟩, hufailed, hdfailed⟩
  -- all of the upload first, then all of the download
  refine Transition.run_append_eq_some.mpr ⟨⟨u, .start down⟩, ?_, ?_⟩
  · refine Transition.run_map (fun h => Relay.mk h (.start down)) RelayEvent.up (fun t b t' ht => ?_) hu
    show (t.copyHalf b).map _ = _
    rw [ht]
    rfl
  · refine Transition.run_map (fun h => Relay.mk u h) RelayEvent.down (fun t b t' ht => ?_) hd
    show (t.copyHalf b).map _ = _
    rw [ht]
    rfl

end Relay

/-! ### `relay_with_interrupt` -/

/-- Which arm of the `select!` was taken. -/
inductive Ended where
  | upload
  | download
  | interrupt
  deriving DecidableEq

structure InterruptRelay where
  up : Half
  down : Half
  ended : Option Ended

inductive InterruptEvent where
  | up (e : HalfEvent)
  | down (e : HalfEvent)
  | interrupt
  deriving DecidableEq

/-- A write to either side. -/
def InterruptEvent.isWrite : InterruptEvent → Bool
  | .up (.write _) => true
  | .down (.write _) => true
  | _ => false

namespace InterruptRelay

def start (up down : Bytes) : InterruptRelay := ⟨.start up, .start down, none⟩

/-- `relay_with_interrupt`: the `select!` polls both copies and the interrupt, in any order, until
    one of the three is ready.  `relay_with_interrupt_tracked` runs the same over a local stream
    that counts on the side. -/
def relayWithInterrupt (s : InterruptRelay) : InterruptEvent → Option InterruptRelay
  | .up e =>
      if s.ended = none then
        (s.up.copy e).map fun up =>
          { s with up, ended := if up.done then some .upload else none }
      else none
  | .down e =>
      if s.ended = none then
        (s.down.copy e).map fun down =>
          { s with down, ended := if down.done then some .download else none }
      else none
  | .interrupt => if s.ended = none then some { s with ended := some .interrupt } else none

/-- `(up_bytes, dn_bytes)` behind the arm that was taken. -/
def returned (s : InterruptRelay) : Ended → Nat × Nat
  | .upload => (s.up.unwrapOr, 0)
  | .download => (0, s.down.unwrapOr)
  | .interrupt => (0, 0)

/-- Both streams are dropped, and so closed, when the function returns. -/
def closed (s : InterruptRelay) : Bool := s.ended.isSome

/-- No read and no write has failed. -/
def Clean (s : InterruptRelay) : Prop := s.up.failed = false ∧ s.down.failed = false

/-- What is asked of a relay that has returned: without an interrupt it has delivered what any
    `relay` of the same streams delivers, both sides see the end, and the counts are those of the
    bytes it has forwarded. -/
structure Meets (up down : Bytes) (s : InterruptRelay) (e : Ended) : Prop where
  delivers : e ≠ .interrupt → ∀ events t,
    Transition.run Relay.relay (.start up down) events = some t → t.Finished → t.Clean →
      s.up.delivered = t.up.delivered ∧ s.down.delivered = t.down.delivered
  closes : s.closed = true
  counts : s.returned e = (s.up.delivered.length, s.down.delivered.length)

/-- Nothing is lost by returning now: the direction that goes on has an empty stream, or nothing was
    written when the interrupt came. -/
def Quiet (up down : Bytes) (events : List InterruptEvent) : Ended → Prop
  | .upload => down = []
  | .download => up = []
  | .interrupt => ∀ e ∈ events, e.isWrite = false

/-- No byte is lost in either direction, each copy counts its own bytes, and the arm that was taken
    is that of a copy that is done. -/
structure Inv (up down : Bytes) (s : InterruptRelay) : Prop where
  up : s.up.Copies up ∧ s.up.total = s.up.delivered.length
  down : s.down.Copies down ∧ s.down.total = s.down.delivered.length
  upload : s.ended = some .upload → s.up.done = true
  download : s.ended = some .download → s.down.done = true

variable {up down : Bytes} {s s' : InterruptRelay}

/-- What a step can do before an arm is taken: one copy goes on, or the relay is interrupted. -/
theorem relayWithInterrupt_cases {e : InterruptEvent} (hstep : s.relayWithInterrupt e = some s') :
    s.ended = none ∧
      ((∃ c up, e = .up c ∧ s.up.copy c = some up ∧
          s' = { s with up, ended := if up.done then some .upload else none }) ∨
        (∃ c down, e = .down c ∧ s.down.copy c = some down ∧
          s' = { s with down, ended := if down.done then some .download else none }) ∨
        (e = .interrupt ∧ s' = { s with ended := some .interrupt })) := by
  cases e with
  | up c =>
      rw [relayWithInterrupt, Option.ite_none_right_eq_some] at hstep
      obtain ⟨up, hup, rfl⟩ := Option.map_eq_some_iff.mp hstep.2
      exact ⟨hstep.1, .inl ⟨c, up, rfl, hup, rfl⟩⟩
  | down c =>
      rw [relayWithInterrupt, Option.ite_none_right_eq_some] at hstep
      obtain ⟨down, hdown, rfl⟩ := Option.map_eq_some_iff.mp hstep.2
      exact ⟨hstep.1, .inr (.inl ⟨c, down, rfl, hdown, rfl⟩)⟩
  | interrupt =>
      rw [relayWithInterrupt, Option.ite_none_right_eq_some] at hstep
      exact ⟨hstep.1, .inr (.inr ⟨rfl, (Option.some.inj hstep.2).symm⟩)⟩

theorem Inv.step (hs : s.Inv up down) {e : InterruptEvent}
    (hstep : s.relayWithInterrupt e = some s') : s'.Inv up down := by
  obtain ⟨-, ⟨c, h, -, hh, rfl⟩ | ⟨c, h, -, hh, rfl⟩ | ⟨-, rfl⟩⟩ :=
    relayWithInterrupt_cases hstep
  · refine ⟨hs.up.1.copy hs.up.2 hh, hs.down, fun hended => ?_, fun hended => ?_⟩
    · simpa using hended
    · simp at hended
  · refine ⟨hs.up, hs.down.1.copy hs.down.2 hh, fun hended => ?_, fun hended => ?_⟩
    · simp at hended
    · simpa using hended
  · exact ⟨hs.up, hs.down, fun hended => (nomatch hended), fun hended => (nomatch hended)⟩

theorem Inv.of_run {events : List InterruptEvent}
    (hrun : Transition.run relayWithInterrupt (start up down) events = some s) :
    s.Inv up down := by
  refine Transition.invariant_of_steps (fun _ _ _ hstep hs => hs.step hstep) hrun ?_
  exact ⟨⟨Half.copies_start up, rfl⟩, ⟨Half.copies_start down, rfl⟩, fun hended => (nomatch hended),
    fun hended => (nomatch hended)⟩

/-- Whether a step delivers something shows in the event. -/
theorem step_silent {e : InterruptEvent} (hstep : s.relayWithInterrupt e = some s') :
    (s'.up.delivered = [] ∧ s'.down.delivered = []) ↔
      (s.up.delivered = [] ∧ s.down.delivered = []) ∧ e.isWrite = false := by
  obtain ⟨-, ⟨c, h, rfl, hh, rfl⟩ | ⟨c, h, rfl, hh, rfl⟩ | ⟨rfl, rfl⟩⟩ :=
    relayWithInterrupt_cases hstep
  · rw [Half.copy_delivered_eq_nil hh]
    cases c <;> simp [InterruptEvent.isWrite]
  · rw [Half.copy_delivered_eq_nil hh]
    cases c <;> simp [InterruptEvent.isWrite]
  · simp [InterruptEvent.isWrite]

theorem delivered_eq_nil_iff {events : List InterruptEvent}
    (hrun : Transition.run relayWithInterrupt (start up down) events = some s) :
    (s.up.delivered = [] ∧ s.down.delivered = []) ↔ ∀ e ∈ events, e.isWrite = false := by
  rw [Transition.run_iff_forall (fun _ _ _ hstep => step_silent hstep) hrun]
  exact ⟨And.right, fun hsilent => ⟨⟨rfl, rfl⟩, hsilent⟩⟩

/-- What `relay` delivers are the two streams. -/
theorem meets_iff_delivered {e : Ended} (hne : e ≠ .interrupt) (hcloses : s.closed = true) :
    s.Meets up down e ↔ (s.up.delivered = up ∧ s.down.delivered = down) ∧
      s.returned e = (s.up.delivered.length, s.down.delivered.length) := by
  constructor
  · intro hmeets
    obtain ⟨events, t, ht, hfinished, hclean⟩ := Relay.exists_run up down
    obtain ⟨hup, hdown, -⟩ := Relay.relay_finished ht hfinished hclean
    obtain ⟨hup', hdown'⟩ := hmeets.delivers hne events t ht hfinished hclean
    exact ⟨⟨hup'.trans hup, hdown'.trans hdown⟩, hmeets.counts⟩
  · rintro ⟨⟨hup, hdown⟩, hcounts⟩
    refine ⟨fun _ events t ht hfinished hclean => ?_, hcloses, hcounts⟩
    obtain ⟨hup', hdown', -⟩ := Relay.relay_finished ht hfinished hclean
    exact ⟨hup.trans hup'.symm, hdown.trans hdown'.symm⟩

end InterruptRelay

end Reflex.Outbound
