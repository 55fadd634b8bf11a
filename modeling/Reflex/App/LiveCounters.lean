import Reflex.App.UdpSessions
import Reflex.Inbound.Sniffed
import Reflex.Outbound.Relay

namespace Reflex.App

open RustStd Inbound Outbound PolledStream Transition

/-!
# The dispatcher — live counters

The tracker shows for each connection what it has carried.  For a stream, `SniffedStream` of `inbound/mod.rs`
and `CountedStream` of `outbound/mod.rs` count: each read as `live_down`, each write as `live_up`.  Both are
around the client's stream, so what the client has sent is read.  For a UDP session, `run_udp_session` of
`app/dispatcher.rs` counts the packet it takes itself; the others go to the outbound.

* `copyHalf_of_pollRead` — a read of a `SniffedStream`, of its prefix or of the stream below, is a read of
  the relay and counts its bytes;
* `LiveRelay.right_iff`, `LiveInterruptRelay.right_iff` — when the counters of a stream are right;
* `LiveUdp.liveUp_eq_sum_iff` — when the counter of a session is;
* `liveCounters_iff` — all of them.
-/

/-! ### What a direction moves -/

/-- How many bytes the events of a direction read and write, and the size of the last read. -/
structure Moved where
  read : Nat := 0
  written : Nat := 0
  chunk : Nat := 0
  deriving DecidableEq

/-- What one direction has moved behind one more event; `chunk` is the last read. -/
def Moved.add (m : Moved) : HalfEvent → Moved
  | .read n => { m with read := m.read + n, chunk := n }
  | .write n => { m with written := m.written + n }
  | .eof | .fail => m

/-- The bytes a direction has read and written. -/
def moved (h : Half) : Moved := ⟨h.delivered.length + h.buffer.length, h.delivered.length, h.chunk⟩

@[simp] theorem written_moved (h : Half) : (moved h).written = h.delivered.length := rfl

@[simp] theorem read_moved (h : Half) : (moved h).read = h.delivered.length + h.buffer.length := rfl

theorem moved_copyHalf {h h' : Half} {e : HalfEvent} (hstep : h.copyHalf e = some h') :
    moved h' = (moved h).add e := by
  unfold moved
  cases e with
  | read n =>
    simp only [Half.copyHalf, Option.ite_none_right_eq_some, Option.some.injEq] at hstep
    obtain ⟨⟨-, hbuffer, -, -, hle⟩, rfl⟩ := hstep
    simp [Moved.add, hbuffer, hle]
  | write n =>
    simp only [Half.copyHalf, Option.ite_none_right_eq_some, Option.some.injEq] at hstep
    obtain ⟨⟨-, -, hle⟩, rfl⟩ := hstep
    simp only [Moved.add, Moved.mk.injEq, List.length_append, List.length_take_of_le hle, List.length_drop,
      and_true]
    omega
  | eof =>
    simp only [Half.copyHalf, Option.ite_none_right_eq_some, Option.some.injEq] at hstep
    obtain ⟨-, rfl⟩ := hstep
    rfl
  | fail =>
    simp only [Half.copyHalf, Option.ite_none_right_eq_some, Option.some.injEq] at hstep
    obtain ⟨-, rfl⟩ := hstep
    rfl

theorem moved_copy {h h' : Half} {e : HalfEvent} (hstep : h.copy e = some h') :
    moved h' = (moved h).add e := by
  unfold moved
  cases e with
  | read n =>
    simp only [Half.copy, Option.ite_none_right_eq_some, Option.some.injEq] at hstep
    obtain ⟨⟨-, -, -, hle⟩, rfl⟩ := hstep
    simp only [Moved.add, Moved.mk.injEq, List.length_append, List.length_take_of_le hle, and_true]
    omega
  | write n =>
    simp only [Half.copy, Option.ite_none_right_eq_some, Option.some.injEq] at hstep
    obtain ⟨⟨-, -, hle⟩, rfl⟩ := hstep
    simp only [Moved.add, Moved.mk.injEq, List.length_append, List.length_take_of_le hle, List.length_drop,
      and_true]
    omega
  | eof =>
    simp only [Half.copy, Option.ite_none_right_eq_some, Option.some.injEq] at hstep
    obtain ⟨-, rfl⟩ := hstep
    rfl
  | fail =>
    simp only [Half.copy, Option.ite_none_right_eq_some, Option.some.injEq] at hstep
    obtain ⟨-, rfl⟩ := hstep
    rfl

/-- What the two directions move: from the client and to it. -/
structure Traffic where
  up : Moved := {}
  down : Moved := {}
  deriving DecidableEq

/-! ### The counters -/

/-- The counters of a connection, which the API shows while it runs. -/
structure LiveCounters where
  liveUp : Int := 0
  liveDown : Int := 0
  deriving DecidableEq

namespace LiveCounters

/-- The client's stream in the direction from it: it is read, and `poll_read` counts `live_down`. -/
def countUp (c : LiveCounters) : HalfEvent → LiveCounters
  | .read n => { c with liveDown := c.liveDown + n }
  | _ => c

/-- The client's stream in the direction to it: it is written, and `poll_write` counts `live_up`. -/
def countDown (c : LiveCounters) : HalfEvent → LiveCounters
  | .write n => { c with liveUp := c.liveUp + n }
  | _ => c

/-- What is asked of the counters: `live_up` is what the client has sent to the remote, `live_down` what
    was sent to the client, and both are what the relay returns. -/
structure Right (c : LiveCounters) (up down : Half) (returned : Nat × Nat) : Prop where
  up : c.liveUp = up.delivered.length
  down : c.liveDown = down.delivered.length
  returnedUp : c.liveUp = returned.1
  returnedDown : c.liveDown = returned.2

/-- What they count: the writes to the client and the reads from it. -/
def Counts (c : LiveCounters) (up down : Half) : Prop :=
  c.liveUp = (moved down).written ∧ c.liveDown = (moved up).read

variable {c : LiveCounters} {up up' down down' : Half} {e : HalfEvent}

theorem Counts.countUp (hc : c.Counts up down) (hmoved : moved up' = (moved up).add e) :
    (c.countUp e).Counts up' down := by
  obtain ⟨hup, hdown⟩ := hc
  unfold Counts LiveCounters.countUp
  rw [hmoved]
  cases e <;> simp [Moved.add, hup, hdown]

theorem Counts.countDown (hc : c.Counts up down) (hmoved : moved down' = (moved down).add e) :
    (c.countDown e).Counts up down' := by
  obtain ⟨hup, hdown⟩ := hc
  unfold Counts LiveCounters.countDown
  rw [hmoved]
  cases e <;> simp [Moved.add, hup, hdown]

end LiveCounters

/-- **A read of the client's stream**, of the bytes that were sniffed or of the stream below, is a read of
    the relay, and `live_down` counts it. -/
theorem copyHalf_of_pollRead {ε : Type} {s s' : SniffedStream ε} {cap : Nat} {bs : Bytes} {h : Half}
    (hread : s.pollRead cap = (.ready bs, s')) (hbs : bs ≠ []) (hcap : cap ≤ 65536)
    (hdone : h.done = false) (hbuffer : h.buffer = []) (hsource : h.source = s.bytes) :
    h.copyHalf (.read bs.length) = some { h with source := s'.bytes, buffer := bs, chunk := bs.length } ∧
      s'.liveDown = s.liveDown.map (· + (bs.length : Int)) := by
  have hall : s.bytes = bs ++ s'.bytes ∧ bs.length ≤ cap ∧
      s'.liveDown = s.liveDown.map (· + (bs.length : Int)) := by
    by_cases hpre : s.pre = []
    · refine ⟨(pollRead_of_nil hpre hread).2, ?_⟩
      rw [SniffedStream.pollRead, if_neg (not_not.mpr hpre)] at hread
      have hlen := length_poll_le cap s.inner
      cases hpoll : s.inner.poll cap with
      | mk result inner =>
        rw [hpoll] at hread hlen
        obtain ⟨rfl, rfl⟩ := Prod.mk.inj hread
        exact ⟨hlen, rfl⟩
    · rw [pollRead_of_pre hpre] at hread
      obtain ⟨hpoll, rfl⟩ := Prod.mk.inj hread
      obtain rfl := Poll.ready.inj hpoll
      refine ⟨?_, List.length_take_le .., ?_⟩
      · show s.pre ++ s.inner.bytes = s.pre.take cap ++ (s.pre.drop cap ++ s.inner.bytes)
        rw [← List.append_assoc, List.take_append_drop]
      · dsimp only [SniffedStream.count]
        rw [List.length_take, Nat.min_comm]
  obtain ⟨hbytes, hlen, hlive⟩ := hall
  refine ⟨?_, hlive⟩
  have hpos : 0 < bs.length := List.length_pos_iff.mpr hbs
  have hle : bs.length ≤ h.source.length := by
    rw [hsource, hbytes, List.length_append]
    omega
  rw [Half.copyHalf, if_pos ⟨hdone, hbuffer, hpos, hlen.trans hcap, hle⟩, hsource, hbytes,
    List.take_left, List.drop_left]

/-! ### `relay` -/

/-- A relay whose local stream is a counting one: what is read from it goes up, what is written to it down. -/
structure LiveRelay where
  relay : Relay
  live : LiveCounters := {}

namespace LiveRelay

/-- `handle_tcp_live` of a leaf, with the tunnel at hand: `set_live_counters`, then `relay`. -/
def start {ε : Type} (stream : SniffedStream ε) (down : Bytes) : LiveRelay := ⟨.start stream.bytes down, {}⟩

def step (s : LiveRelay) : RelayEvent → Option LiveRelay
  | .up e => (s.relay.relay (.up e)).map fun relay => ⟨relay, s.live.countUp e⟩
  | .down e => (s.relay.relay (.down e)).map fun relay => ⟨relay, s.live.countDown e⟩

/-- A read or a write moves bytes in its own direction only. -/
def addEvent (t : Traffic) : RelayEvent → Traffic
  | .up e => { t with up := t.up.add e }
  | .down e => { t with down := t.down.add e }

/-- What a list of events moves in the two directions, from the bytes that they state. -/
def traffic (events : List RelayEvent) : Traffic := events.foldl addEvent {}

/-- The client has sent as much as it was sent, all of it went to the remote, and no chunk for the client
    was cut. -/
structure Balanced (t : Traffic) : Prop where
  forwarded : t.up.read = t.up.written
  same : t.up.written = t.down.written
  uncut : t.down.written = t.down.read ∨ t.down.written + t.down.chunk = t.down.read

/-- No byte is lost, and the counters are what was written to the client and read from it. -/
structure Inv (up down : Bytes) (s : LiveRelay) : Prop where
  relay : s.relay.Inv up down
  counts : s.live.Counts s.relay.up s.relay.down

variable {up down : Bytes} {s s' : LiveRelay} {e : RelayEvent}

/-- What one event of the relay leads to: one of the two halves copies, and the counter of its direction follows. -/
theorem step_cases (hstep : s.step e = some s') :
    (∃ c h, e = .up c ∧ s.relay.up.copyHalf c = some h ∧
        s' = ⟨{ s.relay with up := h }, s.live.countUp c⟩) ∨
      ∃ c h, e = .down c ∧ s.relay.down.copyHalf c = some h ∧
        s' = ⟨{ s.relay with down := h }, s.live.countDown c⟩ := by
  cases e with
  | up c =>
    obtain ⟨relay, hrelay, rfl⟩ := Option.map_eq_some_iff.mp hstep
    obtain ⟨h, hh, rfl⟩ := Option.map_eq_some_iff.mp hrelay
    exact .inl ⟨c, h, rfl, hh, rfl⟩
  | down c =>
    obtain ⟨relay, hrelay, rfl⟩ := Option.map_eq_some_iff.mp hstep
    obtain ⟨h, hh, rfl⟩ := Option.map_eq_some_iff.mp hrelay
    exact .inr ⟨c, h, rfl, hh, rfl⟩

theorem relay_of_step (hstep : s.step e = some s') : s.relay.relay e = some s'.relay := by
  cases e with
  | up c =>
    obtain ⟨relay, hrelay, rfl⟩ := Option.map_eq_some_iff.mp hstep
    exact hrelay
  | down c =>
    obtain ⟨relay, hrelay, rfl⟩ := Option.map_eq_some_iff.mp hstep
    exact hrelay

theorem Inv.step (hs : s.Inv up down) (hstep : s.step e = some s') : s'.Inv up down := by
  refine ⟨hs.relay.step (relay_of_step hstep), ?_⟩
  obtain ⟨c, h, rfl, hh, rfl⟩ | ⟨c, h, rfl, hh, rfl⟩ := step_cases hstep
  · exact hs.counts.countUp (moved_copyHalf hh)
  · exact hs.counts.countDown (moved_copyHalf hh)

/-- The bytes that the two directions of a relay have moved. -/
def movedTraffic (s : LiveRelay) : Traffic := ⟨moved s.relay.up, moved s.relay.down⟩

theorem movedTraffic_step (hstep : s.step e = some s') :
    s'.movedTraffic = addEvent s.movedTraffic e := by
  obtain ⟨c, h, rfl, hh, rfl⟩ | ⟨c, h, rfl, hh, rfl⟩ := step_cases hstep
  · simp only [movedTraffic, addEvent, moved_copyHalf hh]
  · simp only [movedTraffic, addEvent, moved_copyHalf hh]

theorem traffic_of_run {events : List RelayEvent}
    (hrun : run step ⟨.start up down, {}⟩ events = some s) : s.movedTraffic = traffic events :=
  foldl_of_run (fun _ _ _ hstep => movedTraffic_step hstep) hrun

/-- A count of `copy_half` is the bytes it has delivered, if the last chunk is whole or untouched. -/
theorem total_eq_iff {h : Half} (hcount : h.ChunkCount) :
    h.total = h.delivered.length ↔
      (moved h).written = (moved h).read ∨ (moved h).written + (moved h).chunk = (moved h).read := by
  unfold Half.ChunkCount at hcount
  show _ ↔ h.delivered.length = h.delivered.length + h.buffer.length ∨
    h.delivered.length + h.chunk = h.delivered.length + h.buffer.length
  by_cases hbuffer : h.buffer = []
  · rw [if_pos hbuffer, hbuffer, List.length_nil] at hcount
    rw [hbuffer, List.length_nil]
    omega
  · rw [if_neg hbuffer] at hcount
    have hpos := List.length_pos_iff.mpr hbuffer
    omega

/-- **The counters of a stream** are right exactly if the client was sent as much as it has sent. -/
theorem right_iff (hs : s.Inv up down) :
    s.live.Right s.relay.up s.relay.down s.relay.returned ↔ Balanced s.movedTraffic := by
  obtain ⟨hup, hdown⟩ := hs.counts
  rw [written_moved] at hup
  have htotalUp := total_eq_iff hs.relay.upCount
  have htotalDown := total_eq_iff hs.relay.downCount
  constructor
  · intro hright
    -- the writes to the client are as many as to the remote, and as the reads from the client
    have hsame : s.relay.up.delivered.length = s.relay.down.delivered.length := by
      exact_mod_cast hright.up.symm.trans hup
    have hforwarded : (moved s.relay.up).read = s.relay.down.delivered.length := by
      exact_mod_cast hdown.symm.trans hright.down
    have hreturned : s.relay.down.total = s.relay.down.delivered.length := by
      exact_mod_cast hright.returnedDown.symm.trans hright.down
    exact ⟨hforwarded.trans hsame.symm, hsame, htotalDown.mp hreturned⟩
  · rintro ⟨hforwarded, hsame, huncut⟩
    have hreturnedUp := htotalUp.mpr (.inl hforwarded.symm)
    have hreturnedDown := htotalDown.mpr huncut
    simp only [movedTraffic, written_moved] at hforwarded hsame
    rw [hforwarded] at hdown
    refine ⟨?_, ?_, ?_, ?_⟩
    · rw [hup, hsame]
    · rw [hdown, hsame]
    · rw [hup, Relay.returned, hreturnedUp, hsame]
    · rw [hdown, Relay.returned, hreturnedDown, hsame]

/-- Without errors that is so exactly if the two streams are of the same length. -/
theorem balanced_iff_of_clean (hs : s.Inv up down) (hdone : s.relay.Finished) (hclean : s.relay.Clean) :
    Balanced s.movedTraffic ↔ up.length = down.length := by
  have hup := hs.relay.up.delivered_of_done hdone.1 hclean.1
  have hdown := hs.relay.down.delivered_of_done hdone.2 hclean.2
  have hupBuffer := (hs.relay.up.ended hdone.1 hclean.1).1
  have hdownBuffer := (hs.relay.down.ended hdone.2 hclean.2).1
  constructor
  · intro hbalanced
    have hsame := hbalanced.same
    simp only [movedTraffic, written_moved, hup, hdown] at hsame
    exact hsame
  · intro hlen
    refine ⟨?_, ?_, .inl ?_⟩
    · simp [movedTraffic, hupBuffer]
    · simp [movedTraffic, hup, hdown, hlen]
    · simp [movedTraffic, hdownBuffer]

theorem Inv.of_run {ε : Type} {stream : SniffedStream ε} {events : List RelayEvent}
    (hrun : run LiveRelay.step (start stream down) events = some s) : s.Inv stream.bytes down := by
  refine invariant_of_steps (fun _ _ _ hstep hs => hs.step hstep) hrun ⟨?_, rfl, rfl⟩
  exact ⟨Half.copies_start _, Half.copies_start _, rfl, rfl⟩

end LiveRelay

/-! ### `relay_with_interrupt_tracked` -/

/-- An interruptible relay whose local stream counts. -/
structure LiveInterruptRelay where
  relay : InterruptRelay
  live : LiveCounters := {}

namespace LiveInterruptRelay

/-- `relay_with_interrupt_tracked`: `CountedStream::new` around the local stream. -/
def start {ε : Type} (stream : SniffedStream ε) (down : Bytes) : LiveInterruptRelay :=
  ⟨.start stream.bytes down, {}⟩

/-- `relay_with_interrupt` on it. -/
def step (s : LiveInterruptRelay) (event : InterruptEvent) : Option LiveInterruptRelay :=
  (s.relay.relayWithInterrupt event).map fun relay =>
    match event with
    | .up e => ⟨relay, s.live.countUp e⟩
    | .down e => ⟨relay, s.live.countDown e⟩
    | .interrupt => ⟨relay, s.live⟩

/-- A read or a write moves bytes in its own direction; the interrupt moves none. -/
def addEvent (t : Traffic) : InterruptEvent → Traffic
  | .up e => { t with up := t.up.add e }
  | .down e => { t with down := t.down.add e }
  | .interrupt => t

/-- What a list of events moves in the two directions, from the bytes that they state. -/
def traffic (events : List InterruptEvent) : Traffic := events.foldl addEvent {}

/-- No byte is lost, and the counters are what was written to the client and read from it. -/
structure Inv (up down : Bytes) (s : LiveInterruptRelay) : Prop where
  relay : s.relay.Inv up down
  counts : s.live.Counts s.relay.up s.relay.down

variable {up down : Bytes} {s s' : LiveInterruptRelay} {event : InterruptEvent}

/-- The bytes that the two directions have moved. -/
def movedTraffic (s : LiveInterruptRelay) : Traffic := ⟨moved s.relay.up, moved s.relay.down⟩

theorem Inv.step (hs : s.Inv up down) (hstep : s.step event = some s') : s'.Inv up down := by
  obtain ⟨relay, hrelay, rfl⟩ := Option.map_eq_some_iff.mp hstep
  have hinv := hs.relay.step hrelay
  obtain ⟨-, ⟨e, h, rfl, hh, rfl⟩ | ⟨e, h, rfl, hh, rfl⟩ | ⟨rfl, rfl⟩⟩ :=
    InterruptRelay.relayWithInterrupt_cases hrelay
  · exact ⟨hinv, hs.counts.countUp (moved_copy hh)⟩
  · exact ⟨hinv, hs.counts.countDown (moved_copy hh)⟩
  · exact ⟨hinv, hs.counts⟩

theorem movedTraffic_step (hstep : s.step event = some s') :
    s'.movedTraffic = addEvent s.movedTraffic event := by
  obtain ⟨relay, hrelay, rfl⟩ := Option.map_eq_some_iff.mp hstep
  obtain ⟨-, ⟨e, h, rfl, hh, rfl⟩ | ⟨e, h, rfl, hh, rfl⟩ | ⟨rfl, rfl⟩⟩ :=
    InterruptRelay.relayWithInterrupt_cases hrelay
  · simp only [movedTraffic, addEvent, moved_copy hh]
  · simp only [movedTraffic, addEvent, moved_copy hh]
  · rfl

theorem unwrapOr_le {h : Half} (htotal : h.total = h.delivered.length) :
    h.unwrapOr ≤ h.delivered.length := by
  unfold Half.unwrapOr
  split
  · exact Nat.zero_le _
  · exact htotal.le

/-- What is returned is of one direction at most, and no more than that has delivered. -/
theorem returned_le (hs : s.relay.Inv up down) (ended : Ended) :
    (s.relay.returned ended).1 ≤ s.relay.up.delivered.length ∧
      (s.relay.returned ended).2 ≤ s.relay.down.delivered.length ∧
      ((s.relay.returned ended).1 = 0 ∨ (s.relay.returned ended).2 = 0) := by
  cases ended with
  | upload => exact ⟨unwrapOr_le hs.up.2, Nat.zero_le _, .inr rfl⟩
  | download => exact ⟨Nat.zero_le _, unwrapOr_le hs.down.2, .inl rfl⟩
  | interrupt => exact ⟨Nat.zero_le _, Nat.zero_le _, .inl rfl⟩

/-- **The counters of an interruptible stream.** It returns the bytes of one direction only, and the
    counter of that direction counts the other one: both are right exactly if nothing was moved. -/
theorem right_iff (hs : s.Inv up down) (ended : Ended) :
    s.live.Right s.relay.up s.relay.down (s.relay.returned ended) ↔
      s.movedTraffic.up.read = 0 ∧ s.movedTraffic.down.written = 0 := by
  obtain ⟨hup, hdown⟩ := hs.counts
  obtain ⟨hle₁, hle₂, hone⟩ := returned_le hs.relay ended
  rw [written_moved] at hup
  rw [read_moved] at hdown
  simp only [movedTraffic, written_moved, read_moved]
  constructor
  · rintro ⟨hrightUp, hrightDown, hreturnedUp, hreturnedDown⟩
    omega
  · rintro ⟨hread, hwritten⟩
    constructor <;> omega

theorem Inv.of_run {ε : Type} {stream : SniffedStream ε} {events : List InterruptEvent}
    (hrun : run LiveInterruptRelay.step (start stream down) events = some s) :
    s.Inv stream.bytes down := by
  refine invariant_of_steps (fun _ _ _ hstep hs => hs.step hstep) hrun ⟨?_, rfl, rfl⟩
  exact ⟨⟨Half.copies_start _, rfl⟩, ⟨Half.copies_start _, rfl⟩, nofun, nofun⟩

theorem traffic_of_run {events : List InterruptEvent}
    (hrun : run step ⟨.start up down, {}⟩ events = some s) : s.movedTraffic = traffic events :=
  foldl_of_run (fun _ _ _ hstep => movedTraffic_step hstep) hrun

end LiveInterruptRelay

/-! ### Sessions -/

/-- The sessions with their counters: which ones are registered with the tracker, for which ones
    `handle_udp` has returned, and `live_up`. -/
structure LiveUdp where
  udp : UdpState := {}
  registered : Nat → Bool := fun _ => false
  returned : Nat → Bool := fun _ => false
  liveUp : Nat → Int := fun _ => 0

/-- A step of the system, or `handle_udp` returns to a session. -/
inductive LiveUdpAction where
  | udp (a : UdpAction)
  | returned (id : Nat)

namespace LiveUdp

/-- The payloads that were sent on a session. -/
def payloads (s : UdpState) (id : Nat) : List Bytes :=
  (s.accepted.filter fun a => a.session = id).map fun a => a.packet.data

/-- How many bytes some payloads have together. -/
def sumLengths (payloads : List Bytes) : Nat := (payloads.map List.length).sum

/-- A session that starts is registered if its outbound is there. -/
def register (s : LiveUdp) : UdpAction → Nat → Bool
  | .start id registry _ _ =>
      match s.udp.tasks[id]? with
      | some task => Function.update s.registered id (registry task.key.outboundTag).isSome
      | none => s.registered
  | _ => s.registered

variable (E : Ruleset.Externals)

/-- `run_udp_session` around its outbound: `up_bytes` is the length of the packet it has taken, which is
    added when `handle_udp` has returned. -/
def step (s : LiveUdp) : LiveUdpAction → Option LiveUdp
  | .udp a => (s.udp.step E a).map fun udp => { s with udp, registered := s.register a }
  | .returned id =>
      if s.registered id = true ∧ s.returned id = false then
        let upBytes := ((payloads s.udp id).head?.map List.length).getD 0
        some { s with
          returned := Function.update s.returned id true
          liveUp := Function.update s.liveUp id (s.liveUp id + upBytes) }
      else none

/-- What `live_up` is: the length of the first payload once `handle_udp` has returned. -/
structure Inv (s : LiveUdp) : Prop where
  registered : ∀ id, s.registered id = true → id < s.udp.tasks.length
  returned : ∀ id, s.returned id = true → id < s.udp.tasks.length
  nonempty : ∀ id < s.udp.tasks.length, payloads s.udp id ≠ []
  liveUp : ∀ id, s.liveUp id =
    if s.returned id then (((payloads s.udp id).head?.map List.length).getD 0 : Nat) else 0

variable {E} {s s' : LiveUdp} {udp udp' : UdpState}

/-- One more packet is one more payload of its session. -/
theorem payloads_append {x : Accepted} (haccepted : udp'.accepted = udp.accepted ++ [x]) (id : Nat) :
    payloads udp' id = payloads udp id ++ if x.session = id then [x.packet.data] else [] := by
  unfold payloads
  rw [haccepted, List.filter_append, List.map_append]
  by_cases hid : x.session = id
  · simp [hid]
  · simp [hid]

/-- **What a step of the system leaves**: the sessions that are there stay, with their first payloads, and
    a new one has a payload. -/
theorem payloads_step {a : UdpAction} (hstep : udp.step E a = some udp')
    (hpayloads : ∀ id < udp.tasks.length, payloads udp id ≠ []) :
    udp.tasks.length ≤ udp'.tasks.length ∧ (∀ id < udp'.tasks.length, payloads udp' id ≠ []) ∧
      ∀ id < udp.tasks.length, (payloads udp' id).head? = (payloads udp id).head? := by
  rcases UdpState.packet_or_quiet hstep with ⟨D, packet, replyTx, -, rfl⟩ | hquiet
  · rcases UdpState.acceptPacket_cases E udp D packet replyTx with
      ⟨key, h, -, -, heq⟩ | ⟨key, -, -, heq⟩ | ⟨-, heq⟩
    · rw [heq]
      have happend : ∀ id, payloads (udp.reuse key h packet replyTx) id = _ := payloads_append rfl
      refine ⟨le_rfl, fun id hid hnil => ?_, fun id hid => ?_⟩
      · rw [happend] at hnil
        exact hpayloads id hid (List.append_eq_nil_iff.mp hnil).1
      · rw [happend, List.head?_append_of_ne_nil _ (hpayloads id hid)]
    · rw [heq]
      have happend : ∀ id, payloads
          (udp.openSession key (D.runUdp E packet).item.target packet replyTx) id = _ := payloads_append rfl
      have hlength : (udp.openSession key (D.runUdp E packet).item.target packet replyTx).tasks.length
          = udp.tasks.length + 1 := List.length_append
      rw [hlength]
      refine ⟨Nat.le_succ _, fun id hid hnil => ?_, fun id hid => ?_⟩
      · rw [happend, List.append_eq_nil_iff] at hnil
        rcases Nat.lt_succ_iff_lt_or_eq.mp hid with hold | rfl
        · exact hpayloads id hold hnil.1
        · simp at hnil
      · rw [happend, List.head?_append_of_ne_nil _ (hpayloads id hid)]
    · rw [heq]
      exact ⟨le_rfl, hpayloads, fun _ _ => rfl⟩
  · have hsame : payloads udp' = payloads udp := by
      unfold payloads
      rw [hquiet.accepted]
    rw [hsame, hquiet.length]
    exact ⟨le_rfl, hpayloads, fun _ _ => rfl⟩

theorem Inv.udpStep (hs : s.Inv) {a : UdpAction} {udp : UdpState} (hstep : s.udp.step E a = some udp) :
    Inv { s with udp, registered := s.register a } := by
  obtain ⟨hlength, hnonempty, hhead⟩ := payloads_step hstep hs.nonempty
  refine ⟨fun id hid => ?_, fun id hid => (hs.returned id hid).trans_le hlength, hnonempty, fun id => ?_⟩
  · suffices hlt : id < s.udp.tasks.length from hlt.trans_le hlength
    cases a with
    | start id' registry net fuel =>
      dsimp only [register] at hid
      cases htask : s.udp.tasks[id']? with
      | none =>
        rw [htask] at hid
        exact hs.registered id hid
      | some task =>
        rw [htask] at hid
        by_cases hne : id = id'
        · rw [hne]
          exact (List.getElem?_eq_some_iff.mp htask).1
        · dsimp only at hid
          rw [Function.update_of_ne hne] at hid
          exact hs.registered id hid
    | _ => exact hs.registered id hid
  · rw [hs.liveUp id]
    by_cases hreturned : s.returned id = true
    · rw [if_pos hreturned, if_pos hreturned, hhead id (hs.returned id hreturned)]
    · rw [if_neg hreturned, if_neg hreturned]

theorem Inv.step (hs : s.Inv) {a : LiveUdpAction} (hstep : s.step E a = some s') : s'.Inv := by
  cases a with
  | udp a =>
    obtain ⟨udp, hudp, rfl⟩ := Option.map_eq_some_iff.mp hstep
    exact hs.udpStep hudp
  | returned id =>
    simp only [LiveUdp.step, Option.ite_none_right_eq_some, Option.some.injEq] at hstep
    obtain ⟨⟨hregistered, hreturned⟩, rfl⟩ := hstep
    refine ⟨hs.registered, fun id' hid => ?_, hs.nonempty, fun id' => ?_⟩
    · by_cases hne : id' = id
      · rw [hne]
        exact hs.registered id hregistered
      · simp only [Function.update_of_ne hne] at hid
        exact hs.returned id' hid
    · by_cases hne : id' = id
      · simp [hne, hs.liveUp id, hreturned]
      · simp [hne, hs.liveUp id']

theorem sumLengths_eq_zero_iff (payloads : List Bytes) :
    sumLengths payloads = 0 ↔ ∀ payload ∈ payloads, payload = [] := by
  unfold sumLengths
  rw [List.sum_eq_zero_iff_forall_eq_nat, List.forall_mem_map]
  simp only [List.length_eq_zero_iff]

/-- **The counter of a session** is the sum of its payloads exactly if those are empty that it leaves out:
    all until `handle_udp` has returned, then all but the first. -/
theorem liveUp_eq_sum_iff (hs : s.Inv) {id : Nat} (hid : s.registered id = true) :
    s.liveUp id = sumLengths (payloads s.udp id) ↔
      ∀ payload ∈ (payloads s.udp id).drop (if s.returned id then 1 else 0), payload = [] := by
  rw [← sumLengths_eq_zero_iff, hs.liveUp id]
  by_cases hreturned : s.returned id = true
  · rw [if_pos hreturned, if_pos hreturned]
    cases hpayloads : payloads s.udp id with
    | nil => exact absurd hpayloads (hs.nonempty id (hs.registered id hid))
    | cons first rest =>
      simp only [sumLengths, List.map_cons, List.sum_cons, List.head?_cons, Option.map_some,
        Option.getD_some, List.drop_succ_cons, List.drop_zero]
      omega
  · rw [if_neg hreturned, if_neg hreturned, List.drop_zero]
    norm_cast
    exact eq_comm

theorem Inv.of_run {actions : List LiveUdpAction}
    (hrun : run (LiveUdp.step E) {} actions = some s) : s.Inv :=
  invariant_of_steps (fun _ _ _ hstep hs => hs.step hstep) hrun
    ⟨nofun, nofun, nofun, fun _ => rfl⟩

end LiveUdp

/-! ### The counters of connections and sessions -/

/-- **The live counters.** Behind a stream of a leaf they are right exactly if the client was sent as much as
    it has sent and all of that went on, which without errors is that both streams are of the same length;
    behind a selector, exactly if nothing was moved; and `live_up` of a session is right exactly if the
    payloads that it leaves out are empty. -/
theorem liveCounters_iff (E : Ruleset.Externals) :
    (∀ {ε : Type} (stream : SniffedStream ε) (down : Bytes) (events : List RelayEvent) (s : LiveRelay),
        run LiveRelay.step (.start stream down) events = some s → s.relay.Finished →
          (s.live.Right s.relay.up s.relay.down s.relay.returned ↔
              LiveRelay.Balanced (LiveRelay.traffic events)) ∧
            (s.relay.Clean →
              (LiveRelay.Balanced (LiveRelay.traffic events) ↔ stream.bytes.length = down.length))) ∧
      (∀ {ε : Type} (stream : SniffedStream ε) (down : Bytes) (events : List InterruptEvent)
          (s : LiveInterruptRelay) (ended : Ended),
        run LiveInterruptRelay.step (.start stream down) events = some s → s.relay.ended = some ended →
          (s.live.Right s.relay.up s.relay.down (s.relay.returned ended) ↔
            (LiveInterruptRelay.traffic events).up.read = 0 ∧
              (LiveInterruptRelay.traffic events).down.written = 0)) ∧
      ∀ (actions : List LiveUdpAction) (s : LiveUdp) (id : Nat),
        run (LiveUdp.step E) {} actions = some s → s.registered id = true →
          (s.liveUp id = LiveUdp.sumLengths (LiveUdp.payloads s.udp id) ↔
            ∀ payload ∈ (LiveUdp.payloads s.udp id).drop (if s.returned id then 1 else 0),
              payload = []) := by
  refine ⟨fun stream down events s hrun hfinished => ?_, fun stream down events s ended hrun _ => ?_,
    fun actions s id hrun hid => ?_⟩
  · have hs := LiveRelay.Inv.of_run hrun
    rw [← LiveRelay.traffic_of_run hrun]
    exact ⟨LiveRelay.right_iff hs, LiveRelay.balanced_iff_of_clean hs hfinished⟩
  · rw [← LiveInterruptRelay.traffic_of_run hrun]
    exact LiveInterruptRelay.right_iff (LiveInterruptRelay.Inv.of_run hrun) ended
  · exact LiveUdp.liveUp_eq_sum_iff (LiveUdp.Inv.of_run hrun) hid

/-- A client sends one byte and gets one back, and both sides end. -/
def echo : List RelayEvent :=
  [.up (.read 1), .up (.write 1), .down (.read 1), .down (.write 1), .up .eof, .down .eof]

theorem liveCounters_echo :
    (∃ s, run LiveRelay.step (.start (ε := Unit) ⟨[7], [], none⟩ [8]) echo = some s ∧
        s.live.Right s.relay.up s.relay.down s.relay.returned) ∧
      (∃ s, run LiveInterruptRelay.step (.start (ε := Unit) ⟨[], [], none⟩ []) [.up .eof] = some s ∧
        s.live.Right s.relay.up s.relay.down (s.relay.returned .upload)) ∧
      ∃ s, run (LiveUdp.step .plain) {} ((UdpState.reopened 1).map .udp ++ [.returned 0]) = some s ∧
        s.liveUp 0 ≠ LiveUdp.sumLengths (LiveUdp.payloads s.udp 0) := by
  refine ⟨⟨_, rfl, ?_⟩, ⟨_, rfl, ?_⟩, _, rfl, fun heq => ?_⟩
  · have hright := ((liveCounters_iff .plain).1 (ε := Unit) ⟨[7], [], none⟩ [8] echo _ rfl ⟨rfl, rfl⟩).1
    exact hright.mpr ⟨rfl, rfl, .inl rfl⟩
  · have hright := (liveCounters_iff .plain).2.1 (ε := Unit) ⟨[], [], none⟩ [] [.up .eof] _ .upload rfl rfl
    exact hright.mpr ⟨rfl, rfl⟩
  · have hempty := ((liveCounters_iff .plain).2.2 ((UdpState.reopened 1).map .udp ++ [.returned 0]) _ 0 rfl
      (by decide)).mp heq
    revert hempty
    decide

/-- A client that sends two bytes and is sent one: the counters are the wrong way round.  Behind a selector
    one byte is enough, and a session counts the first of two packets. -/
theorem not_liveCounters :
    (∃ s, run LiveRelay.step (.start (ε := Unit) ⟨[7], [.data ⟨[7], by decide⟩], none⟩ [8])
          (.up (.read 1) :: .up (.write 1) :: echo) = some s ∧ s.relay.Finished ∧ s.relay.Clean ∧
        s.relay.returned = (2, 1) ∧ s.live = ⟨1, 2⟩) ∧
      (∃ s, run LiveInterruptRelay.step (.start (ε := Unit) ⟨[7], [], none⟩ [])
          [.up (.read 1), .up (.write 1), .up .eof] = some s ∧ s.relay.ended = some .upload ∧
        s.relay.returned .upload = (1, 0) ∧ s.live = ⟨0, 1⟩) ∧
      ∃ s, run (LiveUdp.step .plain) {} ((UdpState.reopened 1).map .udp ++ [.returned 0]) = some s ∧
        s.registered 0 = true ∧ s.liveUp 0 = 1 ∧
        LiveUdp.sumLengths (LiveUdp.payloads s.udp 0) = 2 := by
  refine ⟨⟨_, rfl, ⟨rfl, rfl⟩, ⟨rfl, rfl⟩, rfl, rfl⟩, ⟨_, rfl, rfl, rfl, rfl⟩, _, rfl, ?_⟩
  exact ⟨by decide, by decide, by decide⟩

end Reflex.App
