import Reflex.Lib.Sessions
import Reflex.Lib.Transition
import Reflex.Outbound.TuicWire

namespace Reflex.Tuic

open RustStd Sessions

/-!
# TUIC — the UDP flows of one connection

`handle_udp` of `outbound/tuic.rs`.  As with Hysteria2, the flows share a QUIC connection and their
tasks read from it whatever comes first; a datagram is one packet.  The IDs of later packets come
from a counter of the flow that starts where the counter of the outbound is, and goes up with every
packet.

* `guard` — a new ID is not that of a live flow, a later packet goes under the ID of its flow, and a
  task finds a datagram of its own flow;
* `ledger_separate` — in a run whose steps are guarded, flows stay separate;
* `guard_upstream` — short of a wrap of the counters, no packet behind the first is guarded.
-/

/-- Where the receiving task of a flow is. -/
inductive Task where
  /-- not started yet -/
  | starting
  | idle
  | stopped
  deriving DecidableEq

/-- A flow: one call of `handle_udp`. -/
structure Flow where
  sessionId : UInt16
  target : Target
  /-- `next_sid` -/
  nextSid : Option UInt16
  task : Task

def Flow.isLive (flow : Flow) : Bool := flow.task != .stopped

/-- The outbound, what the connection has received, and what was sent and handed to clients. -/
structure State where
  udpSession : UInt16 := 0
  flows : List Flow := []
  inbox : List Bytes := []
  /-- the datagrams sent, with the flow that sent them -/
  sent : List (Nat × Bytes) := []
  /-- the replies handed to the channel of a flow, with the ID of their datagram -/
  replies : List (Nat × UInt16 × Bytes) := []

inductive Event where
  /-- `handle_udp` draws an ID and sends the first packet -/
  | handleUdp (target : Target) (data : Bytes)
  /-- it reads the counter for later packets, if there may be any, and starts the receiving task -/
  | spawn (flow : Nat) (upstream : Bool)
  /-- a later packet of the client is sent -/
  | upstream (flow : Nat) (data : Bytes)
  /-- the server sends a datagram -/
  | arrive (dgram : Bytes)
  /-- the task of a flow gets the next datagram; its reply channel may be closed -/
  | receive (flow : Nat) (isOpen : Bool)
  /-- the task of a flow gets none -/
  | timeout (flow : Nat)

namespace State

variable (c : Credentials)

/-- The task of a flow has got a datagram; `parse_udp_datagram_payload` does not look at its ID. -/
def received (s : State) (f : Nat) (flow : Flow) (isOpen : Bool) (dgram : Bytes) : State :=
  match parseUdpDatagramPayload dgram with
  | none => s
  | some payload =>
      if isOpen then { s with replies := s.replies ++ [(f, datagramId dgram, payload)] }
      else { s with flows := s.flows.set f { flow with task := .stopped } }

/-- One step of the outbound. -/
def step (s : State) : Event → Option State
  | .handleUdp target data =>
      let dgram := buildUdpDatagram c s.udpSession 0 0 1 target data
      some { s with
        udpSession := s.udpSession + 1
        flows := s.flows ++ [⟨s.udpSession, target, none, .starting⟩]
        sent := s.sent ++ [(s.flows.length, dgram)] }
  | .spawn f upstream => do
      let flow ← s.flows[f]?
      if flow.task = .starting then
        let nextSid := if upstream then some s.udpSession else none
        return { s with flows := s.flows.set f { flow with nextSid, task := .idle } }
      else none
  | .upstream f data => do
      let flow ← s.flows[f]?
      let sid ← flow.nextSid
      let dgram := buildUdpDatagram c sid 0 0 1 flow.target data
      return { s with
        flows := s.flows.set f { flow with nextSid := some (sid + 1) }
        sent := s.sent ++ [(f, dgram)] }
  | .arrive dgram => some { s with inbox := s.inbox ++ [dgram] }
  | .receive f isOpen => do
      let flow ← s.flows[f]?
      let dgram ← s.inbox.head?
      if flow.task = .idle then
        return { s with inbox := s.inbox.tail }.received f flow isOpen dgram
      else none
  | .timeout f => do
      let flow ← s.flows[f]?
      if flow.task = .idle then
        return { s with flows := s.flows.set f { flow with task := .stopped } }
      else none

/-- Who has sent and was given what, by the IDs the datagrams carry. -/
def ledger (s : State) : Ledger Nat UInt16 :=
  ofTable Flow.sessionId Flow.isLive s.flows (s.sent.map fun e => (e.1, datagramId e.2))
    (s.replies.map fun e => (e.1, e.2.1))

/-- The condition on a step: a flow is started while its ID is not that of a live flow, a later
    packet goes under the ID of its flow, and the next datagram, if it is a packet at all, is of the
    flow whose task reads it. -/
def guard (s : State) : Event → Bool
  | .handleUdp .. => s.flows.all fun flow => !flow.isLive || flow.sessionId != s.udpSession
  | .upstream f _ => s.flows[f]?.all fun flow => flow.nextSid == some flow.sessionId
  | .receive f _ => s.flows[f]?.all fun flow => s.inbox.head?.all fun dgram =>
      (parseUdpDatagramPayload dgram).isNone || datagramId dgram == flow.sessionId
  | _ => true

variable {c}

theorem separate_received {s : State} (hs : Separate s.ledger) {f : Nat} {flow : Flow}
    (hf : s.flows[f]? = some flow) (isOpen : Bool) {dgram : Bytes}
    (hown : ((parseUdpDatagramPayload dgram).isNone || datagramId dgram == flow.sessionId) = true) :
    Separate (s.received f flow isOpen dgram).ledger := by
  unfold received
  split
  · exact hs
  · rename_i payload hpayload
    rw [hpayload, Option.isNone_some, Bool.false_or] at hown
    have hid : datagramId dgram = flow.sessionId := eq_of_beq hown
    split
    · have hgive := hs.give hf
      show Separate (ofTable _ _ _ _ ((s.replies ++ [(f, datagramId dgram, payload)]).map _))
      rw [List.map_append, hid]
      exact hgive
    · exact hs.set hf rfl fun h => (nomatch h)

/-- A datagram of a flow that carries its ID. -/
theorem separate_send {s : State} (hs : Separate s.ledger) {f : Nat} {flow : Flow}
    (hf : s.flows[f]? = some flow) {dgram : Bytes} (hown : datagramId dgram = flow.sessionId) :
    Separate (ledger { s with sent := s.sent ++ [(f, dgram)] }) := by
  have hmore : ∀ e ∈ [(f, datagramId dgram)], e = (f, flow.sessionId) := by
    intro e he
    rw [List.mem_singleton.mp he, hown]
  have hsend := hs.send hf hmore
  show Separate (ofTable _ _ _ ((s.sent ++ [(f, dgram)]).map _) _)
  rw [List.map_append]
  exact hsend

/-- A new flow under an ID that no live flow has, and its first packet. -/
theorem separate_handleUdp {s s' : State} {target : Target} {data : Bytes} (hs : Separate s.ledger)
    (hguard : s.guard (.handleUdp target data) = true)
    (hstep : s.step c (.handleUdp target data) = some s') : Separate s'.ledger := by
  obtain rfl := Option.some.inj hstep
  have hfree : ∀ flow ∈ s.flows, flow.isLive = true → flow.sessionId ≠ s.udpSession := by
    intro flow hmem hlive
    have hall := List.all_eq_true.mp hguard flow hmem
    rw [hlive] at hall
    simpa using hall
  have happend : Separate (ledger { s with
      flows := s.flows ++ [⟨s.udpSession, target, none, .starting⟩] }) := hs.append hfree
  exact separate_send happend List.getElem?_concat_length (datagramId_build ..)

/-- A later packet under the ID of its flow. -/
theorem separate_upstream {s s' : State} {f : Nat} {data : Bytes} (hs : Separate s.ledger)
    (hguard : s.guard (.upstream f data) = true)
    (hstep : s.step c (.upstream f data) = some s') : Separate s'.ledger := by
  obtain ⟨flow, hf, hstep⟩ := Option.bind_eq_some_iff.mp hstep
  obtain ⟨sid, hsid, hstep⟩ := Option.bind_eq_some_iff.mp hstep
  obtain rfl := Option.some.inj hstep
  have hown : sid = flow.sessionId := by
    rw [State.guard, hf, Option.all_some, hsid, beq_iff_eq, Option.some.injEq] at hguard
    exact hguard
  have hset : Separate (ledger { s with
      flows := s.flows.set f { flow with nextSid := some (sid + 1) } }) := hs.set hf rfl fun h => h
  have hget : (s.flows.set f { flow with nextSid := some (sid + 1) })[f]?
      = some { flow with nextSid := some (sid + 1) } :=
    List.getElem?_set_self (List.getElem?_eq_some_iff.mp hf).1
  exact separate_send hset hget ((datagramId_build ..).trans hown)

/-- **One step** that is guarded keeps the flows separate. -/
theorem separate_step {s s' : State} {e : Event} (hs : Separate s.ledger)
    (hguard : s.guard e = true) (hstep : s.step c e = some s') : Separate s'.ledger := by
  cases e with
  | handleUdp target data => exact separate_handleUdp hs hguard hstep
  | spawn f upstream =>
      obtain ⟨flow, hf, hstep⟩ := Option.bind_eq_some_iff.mp hstep
      split at hstep
      · rename_i hstarting
        obtain rfl := Option.some.inj hstep
        exact hs.set hf rfl fun _ => by rw [Flow.isLive, hstarting]; rfl
      · cases hstep
  | upstream f data => exact separate_upstream hs hguard hstep
  | arrive dgram =>
      obtain rfl := Option.some.inj hstep
      exact hs
  | receive f isOpen =>
      obtain ⟨flow, hf, hstep⟩ := Option.bind_eq_some_iff.mp hstep
      obtain ⟨dgram, hdgram, hstep⟩ := Option.bind_eq_some_iff.mp hstep
      split at hstep
      · obtain rfl := Option.some.inj hstep
        rw [State.guard, hf, hdgram] at hguard
        have hread : Separate (ledger { s with inbox := s.inbox.tail }) := hs
        exact separate_received hread hf isOpen hguard
      · cases hstep
  | timeout f =>
      obtain ⟨flow, hf, hstep⟩ := Option.bind_eq_some_iff.mp hstep
      split at hstep
      · obtain rfl := Option.some.inj hstep
        exact hs.set hf rfl fun h => (nomatch h)
      · cases hstep

/-- **Guarded runs** keep the flows separate. -/
theorem ledger_separate {events : List Event} {s : State}
    (hrun : Transition.run (step c) {} events = some s)
    (hguard : Transition.Guarded (step c) (fun s e => s.guard e = true) {} events) :
    Separate s.ledger :=
  Transition.invariant_of_run (fun _ _ _ hstep hguard hs => separate_step hs hguard hstep) hrun
    hguard ofTable_nil

/-! ### Later packets -/

/-- The IDs of the flows after `n` steps, each of which adds at most one to a counter. -/
def IdsDrawn (n : Nat) (s : State) : Prop :=
  Drawn (fun flow => flow.sessionId.toNat) (fun flow => flow.nextSid.map UInt16.toNat) n s.udpSession.toNat s.flows

/-- A counter goes up until it wraps. -/
theorem toNat_draw {n : Nat} {sid : UInt16} (h : sid.toNat ≤ n) (hn : n < 2 ^ 16 - 1) :
    (sid + 1).toNat = sid.toNat + 1 := by
  rw [UInt16.toNat_add, show (1 : UInt16).toNat = 1 from rfl]
  omega

/-- A step that leaves the counters alone. -/
theorem IdsDrawn.succ {n : Nat} {s : State} (h : s.IdsDrawn n) : s.IdsDrawn (n + 1) :=
  h.mono (Nat.le_succ n) le_rfl (Nat.le_succ_of_le h.counter_le)

/-- A task stops, and its flow has the IDs that it had. -/
theorem IdsDrawn.set_task {n : Nat} {s : State} (h : s.IdsDrawn n) {f : Nat} {flow : Flow}
    (hf : s.flows[f]? = some flow) (task : Task) :
    IdsDrawn n { s with flows := s.flows.set f { flow with task } } :=
  h.set hf rfl (h.lt_later flow (List.mem_of_getElem? hf))

/-- **One step** draws at most one ID. -/
theorem IdsDrawn.step {n : Nat} {s s' : State} {e : Event} (h : s.IdsDrawn n) (hn : n < 2 ^ 16 - 1)
    (hstep : s.step c e = some s') : s'.IdsDrawn (n + 1) := by
  cases e with
  | handleUdp target data =>
      obtain rfl := Option.some.inj hstep
      rw [IdsDrawn]
      dsimp only
      rw [toNat_draw h.counter_le hn]
      exact h.append rfl rfl
  | spawn f upstream =>
      obtain ⟨flow, hf, hstep⟩ := Option.bind_eq_some_iff.mp hstep
      split at hstep
      · obtain rfl := Option.some.inj hstep
        refine h.succ.set hf rfl fun i hi => ?_
        cases upstream with
        | true =>
          -- the counter of the flow starts behind its ID
          obtain rfl := Option.some.inj hi
          exact ⟨h.id_lt flow (List.mem_of_getElem? hf), Nat.le_succ_of_le h.counter_le⟩
        | false => cases hi
      · cases hstep
  | upstream f data =>
      obtain ⟨flow, hf, hstep⟩ := Option.bind_eq_some_iff.mp hstep
      obtain ⟨sid, hsid, hstep⟩ := Option.bind_eq_some_iff.mp hstep
      obtain rfl := Option.some.inj hstep
      obtain ⟨hlt, hle⟩ := h.lt_later flow (List.mem_of_getElem? hf) sid.toNat (by rw [hsid]; rfl)
      refine h.succ.set hf rfl fun i hi => ?_
      obtain rfl := Option.some.inj hi
      rw [toNat_draw hle hn]
      exact ⟨Nat.lt_succ_of_lt hlt, Nat.succ_le_succ hle⟩
  | arrive dgram =>
      obtain rfl := Option.some.inj hstep
      exact h.succ
  | receive f isOpen =>
      obtain ⟨flow, hf, hstep⟩ := Option.bind_eq_some_iff.mp hstep
      obtain ⟨dgram, hdgram, hstep⟩ := Option.bind_eq_some_iff.mp hstep
      split at hstep
      · obtain rfl := Option.some.inj hstep
        unfold received
        split
        · exact h.succ
        · split
          · exact h.succ
          · exact h.succ.set_task hf .stopped
      · cases hstep
  | timeout f =>
      obtain ⟨flow, hf, hstep⟩ := Option.bind_eq_some_iff.mp hstep
      split at hstep
      · obtain rfl := Option.some.inj hstep
        exact h.succ.set_task hf .stopped
      · cases hstep

/-- **Later packets** are never guarded, unless a counter has wrapped. -/
theorem guard_upstream {events : List Event} {s : State}
    (hrun : Transition.run (step c) {} events = some s) (hlen : events.length < 2 ^ 16) {f : Nat}
    {flow : Flow} (hf : s.flows[f]? = some flow) {sid : UInt16} (hsid : flow.nextSid = some sid)
    (data : Bytes) : s.guard (.upstream f data) = false := by
  have hdrawn : s.IdsDrawn (0 + events.length) :=
    Transition.counted_of_run (fun _ _ _ _ hn hstep h => h.step hn hstep) hrun (by omega) drawn_nil
  have hlater : flow.sessionId.toNat ≠ sid.toNat :=
    (hdrawn.ne (List.mem_of_getElem? hf) (by rw [hsid]; rfl)).symm
  rw [guard, hf, Option.all_some, hsid, beq_eq_false_iff_ne, Ne, Option.some.injEq]
  rintro rfl
  exact hlater rfl

end State

end Reflex.Tuic
