import Reflex.Lib.Sessions
import Reflex.Lib.Transition
import Reflex.Outbound.Hy2Wire

namespace Reflex.Hy2

open RustStd Sessions

/-!
# Hysteria2 — the UDP flows of one connection

`handle_udp` of `outbound/hy2.rs` starts a flow on a QUIC connection that all flows share: it draws a
session ID, sends the first packet, draws another ID for the later packets, and starts a task that
reads datagrams.  Every task reads from the same connection, and a datagram goes to whichever task
comes first.

* `step` — the flows, their tasks and the datagrams of the connection;
* `guard` — a new ID is not that of a live flow, a later packet goes under the ID of its flow, and a
  task that waits for a packet finds one of its own flow;
* `ledger_separate` — in a run whose steps are guarded, flows stay separate;
* `guard_upstream` — short of a wrap of the counter, no packet behind the first is guarded.
-/

/-! ### A task -/

/-- The packet that `recv_udp_reassemble` collects. -/
structure Collecting where
  sessionId : UInt32
  packetId : UInt16
  fragCount : UInt8
  frags : List (Option Bytes)
  received : Nat
  deriving DecidableEq, Repr

/-- Where the receiving task of a flow is. -/
inductive Task where
  /-- not started yet -/
  | starting
  /-- waiting for the first datagram of a packet -/
  | idle
  /-- in `recv_udp_reassemble` -/
  | collecting (c : Collecting)
  | stopped
  deriving DecidableEq, Repr

def Task.isLive : Task → Bool
  | .stopped => false
  | _ => true

/-- What a datagram leads to: the next state of the task, and a reply with the ID it came under. -/
abbrev Received := Task × Option (UInt32 × Bytes)

/-- A first datagram: a whole packet is a reply, a fragment begins a collection, and anything else stops the task. -/
def recvFirst (dgram : Bytes) : Received :=
  match parseUdpFragHeader dgram with
  | .error _ => (.stopped, none)
  | .ok h =>
      if h.fragCount = 1 then (.idle, some (h.sessionId, h.payload))
      else if h.fragId < h.fragCount then
        let frags := (List.replicate h.fragCount.toNat none).set h.fragId.toNat (some h.payload)
        (.collecting ⟨h.sessionId, h.packetId, h.fragCount, frags, 1⟩, none)
      -- the index is out of bounds, and the task panics
      else (.stopped, none)

/-- A datagram while fragments are collected; what does not belong to the packet is dropped. -/
def recvFragment (c : Collecting) (dgram : Bytes) : Received :=
  match parseUdpFragHeader dgram with
  | .error _ => (.collecting c, none)
  | .ok h =>
      if h.sessionId = c.sessionId ∧ h.packetId = c.packetId ∧ h.fragCount = c.fragCount ∧
          c.frags[h.fragId.toNat]? = some none then
        let frags := c.frags.set h.fragId.toNat (some h.payload)
        if c.received + 1 < c.fragCount.toNat then
          (.collecting { c with frags, received := c.received + 1 }, none)
        else (.idle, some (c.sessionId, (frags.filterMap id).flatten))
      else (.collecting c, none)

/-- `read_datagram` has returned `dgram` to the task. -/
def Task.recv (dgram : Bytes) : Task → Option Received
  | .idle => some (recvFirst dgram)
  | .collecting c => some (recvFragment c dgram)
  | .starting => none
  | .stopped => none

/-- `read_datagram` timed out or failed: the task ends, or gives the packet up. -/
def Task.timeout : Task → Option Task
  | .idle => some .stopped
  | .collecting _ => some .idle
  | .starting => none
  | .stopped => none

/-! ### The flows -/

/-- A flow: one call of `handle_udp`. -/
structure Flow where
  sessionId : UInt32
  addr : Str
  /-- `session_id_up` -/
  sessionIdUp : Option UInt32
  task : Task

def Flow.isLive (flow : Flow) : Bool := flow.task.isLive

/-- The outbound, what the connection has received, and what was sent and handed to clients. -/
structure State where
  udpSessionId : UInt32 := 0
  flows : List Flow := []
  inbox : List Bytes := []
  /-- the datagrams sent, with the flow that sent them -/
  sent : List (Nat × Bytes) := []
  /-- the replies handed to the channel of a flow, with the ID of their datagrams -/
  replies : List (Nat × UInt32 × Bytes) := []

inductive Event where
  /-- `handle_udp` draws an ID and sends the first packet -/
  | handleUdp (target : Target) (data : Bytes) (packetId : UInt16)
  /-- it draws the ID of later packets, if there may be any, and starts the receiving task -/
  | spawn (flow : Nat) (upstream : Bool)
  /-- a later packet of the client is sent -/
  | upstream (flow : Nat) (data : Bytes) (packetId : UInt16)
  /-- the server sends a datagram -/
  | arrive (dgram : Bytes)
  /-- the task of a flow gets the next datagram; its reply channel may be closed -/
  | receive (flow : Nat) (isOpen : Bool)
  /-- the task of a flow gets none -/
  | timeout (flow : Nat)

namespace State

/-- The task of a flow has got a datagram. -/
def received (s : State) (f : Nat) (flow : Flow) (isOpen : Bool) : Received → State
  | (task, some reply) =>
      if isOpen then
        { s with flows := s.flows.set f { flow with task }, replies := s.replies ++ [(f, reply)] }
      else { s with flows := s.flows.set f { flow with task := .stopped } }
  | (task, none) => { s with flows := s.flows.set f { flow with task } }

/-- One step of the outbound. -/
def step (s : State) : Event → Option State
  | .handleUdp target data packetId =>
      let addr := targetToAddrStr target
      let dgrams := sendUdpFragmented s.udpSessionId addr data packetId
      some { s with
        udpSessionId := s.udpSessionId + 1
        flows := s.flows ++ [⟨s.udpSessionId, addr, none, .starting⟩]
        sent := s.sent ++ dgrams.map fun dgram => (s.flows.length, dgram) }
  | .spawn f upstream =>
      match s.flows[f]? with
      | some ⟨sessionId, addr, _, .starting⟩ =>
          if upstream then
            some { s with
              udpSessionId := s.udpSessionId + 1
              flows := s.flows.set f ⟨sessionId, addr, some s.udpSessionId, .idle⟩ }
          else some { s with flows := s.flows.set f ⟨sessionId, addr, none, .idle⟩ }
      | _ => none
  | .upstream f data packetId => do
      let flow ← s.flows[f]?
      let sessionIdUp ← flow.sessionIdUp
      let dgrams := sendUdpFragmented sessionIdUp flow.addr data packetId
      return { s with sent := s.sent ++ dgrams.map fun dgram => (f, dgram) }
  | .arrive dgram => some { s with inbox := s.inbox ++ [dgram] }
  | .receive f isOpen => do
      let flow ← s.flows[f]?
      let dgram ← s.inbox.head?
      let got ← flow.task.recv dgram
      return { s with inbox := s.inbox.tail }.received f flow isOpen got
  | .timeout f => do
      let flow ← s.flows[f]?
      let task ← flow.task.timeout
      return { s with flows := s.flows.set f { flow with task } }

/-- Who has sent and was given what, by the IDs the datagrams carry. -/
def ledger (s : State) : Ledger Nat UInt32 :=
  ofTable Flow.sessionId Flow.isLive s.flows (s.sent.map fun e => (e.1, datagramId e.2))
    (s.replies.map fun e => (e.1, e.2.1))

/-! ### The condition -/

/-- What a task that waits for a packet finds is of its own flow. -/
def ownFirst (flow : Flow) (dgram : Bytes) : Bool :=
  match flow.task, parseUdpFragHeader dgram with
  | .idle, .ok h => h.sessionId == flow.sessionId
  | _, _ => true

/-- The condition on a step: a flow is started while its ID is not that of a live flow, a later
    packet goes under the ID of its flow, and the next datagram is of the flow whose task reads
    it. -/
def guard (s : State) : Event → Bool
  | .handleUdp .. => s.flows.all fun flow => !flow.isLive || flow.sessionId != s.udpSessionId
  | .upstream f data _ =>
      data.isEmpty || s.flows[f]?.all fun flow => flow.sessionIdUp == some flow.sessionId
  | .receive f _ => s.flows[f]?.all fun flow => s.inbox.head?.all fun dgram => ownFirst flow dgram
  | _ => true

/-! ### Guarded runs -/

/-- Flows are separate, and a task only collects fragments of its own flow. -/
structure Inv (s : State) : Prop where
  separate : Separate s.ledger
  collecting : ∀ flow ∈ s.flows, ∀ c, flow.task = .collecting c → c.sessionId = flow.sessionId

/-- What the table of flows holds after one of them has changed. -/
theorem collecting_set {flows : List Flow} {f : Nat} {flow : Flow}
    (h : ∀ flow ∈ flows, ∀ c, flow.task = .collecting c → c.sessionId = flow.sessionId)
    (hflow : ∀ c, flow.task = .collecting c → c.sessionId = flow.sessionId) :
    ∀ flow' ∈ flows.set f flow, ∀ c, flow'.task = .collecting c → c.sessionId = flow'.sessionId := by
  intro flow' hmem
  rcases List.mem_or_eq_of_mem_set hmem with hmem | rfl
  · exact h flow' hmem
  · exact hflow

/-- Fragments go with the packet they are collected for. -/
theorem recvFragment_own (c : Collecting) (dgram : Bytes) :
    (∀ reply, (recvFragment c dgram).2 = some reply → reply.1 = c.sessionId) ∧
      ∀ c', (recvFragment c dgram).1 = .collecting c' → c'.sessionId = c.sessionId := by
  unfold recvFragment
  split
  · exact ⟨fun _ h => (nomatch h), fun c' h => by rw [← Task.collecting.inj h]⟩
  · split
    · dsimp only
      split
      · exact ⟨fun _ h => (nomatch h), fun c' h => by rw [← Task.collecting.inj h]⟩
      · exact ⟨fun _ h => by rw [← Option.some.inj h], fun _ h => (nomatch h)⟩
    · exact ⟨fun _ h => (nomatch h), fun c' h => by rw [← Task.collecting.inj h]⟩

/-- A first datagram decides for whom the packet is. -/
theorem recvFirst_own {dgram : Bytes} {sessionId : UInt32}
    (h : ∀ header, parseUdpFragHeader dgram = .ok header → header.sessionId = sessionId) :
    (∀ reply, (recvFirst dgram).2 = some reply → reply.1 = sessionId) ∧
      ∀ c, (recvFirst dgram).1 = .collecting c → c.sessionId = sessionId := by
  unfold recvFirst
  split
  · exact ⟨fun _ h => (nomatch h), fun _ h => (nomatch h)⟩
  · rename_i header hparse
    have hid := h header hparse
    split
    · exact ⟨fun _ h => by rw [← Option.some.inj h]; exact hid, fun _ h => (nomatch h)⟩
    · split
      · exact ⟨fun _ h => (nomatch h), fun c h => by rw [← Task.collecting.inj h]; exact hid⟩
      · exact ⟨fun _ h => (nomatch h), fun _ h => (nomatch h)⟩

/-- **A task** that finds datagrams of its own flow hands out and collects nothing else. -/
theorem recv_own {flow : Flow} {dgram : Bytes} {got : Received}
    (hcollecting : ∀ c, flow.task = .collecting c → c.sessionId = flow.sessionId)
    (hown : ownFirst flow dgram = true) (hgot : flow.task.recv dgram = some got) :
    (∀ reply, got.2 = some reply → reply.1 = flow.sessionId) ∧
      (∀ c, got.1 = .collecting c → c.sessionId = flow.sessionId) ∧ flow.isLive = true := by
  rw [ownFirst] at hown
  rw [Flow.isLive]
  cases htask : flow.task with
  | starting =>
      rw [htask] at hgot
      cases hgot
  | stopped =>
      rw [htask] at hgot
      cases hgot
  | idle =>
      rw [htask] at hgot hown
      obtain rfl := Option.some.inj hgot
      -- the first datagram is one of the flow, so its session is that of the reply
      have hheader : ∀ header, parseUdpFragHeader dgram = .ok header →
          header.sessionId = flow.sessionId := by
        intro header hparse
        rw [hparse] at hown
        exact eq_of_beq hown
      obtain ⟨hreply, hnext⟩ := recvFirst_own hheader
      exact ⟨hreply, hnext, rfl⟩
  | collecting c =>
      rw [htask] at hgot
      obtain rfl := Option.some.inj hgot
      -- a collection keeps the session that it began with
      have hc := hcollecting c htask
      obtain ⟨hreply, hnext⟩ := recvFragment_own c dgram
      exact ⟨fun reply h => (hreply reply h).trans hc, fun c' h => (hnext c' h).trans hc, rfl⟩

theorem sendUdpFragmented_nil (sessionId : UInt32) (addr : Str) (packetId : UInt16) :
    sendUdpFragmented sessionId addr [] packetId = [] := rfl

/-- Datagrams of a flow that carry its ID. -/
theorem separate_send {s : State} (hs : Separate s.ledger) {f : Nat} {flow : Flow}
    (hf : s.flows[f]? = some flow) {dgrams : List Bytes}
    (hown : ∀ dgram ∈ dgrams, datagramId dgram = flow.sessionId) :
    Separate (ledger { s with sent := s.sent ++ dgrams.map fun dgram => (f, dgram) }) := by
  have hmore : ∀ e ∈ (dgrams.map fun dgram => (f, dgram)).map fun e => (e.1, datagramId e.2),
      e = (f, flow.sessionId) := by
    intro e he
    rw [List.map_map] at he
    obtain ⟨dgram, hdgram, rfl⟩ := List.mem_map.mp he
    show (f, datagramId dgram) = (f, flow.sessionId)
    rw [hown dgram hdgram]
  have hsend := hs.send hf hmore
  rw [← List.map_append] at hsend
  exact hsend

theorem Inv.received {s : State} (hs : s.Inv) {f : Nat} {flow : Flow} (hf : s.flows[f]? = some flow)
    (hlive : flow.isLive = true) {got : Received} (isOpen : Bool)
    (hreply : ∀ reply, got.2 = some reply → reply.1 = flow.sessionId)
    (hnext : ∀ c, got.1 = .collecting c → c.sessionId = flow.sessionId) :
    (s.received f flow isOpen got).Inv := by
  have hset : ∀ task, Separate (ofTable Flow.sessionId Flow.isLive
      (s.flows.set f { flow with task }) (s.sent.map fun e => (e.1, datagramId e.2))
      (s.replies.map fun e => (e.1, e.2.1))) :=
    fun task => hs.separate.set hf rfl fun _ => hlive
  obtain ⟨task, _ | ⟨sessionId, payload⟩⟩ := got
  · exact ⟨hset task, collecting_set hs.collecting hnext⟩
  · obtain rfl : sessionId = flow.sessionId := hreply _ rfl
    cases isOpen with
    | false => exact ⟨hset .stopped, collecting_set hs.collecting fun c h => (nomatch h)⟩
    | true =>
        refine ⟨?_, collecting_set hs.collecting hnext⟩
        have hget : (s.flows.set f { flow with task })[f]? = some { flow with task } :=
          List.getElem?_set_self (List.getElem?_eq_some_iff.mp hf).1
        have hgive := (hset task).give hget
        show Separate (ofTable _ _ _ _ ((s.replies ++ [(f, flow.sessionId, payload)]).map _))
        rw [List.map_append]
        exact hgive

/-- A new flow under an ID that no live flow has, and its first packet. -/
theorem Inv.handleUdp {s s' : State} {target : Target} {data : Bytes} {packetId : UInt16}
    (hs : s.Inv) (hguard : s.guard (.handleUdp target data packetId) = true)
    (hstep : s.step (.handleUdp target data packetId) = some s') : s'.Inv := by
  obtain rfl := Option.some.inj hstep
  have hfree : ∀ flow ∈ s.flows, flow.isLive = true → flow.sessionId ≠ s.udpSessionId := by
    intro flow hmem hlive
    have hall := List.all_eq_true.mp hguard flow hmem
    rw [hlive] at hall
    simpa using hall
  refine ⟨?_, fun flow hmem c hc => ?_⟩
  · have happend : Separate (ledger { s with
        flows := s.flows ++ [⟨s.udpSessionId, targetToAddrStr target, none, .starting⟩] }) :=
      hs.separate.append hfree
    exact separate_send happend List.getElem?_concat_length fun _ => datagramId_of_mem
  · rcases List.mem_append.mp hmem with hmem | hmem
    · exact hs.collecting flow hmem c hc
    · obtain rfl := List.mem_singleton.mp hmem
      cases hc

/-- A receiving task that starts keeps the invariant. -/
theorem Inv.spawn {s s' : State} {f : Nat} {upstream : Bool} (hs : s.Inv)
    (hstep : s.step (.spawn f upstream) = some s') : s'.Inv := by
  simp only [State.step] at hstep
  split at hstep
  · rename_i sessionId addr sessionIdUp hf
    have hset : ∀ sessionIdUp', Separate (ledger { s with
        flows := s.flows.set f ⟨sessionId, addr, sessionIdUp', .idle⟩ }) :=
      fun _ => hs.separate.set hf rfl fun _ => rfl
    have hidle : ∀ c, Task.idle = .collecting c → c.sessionId = sessionId := fun c h => (nomatch h)
    split at hstep
    · obtain rfl := Option.some.inj hstep
      exact ⟨hset _, collecting_set hs.collecting hidle⟩
    · obtain rfl := Option.some.inj hstep
      exact ⟨hset _, collecting_set hs.collecting hidle⟩
  · cases hstep

/-- A later packet under the ID of its flow. -/
theorem Inv.upstream {s s' : State} {f : Nat} {data : Bytes} {packetId : UInt16} (hs : s.Inv)
    (hguard : s.guard (.upstream f data packetId) = true)
    (hstep : s.step (.upstream f data packetId) = some s') : s'.Inv := by
  obtain ⟨flow, hf, hstep⟩ := Option.bind_eq_some_iff.mp hstep
  obtain ⟨sessionIdUp, hup, hstep⟩ := Option.bind_eq_some_iff.mp hstep
  obtain rfl := Option.some.inj hstep
  refine ⟨separate_send hs.separate hf fun dgram hdgram => ?_, hs.collecting⟩
  rcases Bool.or_eq_true_iff.mp hguard with hempty | hown
  · -- an empty packet makes no datagram
    rw [List.isEmpty_iff.mp hempty, sendUdpFragmented_nil] at hdgram
    cases hdgram
  · rw [hf, Option.all_some, hup, beq_iff_eq, Option.some.injEq] at hown
    rw [← hown]
    exact datagramId_of_mem hdgram

/-- A datagram for the task that waits for it. -/
theorem Inv.receive {s s' : State} {f : Nat} {isOpen : Bool} (hs : s.Inv)
    (hguard : s.guard (.receive f isOpen) = true)
    (hstep : s.step (.receive f isOpen) = some s') : s'.Inv := by
  obtain ⟨flow, hf, hstep⟩ := Option.bind_eq_some_iff.mp hstep
  obtain ⟨dgram, hdgram, hstep⟩ := Option.bind_eq_some_iff.mp hstep
  obtain ⟨got, hgot, hstep⟩ := Option.bind_eq_some_iff.mp hstep
  obtain rfl := Option.some.inj hstep
  have hown : ownFirst flow dgram = true := by
    rw [State.guard, hf, hdgram] at hguard
    exact hguard
  obtain ⟨hreply, hnext, hlive⟩ :=
    recv_own (hs.collecting flow (List.mem_of_getElem? hf)) hown hgot
  have hread : Inv { s with inbox := s.inbox.tail } := ⟨hs.separate, hs.collecting⟩
  exact hread.received hf hlive isOpen hreply hnext

/-- A task that has waited too long was live, and does not collect any more. -/
theorem timeout_spec {task task' : Task} (h : task.timeout = some task') :
    task.isLive = true ∧ ∀ c, task' ≠ .collecting c := by
  cases task with
  | starting => cases h
  | idle =>
      obtain rfl := Option.some.inj h
      exact ⟨rfl, fun c h => (nomatch h)⟩
  | collecting c =>
      obtain rfl := Option.some.inj h
      exact ⟨rfl, fun c h => (nomatch h)⟩
  | stopped => cases h

/-- **One step** that is guarded keeps the flows separate. -/
theorem Inv.step {s s' : State} {e : Event} (hs : s.Inv) (hguard : s.guard e = true)
    (hstep : s.step e = some s') : s'.Inv := by
  cases e with
  | handleUdp target data packetId => exact hs.handleUdp hguard hstep
  | spawn f upstream => exact hs.spawn hstep
  | upstream f data packetId => exact hs.upstream hguard hstep
  | arrive dgram =>
      obtain rfl := Option.some.inj hstep
      exact ⟨hs.separate, hs.collecting⟩
  | receive f isOpen => exact hs.receive hguard hstep
  | timeout f =>
      obtain ⟨flow, hf, hstep⟩ := Option.bind_eq_some_iff.mp hstep
      obtain ⟨task, htask, hstep⟩ := Option.bind_eq_some_iff.mp hstep
      obtain rfl := Option.some.inj hstep
      obtain ⟨hlive, hne⟩ := timeout_spec htask
      refine ⟨hs.separate.set hf rfl fun _ => hlive, collecting_set hs.collecting fun c hc => ?_⟩
      exact absurd hc (hne c)

theorem inv_start : Inv {} := ⟨ofTable_nil, fun _ h => (nomatch h)⟩

/-- **Guarded runs** keep the flows separate. -/
theorem ledger_separate {events : List Event} {s : State}
    (hrun : Transition.run step {} events = some s)
    (hguard : Transition.Guarded step (fun s e => s.guard e = true) {} events) :
    Separate s.ledger :=
  (Transition.invariant_of_run (fun _ _ _ hstep hguard hs => hs.step hguard hstep) hrun hguard
    inv_start).separate

/-! ### Later packets -/

/-- The IDs of the flows after `n` steps, each of which draws one at most. -/
def IdsDrawn (n : Nat) (s : State) : Prop :=
  Drawn (fun flow => flow.sessionId.toNat) (fun flow => flow.sessionIdUp.map UInt32.toNat) n
    s.udpSessionId.toNat s.flows

/-- The counter goes up until it wraps. -/
theorem IdsDrawn.toNat_draw {n : Nat} {s : State} (h : s.IdsDrawn n) (hn : n < 2 ^ 32 - 1) :
    (s.udpSessionId + 1).toNat = s.udpSessionId.toNat + 1 := by
  have hcounter := h.counter_le
  rw [UInt32.toNat_add, show (1 : UInt32).toNat = 1 from rfl]
  omega

/-- A step that draws no ID keeps the IDs drawn, with one step more. -/
theorem IdsDrawn.succ {n : Nat} {s : State} (h : s.IdsDrawn n) : s.IdsDrawn (n + 1) :=
  h.mono (Nat.le_succ n) le_rfl (Nat.le_succ_of_le h.counter_le)

/-- A task goes on, and its flow has the IDs that it had. -/
theorem IdsDrawn.set_task {n : Nat} {s : State} (h : s.IdsDrawn n) {f : Nat} {flow : Flow}
    (hf : s.flows[f]? = some flow) (task : Task) :
    IdsDrawn n { s with flows := s.flows.set f { flow with task } } :=
  h.set hf rfl (h.lt_later flow (List.mem_of_getElem? hf))

theorem IdsDrawn.received {n : Nat} {s : State} (h : s.IdsDrawn n) {f : Nat} {flow : Flow}
    (hf : s.flows[f]? = some flow) (isOpen : Bool) (got : Received) : (s.received f flow isOpen got).IdsDrawn n := by
  obtain ⟨task, _ | reply⟩ := got
  · exact h.set_task hf task
  · cases isOpen with
    | false => exact h.set_task hf .stopped
    | true => exact h.set_task hf task

/-- **One step** draws at most one ID. -/
theorem IdsDrawn.step {n : Nat} {s s' : State} {e : Event} (h : s.IdsDrawn n) (hn : n < 2 ^ 32 - 1)
    (hstep : s.step e = some s') : s'.IdsDrawn (n + 1) := by
  have hdraw := h.toNat_draw hn
  cases e with
  | handleUdp target data packetId =>
      obtain rfl := Option.some.inj hstep
      rw [IdsDrawn]
      dsimp only
      rw [hdraw]
      exact h.append rfl rfl
  | spawn f upstream =>
      simp only [State.step] at hstep
      split at hstep
      · rename_i sessionId addr sessionIdUp hf
        split at hstep
        · -- the ID for later packets is drawn behind that of the flow
          obtain rfl := Option.some.inj hstep
          have hmore := h.mono (Nat.le_succ n) (Nat.le_succ _) (Nat.succ_le_succ h.counter_le)
          rw [IdsDrawn]
          dsimp only
          rw [hdraw]
          refine hmore.set hf rfl fun i hi => ?_
          obtain rfl := Option.some.inj hi
          exact ⟨h.id_lt _ (List.mem_of_getElem? hf), Nat.le_succ_of_le h.counter_le⟩
        · obtain rfl := Option.some.inj hstep
          exact h.succ.set hf rfl fun i hi => nomatch hi
      · cases hstep
  | upstream f data packetId =>
      obtain ⟨flow, hf, hstep⟩ := Option.bind_eq_some_iff.mp hstep
      obtain ⟨sessionIdUp, hup, hstep⟩ := Option.bind_eq_some_iff.mp hstep
      obtain rfl := Option.some.inj hstep
      exact h.succ
  | arrive dgram =>
      obtain rfl := Option.some.inj hstep
      exact h.succ
  | receive f isOpen =>
      obtain ⟨flow, hf, hstep⟩ := Option.bind_eq_some_iff.mp hstep
      obtain ⟨dgram, hdgram, hstep⟩ := Option.bind_eq_some_iff.mp hstep
      obtain ⟨got, hgot, hstep⟩ := Option.bind_eq_some_iff.mp hstep
      obtain rfl := Option.some.inj hstep
      -- the datagram is taken from the inbox, and the flow goes on with what it got
      have hread : IdsDrawn (n + 1) { s with inbox := s.inbox.tail } := h.succ
      exact hread.received hf isOpen got
  | timeout f =>
      obtain ⟨flow, hf, hstep⟩ := Option.bind_eq_some_iff.mp hstep
      obtain ⟨task, htask, hstep⟩ := Option.bind_eq_some_iff.mp hstep
      obtain rfl := Option.some.inj hstep
      exact h.succ.set_task hf task

/-- **Later packets** are never guarded, unless they are empty or the counter has wrapped. -/
theorem guard_upstream {events : List Event} {s : State}
    (hrun : Transition.run step {} events = some s) (hlen : events.length < 2 ^ 32) {f : Nat}
    {flow : Flow} (hf : s.flows[f]? = some flow) {sid : UInt32} (hsid : flow.sessionIdUp = some sid)
    (data : Bytes) (packetId : UInt16) : s.guard (.upstream f data packetId) = data.isEmpty := by
  have hdrawn : s.IdsDrawn (0 + events.length) :=
    Transition.counted_of_run (fun _ _ _ _ hn hstep h => h.step hn hstep) hrun (by omega) drawn_nil
  have hlater : flow.sessionId.toNat ≠ sid.toNat :=
    (hdrawn.ne (List.mem_of_getElem? hf) (by rw [hsid]; rfl)).symm
  have hne : (some sid == some flow.sessionId) = false := by
    rw [beq_eq_false_iff_ne, Ne, Option.some.injEq]
    rintro rfl
    exact hlater rfl
  rw [guard, hf, Option.all_some, hsid, hne, Bool.or_false]

end State

end Reflex.Hy2
