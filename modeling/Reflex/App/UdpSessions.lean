import Reflex.App.Dispatcher
import Reflex.Lib.Transition
import Reflex.Outbound.Basic

namespace Reflex.App

open RustStd Ruleset Transition Outbound

/-!
# The dispatcher — UDP sessions

`run_udp` and `run_udp_session` of `app/dispatcher.rs` as a system.  A packet that is routed to an
outbound joins the live session of its flow, or opens one; a session keeps the reply channel and the
target of the packet that opened it, and its replies go through that channel.

* `step` — packets, the tasks of the sessions, the garbage collection and the inbounds that close
  their channels;
* `accepted` records the packets that were accepted, in order, and the session each was given to;
* `replies_reach_flow` — the replies of a flow reach the channel of its last packet as long as no
  packet brings another channel than the sessions of its flow have.
-/

/-! ### The system -/

/-- `UdpSessionKey`. -/
structure UdpSessionKey where
  src : SocketAddr
  targetStr : Str
  outboundTag : Str
  deriving DecidableEq, Repr

/-- `UdpSessionHandle`; `session` is the task that holds the other end of `data_tx`. -/
structure UdpSessionHandle where
  session : Nat
  lastSeen : Nat

/-- What a reply carries through a reply channel. -/
structure Reply where
  data : Bytes
  addr : SocketAddr
  spoofedSrc : SocketAddr
  deriving DecidableEq, Repr

/-- What the task of a session is at: it has not called `handle_udp` yet, its outbound sends replies
    with a source address, or it sends no more. -/
inductive Phase where
  | starting
  | replying (spoofedSrc : SocketAddr)
  | ended
  deriving DecidableEq, Repr

/-- A session task; `receiving` says whether `data_rx` is there, `origin` is the target of the packet
    that opened it, before the FakeIP lookup. -/
structure UdpSessionTask where
  key : UdpSessionKey
  target : Target
  origin : Target
  replyTx : Nat
  receiving : Bool
  phase : Phase
  deriving DecidableEq

/-- A query on its way to the DNS resolver, and the packet it came with. -/
structure DnsQuery where
  packet : InboundUdpPacket
  src : SocketAddr
  target : Target
  replyTx : Nat
  deriving DecidableEq

/-- A packet that was accepted for a flow. -/
structure Accepted where
  key : UdpSessionKey
  packet : InboundUdpPacket
  replyTx : Nat
  session : Nat
  deriving DecidableEq

/-- The session table, the session tasks and the queries; the channels that were closed and what was
    delivered through the open ones. -/
structure UdpState where
  now : Nat := 0
  table : UdpSessionKey → Option UdpSessionHandle := fun _ => none
  tasks : List UdpSessionTask := []
  queries : List DnsQuery := []
  closed : List Nat := []
  delivered : List (Nat × Reply) := []
  accepted : List Accepted := []

/-- A packet comes in, with its reply channel; a session task calls `handle_udp`, its outbound sends
    a reply, `data_rx` is dropped, the outbound is done; a DNS answer arrives; an inbound closes a
    channel; the table is collected; time passes. -/
inductive UdpAction where
  | packet (D : Dispatcher) (packet : InboundUdpPacket) (replyTx : Nat)
  | start (id : Nat) (registry : Registry) (net : Net) (fuel : Nat)
  | reply (id : Nat) (data : Bytes)
  | stopReceiving (id : Nat)
  | finish (id : Nat)
  | answer (query : DnsQuery) (data : Bytes)
  | close (replyTx : Nat)
  | gc
  | tick (elapsed : Nat)

/-- `UDP_TIMEOUT`, in milliseconds. -/
def udpTimeout : Nat := 300000

namespace UdpState

/-- Is a task receiving, that is, is the sender of its data channel not closed? -/
def isReceiving (s : UdpState) (id : Nat) : Bool := s.tasks[id]?.any (·.receiving)

/-- `UdpSessionTable::get_live`. -/
def getLive (s : UdpState) (key : UdpSessionKey) : Option UdpSessionHandle :=
  (s.table key).filter fun h => s.isReceiving h.session

/-- `UdpSessionTable::gc`. -/
def collect (s : UdpState) : UdpState :=
  { s with
    table := fun key => (s.table key).filter fun h =>
      s.isReceiving h.session && s.now - h.lastSeen < udpTimeout * 2 }

/-- A live session is used again: the packet's reply channel is not looked at. -/
def reuse (s : UdpState) (key : UdpSessionKey) (h : UdpSessionHandle)
    (packet : InboundUdpPacket) (replyTx : Nat) : UdpState :=
  { s with
    table := Function.update s.table key (some { h with lastSeen := s.now })
    accepted := s.accepted ++ [⟨key, packet, replyTx, h.session⟩] }

/-- A session is opened with the packet's target and reply channel. -/
def openSession (s : UdpState) (key : UdpSessionKey) (target : Target) (packet : InboundUdpPacket)
    (replyTx : Nat) : UdpState :=
  { s with
    table := Function.update s.table key (some ⟨s.tasks.length, s.now⟩)
    tasks := s.tasks ++ [⟨key, target, packet.target, replyTx, true, .starting⟩]
    accepted := s.accepted ++ [⟨key, packet, replyTx, s.tasks.length⟩] }

/-- A reply goes into a channel; the error of a closed one is ignored. -/
def deliver (s : UdpState) (replyTx : Nat) (reply : Reply) : UdpState :=
  if replyTx ∈ s.closed then s else { s with delivered := s.delivered ++ [(replyTx, reply)] }

/-- The state with one task changed and all else as it was. -/
def setTask (s : UdpState) (id : Nat) (task : UdpSessionTask) : UdpState :=
  { s with tasks := s.tasks.set id task }

end UdpState

/-- The key of the flow of a packet that is routed to an outbound. -/
def flowKey (E : Externals) (D : Dispatcher) (packet : InboundUdpPacket) : Option UdpSessionKey :=
  match udpStep D (D.runUdp E packet).action with
  | .session tag =>
      some ⟨(D.runUdp E packet).item.src, (D.runUdp E packet).item.target.display, tag⟩
  | .dispatch _ => none

namespace UdpState

variable (E : Externals)

/-- `run_udp` on one packet. -/
def acceptPacket (s : UdpState) (D : Dispatcher) (packet : InboundUdpPacket) (replyTx : Nat) :
    UdpState :=
  let item := (D.runUdp E packet).item
  match udpStep D (D.runUdp E packet).action with
  | .session tag =>
      let key : UdpSessionKey := ⟨item.src, item.target.display, tag⟩
      match s.getLive key with
      | some h => s.reuse key h packet replyTx
      | none => s.openSession key item.target packet replyTx
  | .dispatch .dns =>
      { s with queries := s.queries ++ [⟨packet, item.src, item.target, replyTx⟩] }
  | .dispatch _ => s

/-- `run_udp_session`: the outbound is looked up and handles the packet. -/
def startTask (task : UdpSessionTask) (registry : Registry) (net : Net) (fuel : Nat) :
    UdpSessionTask :=
  match (registry task.key.outboundTag).bind (·.replySource registry net fuel task.target) with
  | some spoofedSrc => { task with phase := .replying spoofedSrc }
  | none => { task with receiving := false, phase := .ended }

/-- One step of the system. -/
def step (s : UdpState) : UdpAction → Option UdpState
  | .packet D packet replyTx => some (s.acceptPacket E D packet replyTx)
  | .start id registry net fuel =>
      s.tasks[id]?.bind fun task =>
        if task.phase = .starting then some (s.setTask id (startTask task registry net fuel))
        else none
  | .reply id data =>
      s.tasks[id]?.bind fun task =>
        match task.phase with
        | .replying spoofedSrc => some (s.deliver task.replyTx ⟨data, task.key.src, spoofedSrc⟩)
        | _ => none
  | .stopReceiving id =>
      s.tasks[id]?.map fun task => s.setTask id { task with receiving := false }
  | .finish id => s.tasks[id]?.map fun task => s.setTask id { task with phase := .ended }
  | .answer query data =>
      if query ∈ s.queries then
        some ({ s with queries := s.queries.erase query }.deliver query.replyTx
          ⟨data, query.src, query.target.toSocketAddrLossy⟩)
      else none
  | .close replyTx => some { s with closed := replyTx :: s.closed }
  | .gc => some s.collect
  | .tick elapsed => some { s with now := s.now + elapsed }

/-! ### What a step does -/

variable {E} {s s' : UdpState}

/-- What `run_udp` does with a packet: it goes to the live session of its key, opens a new one, or is a query for the
    DNS. -/
theorem acceptPacket_cases (E : Externals) (s : UdpState) (D : Dispatcher)
    (packet : InboundUdpPacket) (replyTx : Nat) :
    (∃ key h, flowKey E D packet = some key ∧ s.getLive key = some h ∧
      s.acceptPacket E D packet replyTx = s.reuse key h packet replyTx) ∨
    (∃ key, flowKey E D packet = some key ∧ s.getLive key = none ∧
      s.acceptPacket E D packet replyTx
        = s.openSession key (D.runUdp E packet).item.target packet replyTx) ∨
    (flowKey E D packet = none ∧
      s.acceptPacket E D packet replyTx
        = { s with
            queries := s.queries ++ [⟨packet, (D.runUdp E packet).item.src,
              (D.runUdp E packet).item.target, replyTx⟩] }) := by
  rcases udpStep_of_isFinal D (D.isFinal_runUdp (E := E) packet) with hdns | ⟨tag, htag⟩
  · right
    right
    rw [flowKey, acceptPacket, hdns]
    exact ⟨rfl, rfl⟩
  · rw [flowKey, acceptPacket, htag]
    dsimp only
    rcases hlive : s.getLive ⟨(D.runUdp E packet).item.src,
      (D.runUdp E packet).item.target.display, tag⟩ with _ | h
    · exact .inr (.inl ⟨_, rfl, hlive, rfl⟩)
    · exact .inl ⟨_, h, rfl, hlive, rfl⟩

/-- The parts of a task that never change. -/
def SameSession (task task' : UdpSessionTask) : Prop :=
  task'.key = task.key ∧ task'.target = task.target ∧ task'.origin = task.origin ∧
    task'.replyTx = task.replyTx

theorem tasks_setTask {id j : Nat} {task new task' : UdpSessionTask}
    (hid : s.tasks[id]? = some task) (hj : (s.setTask id new).tasks[j]? = some task') :
    (j = id ∧ task' = new) ∨ (j ≠ id ∧ s.tasks[j]? = some task') := by
  by_cases hne : j = id
  · subst hne
    have hlt : j < s.tasks.length := (List.getElem?_eq_some_iff.mp hid).1
    rw [setTask, List.getElem?_set_self hlt] at hj
    exact .inl ⟨rfl, (Option.some.inj hj).symm⟩
  · rw [setTask, List.getElem?_set_ne (Ne.symm hne)] at hj
    exact .inr ⟨hne, hj⟩

/-- What a step that is no packet leaves of a task: the session is the same, and its phase is the
    same, ended, or the one `handle_udp` has just led to. -/
def Continues (a : UdpAction) (id : Nat) (task task' : UdpSessionTask) : Prop :=
  SameSession task task' ∧
    (task'.phase = task.phase ∨ task'.phase = .ended ∨
      ∃ registry net fuel spoofedSrc, a = .start id registry net fuel ∧ task.phase = .starting ∧
        task'.phase = .replying spoofedSrc ∧
        (registry task.key.outboundTag).bind (·.replySource registry net fuel task.target)
          = some spoofedSrc)

theorem Continues.refl (a : UdpAction) (id : Nat) (task : UdpSessionTask) :
    Continues a id task task := ⟨⟨rfl, rfl, rfl, rfl⟩, .inl rfl⟩

theorem continues_setTask {a : UdpAction} {id j : Nat} {task new task' : UdpSessionTask}
    (hid : s.tasks[id]? = some task) (hnew : Continues a id task new)
    (hj : (s.setTask id new).tasks[j]? = some task') :
    ∃ old, s.tasks[j]? = some old ∧ Continues a j old task' := by
  rcases tasks_setTask hid hj with ⟨rfl, rfl⟩ | ⟨-, hj⟩
  · exact ⟨task, hid, hnew⟩
  · exact ⟨task', hj, .refl a j task'⟩

/-- What a step that is no packet leaves as it is: it opens no session and accepts nothing. -/
structure Quiet (a : UdpAction) (s s' : UdpState) : Prop where
  accepted : s'.accepted = s.accepted
  closed : ∀ c ∈ s.closed, c ∈ s'.closed
  table : ∀ key h, s'.table key = some h → s.table key = some h
  queries : ∀ query ∈ s'.queries, query ∈ s.queries
  length : s'.tasks.length = s.tasks.length
  tasks : ∀ (j : Nat) (task' : UdpSessionTask), s'.tasks[j]? = some task' →
    ∃ task, s.tasks[j]? = some task ∧ Continues a j task task'

/-- A step that leaves the tasks alone, and adds nothing to the table and the queries, is a quiet one. -/
theorem quiet_of_tasks (a : UdpAction) (haccepted : s'.accepted = s.accepted)
    (hclosed : ∀ c ∈ s.closed, c ∈ s'.closed)
    (htable : ∀ key h, s'.table key = some h → s.table key = some h)
    (hqueries : ∀ query ∈ s'.queries, query ∈ s.queries) (htasks : s'.tasks = s.tasks) :
    Quiet a s s' where
  accepted := haccepted
  closed := hclosed
  table := htable
  queries := hqueries
  length := by rw [htasks]
  tasks j task' hj := by
    rw [htasks] at hj
    exact ⟨task', hj, .refl a j task'⟩

/-- A step that lets one task go on, and touches nothing else, is a quiet one. -/
theorem quiet_setTask {a : UdpAction} {id : Nat} {task new : UdpSessionTask}
    (hid : s.tasks[id]? = some task) (hnew : Continues a id task new) :
    Quiet a s (s.setTask id new) where
  accepted := rfl
  closed _ hc := hc
  table _ _ hk := hk
  queries _ hq := hq
  length := List.length_set
  tasks _ _ hj := continues_setTask hid hnew hj

theorem quiet_deliver {a : UdpAction} {replyTx : Nat} {reply : Reply}
    {t : UdpState} (h : Quiet a s t) : Quiet a s (t.deliver replyTx reply) := by
  unfold deliver
  split
  · exact h
  · exact ⟨h.accepted, h.closed, h.table, h.queries, h.length, h.tasks⟩

theorem quiet_of_step {a : UdpAction} (h : s.step E a = some s')
    (hpacket : ∀ D packet replyTx, a ≠ .packet D packet replyTx) : Quiet a s s' := by
  have hself : Quiet a s s :=
    quiet_of_tasks a rfl (fun _ hc => hc) (fun _ _ hk => hk) (fun _ hq => hq) rfl
  cases a with
  | packet D packet replyTx => exact absurd rfl (hpacket D packet replyTx)
  | start id registry net fuel =>
      obtain ⟨task, htask, h⟩ := Option.bind_eq_some_iff.mp h
      split at h
      · rename_i hphase
        obtain rfl := Option.some.inj h
        refine quiet_setTask htask ?_
        -- the task dials, or it ends at once since it finds no outbound
        rw [startTask]
        split
        · rename_i spoofedSrc hsource
          exact ⟨⟨rfl, rfl, rfl, rfl⟩,
            .inr (.inr ⟨registry, net, fuel, spoofedSrc, rfl, hphase, rfl, hsource⟩)⟩
        · exact ⟨⟨rfl, rfl, rfl, rfl⟩, .inr (.inl rfl)⟩
      · cases h
  | reply id data =>
      obtain ⟨task, htask, h⟩ := Option.bind_eq_some_iff.mp h
      split at h
      · obtain rfl := Option.some.inj h
        exact quiet_deliver hself
      · cases h
  | stopReceiving id =>
      obtain ⟨task, htask, rfl⟩ := Option.map_eq_some_iff.mp h
      exact quiet_setTask htask ⟨⟨rfl, rfl, rfl, rfl⟩, .inl rfl⟩
  | finish id =>
      obtain ⟨task, htask, rfl⟩ := Option.map_eq_some_iff.mp h
      exact quiet_setTask htask ⟨⟨rfl, rfl, rfl, rfl⟩, .inr (.inl rfl)⟩
  | answer query data =>
      rw [step] at h
      split at h
      · obtain rfl := Option.some.inj h
        refine quiet_deliver (quiet_of_tasks _ rfl (fun _ hc => hc) (fun _ _ hk => hk) ?_ rfl)
        -- the query that is answered is no longer open
        exact fun q hq => List.mem_of_mem_erase hq
      · cases h
  | close replyTx =>
      obtain rfl := Option.some.inj h
      exact quiet_of_tasks _ rfl (fun c hc => List.mem_cons_of_mem _ hc) (fun _ _ hk => hk)
        (fun _ hq => hq) rfl
  | gc =>
      obtain rfl := Option.some.inj h
      exact quiet_of_tasks _ rfl (fun _ hc => hc)
        (fun key h hk => (Option.filter_eq_some_iff.mp hk).1) (fun _ hq => hq) rfl
  | tick elapsed =>
      obtain rfl := Option.some.inj h
      exact quiet_of_tasks _ rfl (fun _ hc => hc) (fun _ _ hk => hk) (fun _ hq => hq) rfl

/-- A step accepts a packet, or leaves what was accepted alone. -/
theorem packet_or_quiet {a : UdpAction} (h : s.step E a = some s') :
    (∃ D packet replyTx, a = .packet D packet replyTx ∧
      s' = s.acceptPacket E D packet replyTx) ∨ Quiet a s s' := by
  by_cases hpacket : ∃ D packet replyTx, a = .packet D packet replyTx
  · obtain ⟨D, packet, replyTx, rfl⟩ := hpacket
    exact .inl ⟨D, packet, replyTx, rfl, (Option.some.inj h).symm⟩
  · exact .inr (quiet_of_step h fun D packet replyTx heq => hpacket ⟨D, packet, replyTx, heq⟩)

/-- A task after a session was opened: an old one or the new one. -/
theorem tasks_openSession {key : UdpSessionKey} {target : Target} {packet : InboundUdpPacket}
    {replyTx j : Nat} {task : UdpSessionTask}
    (h : (s.openSession key target packet replyTx).tasks[j]? = some task) :
    s.tasks[j]? = some task ∨
      (j = s.tasks.length ∧ task = ⟨key, target, packet.target, replyTx, true, .starting⟩) := by
  rw [openSession, List.getElem?_append] at h
  split at h
  · exact .inl h
  · rename_i hge
    obtain ⟨hlt, hget⟩ := List.getElem?_eq_some_iff.mp h
    simp only [List.length_singleton] at hlt
    rw [List.getElem_singleton] at hget
    exact .inr ⟨by omega, hget.symm⟩

/-! ### Where the replies go -/

/-- A task may send replies as long as it has not ended. -/
def mayReply (task : UdpSessionTask) : Prop := task.phase ≠ .ended

/-- What is asked of a reply for a flow: with every packet of the flow whose channel is open, it goes
    into the channel of that packet or of a later one of the flow, if that is open. -/
def ReachesFlow (s s' : UdpState) (key : UdpSessionKey) (reply : Reply) : Prop :=
  ∀ earlier a later, s.accepted = earlier ++ a :: later → a.key = key → a.replyTx ∉ s.closed →
    ∃ a' ∈ a :: later, a'.key = key ∧
      (a'.replyTx ∉ s.closed → s'.delivered = s.delivered ++ [(a'.replyTx, reply)])

/-- Every reply a session can send now reaches its flow. -/
def RepliesReachFlow (E : Externals) (s : UdpState) : Prop :=
  ∀ (id : Nat) data task spoofedSrc s', s.tasks[id]? = some task → task.phase = .replying spoofedSrc →
    s.step E (.reply id data) = some s' →
      s.ReachesFlow s' task.key ⟨data, task.key.src, spoofedSrc⟩

/-- A packet with an open channel finds no session task of its flow that can still reply through
    another channel. -/
def KeepsChannel (E : Externals) (s : UdpState) : UdpAction → Prop
  | .packet D packet replyTx =>
      replyTx ∉ s.closed → ∀ key, flowKey E D packet = some key →
        ∀ task ∈ s.tasks, task.key = key → mayReply task → task.replyTx = replyTx
  | _ => True

/-- The channel of every task that can reply is that of a packet of its flow that is not before any
    packet with an open channel. -/
def ChannelsInv (s : UdpState) : Prop :=
  ∀ (j : Nat) (task : UdpSessionTask), s.tasks[j]? = some task → mayReply task →
    ∀ earlier a later, s.accepted = earlier ++ a :: later → a.key = task.key →
      a.replyTx ∉ s.closed → ∃ a' ∈ a :: later, a'.key = task.key ∧ a'.replyTx = task.replyTx

/-- One more packet: it is the one looked at, or comes behind the one looked at. -/
theorem append_singleton_eq {α : Type} {l earlier later : List α} {x a : α}
    (h : l ++ [x] = earlier ++ a :: later) :
    (later = [] ∧ a = x) ∨ ∃ later', later = later' ++ [x] ∧ l = earlier ++ a :: later' := by
  rcases List.eq_nil_or_concat later with rfl | ⟨later', y, rfl⟩
  · obtain ⟨-, hlast⟩ := List.append_inj' h rfl
    exact .inl ⟨rfl, (List.singleton_inj.mp hlast).symm⟩
  · rw [List.concat_eq_append, ← List.cons_append, ← List.append_assoc] at h
    obtain ⟨hl, hlast⟩ := List.append_inj' h rfl
    obtain rfl := List.singleton_inj.mp hlast
    exact .inr ⟨later', List.concat_eq_append, hl⟩

/-- Accepting a packet for tasks that have its channel, if they are of its flow. -/
theorem channelsInv_append {s s' : UdpState} {x : Accepted} (hinv : s.ChannelsInv)
    (haccepted : s'.accepted = s.accepted ++ [x]) (hclosed : s'.closed = s.closed)
    (htasks : ∀ (j : Nat) (task : UdpSessionTask), s'.tasks[j]? = some task → mayReply task →
      (s.tasks[j]? = some task ∧ (task.key = x.key → x.replyTx ∉ s.closed → task.replyTx = x.replyTx))
        ∨ (task.key = x.key ∧ task.replyTx = x.replyTx)) : s'.ChannelsInv := by
  intro j task hj hreply earlier a later hsplit hkey hopen
  rw [haccepted] at hsplit
  rw [hclosed] at hopen
  rcases htasks j task hj hreply with ⟨hold, hsame⟩ | ⟨hxkey, hxtx⟩
  · rcases append_singleton_eq hsplit with ⟨rfl, rfl⟩ | ⟨later', rfl, hl⟩
    · exact ⟨a, List.mem_cons_self .., hkey, (hsame hkey.symm hopen).symm⟩
    · obtain ⟨a', ha', hkey', htx'⟩ := hinv j task hold hreply earlier a later' hl hkey hopen
      refine ⟨a', ?_, hkey', htx'⟩
      rw [← List.cons_append]
      exact List.mem_append_left _ ha'
  · -- the new session's channel is that of the last packet
    refine ⟨x, ?_, hxkey.symm, hxtx.symm⟩
    rcases append_singleton_eq hsplit with ⟨rfl, rfl⟩ | ⟨later', rfl, -⟩
    · exact List.mem_cons_self ..
    · exact List.mem_cons_of_mem _ (List.mem_append_right _ (List.mem_singleton_self x))

theorem channelsInv_step {a : UdpAction} (h : s.step E a = some s') (hguard : KeepsChannel E s a)
    (hinv : s.ChannelsInv) : s'.ChannelsInv := by
  rcases packet_or_quiet h with ⟨D, packet, replyTx, rfl, rfl⟩ | hquiet
  · rcases acceptPacket_cases E s D packet replyTx with
      ⟨key, hd, hkey, -, heq⟩ | ⟨key, hkey, -, heq⟩ | ⟨-, heq⟩
    · rw [heq]
      refine channelsInv_append hinv rfl rfl fun j task hj hreply => .inl ⟨hj, fun hk hopen => ?_⟩
      exact hguard hopen key hkey task (List.mem_of_getElem? hj) hk hreply
    · rw [heq]
      refine channelsInv_append hinv rfl rfl fun j task hj hreply => ?_
      rcases tasks_openSession hj with hj | ⟨-, rfl⟩
      · refine .inl ⟨hj, fun hk hopen => ?_⟩
        exact hguard hopen key hkey task (List.mem_of_getElem? hj) hk hreply
      · exact .inr ⟨rfl, rfl⟩
    · rw [heq]
      exact hinv
  · intro j task' hj hreply earlier x later hsplit hkey hopen
    obtain ⟨task, htask, ⟨hskey, -, -, hstx⟩, hphase⟩ := hquiet.tasks j task' hj
    -- a task that may reply now could do so before the step
    have hreply' : mayReply task := by
      intro hended
      rcases hphase with hsame | hend | ⟨_, _, _, _, -, hstart, -⟩
      · exact hreply (hsame.trans hended)
      · exact hreply hend
      · rw [hended] at hstart
        cases hstart
    rw [hquiet.accepted] at hsplit
    rw [hskey, hstx]
    rw [hskey] at hkey
    exact hinv j task htask hreply' earlier x later hsplit hkey fun hc => hopen (hquiet.closed _ hc)

/-- **The replies reach their flow.**  In every run in which no packet finds a session of its flow
    that can still reply through another channel than the packet's, every reply goes into the channel
    of the last packets of its flow. -/
theorem replies_reach_flow (E : Externals) {as : List UdpAction} {s : UdpState}
    (hrun : run (step E) {} as = some s) (hguard : Guarded (step E) (KeepsChannel E) {} as) :
    s.RepliesReachFlow E := by
  have hinv : s.ChannelsInv :=
    invariant_of_run (fun _ _ _ hstep hg h => channelsInv_step hstep hg h) hrun hguard
      (fun j task hj => nomatch hj)
  intro id data task spoofedSrc s' htask hphase hstep earlier a later hsplit hkey hopen
  have hreply : mayReply task := by
    intro hended
    rw [hended] at hphase
    cases hphase
  obtain ⟨a', ha', hkey', htx⟩ := hinv id task htask hreply earlier a later hsplit hkey hopen
  refine ⟨a', ha', hkey', fun hopen' => ?_⟩
  rw [step, htask, Option.bind_some, hphase] at hstep
  obtain rfl := Option.some.inj hstep
  rw [htx] at hopen'
  rw [deliver, if_neg hopen', htx]

/-! ### An association that is reopened -/

/-- A dispatcher without rules and without FakeIP addresses. -/
def finalOnly (tag : Str) : Dispatcher where
  router := ⟨[], [], [], .outbound tag, rfl, rfl, .inr ⟨tag, rfl⟩⟩
  lookupFakeip _ := none
  sniff _ _ _ := (none, [])
  resolveDomain _ := .error []
  resolveDomainVia _ _ := .error []
  hasOutbound _ := true

/-- A client's packets to `1.2.3.4:4000`. -/
def examplePacket : InboundUdpPacket where
  data := [1]
  src := ⟨.v4 0x0A000002#32, 5000⟩
  target := .socket ⟨.v4 0x01020304#32, 4000⟩
  inboundTag := "mixed".toList

/-- A registry with a direct outbound. -/
def directOnly : Registry := fun tag =>
  if tag = "direct".toList then some (.leaf (.direct ⟨none, true, 0⟩)) else none

/-- A network without names. -/
def noNames : Net := ⟨fun _ => none, fun _ _ => none, fun _ => none⟩

/-- A session is open, and a second packet of its flow comes in through `second`. -/
def reopened (second : Nat) : List UdpAction :=
  [.packet (finalOnly "direct".toList) examplePacket 1, .start 0 directOnly noNames 1,
    .packet (finalOnly "direct".toList) examplePacket second]

/-- The key of the flow. -/
def exampleKey : UdpSessionKey := ⟨⟨.v4 0x0A000002#32, 5000⟩, "1.2.3.4:4000".toList, "direct".toList⟩

/-- The task of the session. -/
def exampleTask : UdpSessionTask :=
  ⟨exampleKey, examplePacket.target, examplePacket.target, 1, true,
    .replying ⟨.v4 0x01020304#32, 4000⟩⟩

/-- A client's association ends and is opened again from the same port: the session keeps the first
    channel, and its replies do not reach the second. -/
theorem not_replies_reach_flow :
    ∃ s, run (step .plain) {} (reopened 2 ++ [.close 1]) = some s ∧ ¬ s.RepliesReachFlow .plain := by
  obtain ⟨s, hs, htasks, haccepted, hclosed, hdelivered⟩ :
      ∃ s, run (step .plain) {} (reopened 2 ++ [.close 1]) = some s ∧ s.tasks = [exampleTask] ∧
        s.accepted = [⟨exampleKey, examplePacket, 1, 0⟩,
          ⟨exampleKey, examplePacket, 2, 0⟩] ∧ s.closed = [1] ∧ s.delivered = [] :=
    ⟨_, rfl, by decide, by decide, by decide, by decide⟩
  refine ⟨s, hs, fun hreach => ?_⟩
  have htask : s.tasks[0]? = some exampleTask := by rw [htasks]; rfl
  have hstep : s.step .plain (.reply 0 []) = some s := by
    rw [step, htask]
    show some (s.deliver 1 _) = some s
    rw [deliver, hclosed, if_pos (List.mem_singleton_self 1)]
  obtain ⟨a, ha, -, hreached⟩ := hreach 0 [] exampleTask _ s htask rfl hstep
    [⟨exampleKey, examplePacket, 1, 0⟩] ⟨exampleKey, examplePacket, 2, 0⟩ [] haccepted
    rfl (by rw [hclosed]; decide)
  rw [List.mem_singleton.mp ha, hclosed, hdelivered] at hreached
  have := hreached (by decide)
  cases this

/-- The replies of a session whose packets share a channel. -/
theorem replies_reach_flow_same_channel :
    ∃ s, run (step .plain) {} (reopened 1) = some s ∧ s.RepliesReachFlow .plain := by
  obtain ⟨s, hs⟩ : ∃ s, run (step .plain) {} (reopened 1) = some s := ⟨_, rfl⟩
  refine ⟨s, hs, replies_reach_flow .plain hs ⟨fun _ _ _ _ hmem => (nomatch hmem), fun s₁ h₁ => ?_⟩⟩
  refine ⟨trivial, fun s₂ h₂ => ⟨fun _ _ _ task hmem _ _ => ?_, fun _ _ => trivial⟩⟩
  obtain rfl := Option.some.inj h₁
  have htasks : s₂.tasks = [exampleTask] := by
    obtain ⟨t, ht, htasks⟩ : ∃ t, step .plain (acceptPacket .plain {} (finalOnly "direct".toList)
        examplePacket 1) (.start 0 directOnly noNames 1) = some t ∧ t.tasks = [exampleTask] :=
      ⟨_, rfl, by decide⟩
    rw [← Option.some.inj (ht.symm.trans h₂)]
    exact htasks
  rw [htasks] at hmem
  rw [List.mem_singleton.mp hmem]
  rfl

end UdpState

end Reflex.App
