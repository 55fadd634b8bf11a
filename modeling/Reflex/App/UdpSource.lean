import Reflex.App.UdpSessions

namespace Reflex.App

open RustStd Ruleset Routing Transition Outbound

/-!
# The dispatcher — where UDP replies come from

A packet of the TPROXY inbound has the address it was sent to as its target, and its client expects
the replies from there.  The dispatcher replaces a FakeIP address by its domain, and the outbounds
make up a source address from that: the direct outbound the address it has resolved, the others and
the DNS path `0.0.0.0`.

* `runUdp_target` — what the dispatcher makes of a packet's target;
* `replies_come_from_target` — the replies come from where the packets were sent to, as long as no
  FakeIP address is involved or the source made up for it happens to be right.
-/

/-- A packet of `run_udp` of `inbound/tproxy.rs`. -/
def tproxyPacket (data : Bytes) (src dst : SocketAddr) (tag : Str) : InboundUdpPacket :=
  { data, src, target := .socket dst, inboundTag := tag }

/-! ### The target of a packet -/

namespace Dispatcher

variable {D : Dispatcher} {E : Externals}

theorem sniffStage_item {κ : Type} (reroute : κ → RouteAction × Str × Str) (r : Routed κ) :
    (sniffStage (fun _ _ _ item => item) reroute r).item = r.item := by
  unfold sniffStage
  split
  · rfl
  · rfl

theorem detectUdpDns_src (packet : InboundUdpPacket) :
    (detectUdpDns packet).src = packet.src := by
  unfold detectUdpDns
  split
  · rfl
  · rfl

theorem detectUdpDns_target (packet : InboundUdpPacket) :
    (detectUdpDns packet).target = packet.target := by
  unfold detectUdpDns
  split
  · rfl
  · rfl

/-- Only the FakeIP lookup changes the target of a packet. -/
theorem runUdp_target (D : Dispatcher) (E : Externals) (packet : InboundUdpPacket) :
    (D.runUdp E packet).item.target = D.restoreFakeip packet.target := by
  rw [runUdp, resolveStage_item, sniffedUdp, sniffStage_item]
  exact detectUdpDns_target _

theorem runUdp_src (D : Dispatcher) (E : Externals) (packet : InboundUdpPacket) :
    (D.runUdp E packet).item.src = packet.src := by
  rw [runUdp, resolveStage_item, sniffedUdp, sniffStage_item]
  exact detectUdpDns_src _

/-- A target that is an address is the packet's own. -/
theorem eq_of_restoreFakeip_socket {target : Target} {addr : SocketAddr}
    (h : D.restoreFakeip target = .socket addr) : target = .socket addr := by
  cases target with
  | domain host port => cases h
  | socket a =>
      rw [restoreFakeip] at h
      split at h
      · cases h
      · exact h

/-- An address stays, or becomes a domain with the same port. -/
theorem restoreFakeip_socket (D : Dispatcher) (dst : SocketAddr) :
    (D.lookupFakeip dst.ip = none ∧ D.restoreFakeip (.socket dst) = .socket dst) ∨
      ∃ domain, D.restoreFakeip (.socket dst) = .domain domain dst.port := by
  rw [restoreFakeip]
  rcases D.lookupFakeip dst.ip with _ | domain
  · exact .inl ⟨rfl, rfl⟩
  · exact .inr ⟨domain, rfl⟩

end Dispatcher

/-! ### The condition -/

/-- Does a leaf, given a domain in place of the address `dst`, still reply from `dst`, or not at all?
    The direct outbound does if the domain resolves to `dst`, the proxies if `dst` is `0.0.0.0`. -/
def leafRestores (net : Net) (target : Target) (dst : SocketAddr) : Leaf → Prop
  | .direct o => ∀ addr, net.resolveTargetWithDns o.hasResolver target = some addr → addr = dst
  | .block => True
  | .proxy o => o.protocol = .socks4 ∨ o.ready = false ∨ dst.ip = .v4 0

namespace UdpState

/-- A packet joins a session that was opened for the same destination, or for an address while its
    own destination is no FakeIP address.  A session that was opened for a FakeIP address is given to
    an outbound that gets along without it, and so is a DNS query. -/
def KeepsSource (E : Externals) (s : UdpState) : UdpAction → Prop
  | .packet D packet _ =>
      ∀ dst, packet.target = .socket dst →
        (∀ key h task, flowKey E D packet = some key → s.getLive key = some h →
          s.tasks[h.session]? = some task →
            task.origin = .socket dst ∨
              ((∃ addr, task.target = .socket addr) ∧ D.lookupFakeip dst.ip = none)) ∧
        (flowKey E D packet = none → D.lookupFakeip dst.ip = none ∨ dst.ip = .v4 0)
  | .start id registry net fuel =>
      ∀ task dst, s.tasks[id]? = some task → task.origin = .socket dst →
        task.target = task.origin ∨
          ∀ ob leaf, registry task.key.outboundTag = some ob →
            selectedLeaf registry fuel ob = some leaf → leafRestores net task.target dst leaf
  | _ => True

/-- What is asked of the replies that can be sent now: to every packet that was given to the session,
    or to the query, they go to its client and come from where it was sent to. -/
def RepliesComeFromTarget (E : Externals) (s : UdpState) : Prop :=
  (∀ id data s' replyTx reply, s.step E (.reply id data) = some s' →
    s'.delivered = s.delivered ++ [(replyTx, reply)] →
      ∀ a ∈ s.accepted, a.session = id → ∀ dst, a.packet.target = .socket dst →
        reply.addr = a.packet.src ∧ reply.spoofedSrc = dst) ∧
  (∀ query data s' replyTx reply, s.step E (.answer query data) = some s' →
    s'.delivered = s.delivered ++ [(replyTx, reply)] → ∀ dst, query.packet.target = .socket dst →
      reply.addr = query.packet.src ∧ reply.spoofedSrc = dst)

/-! ### The invariant -/

/-- What is known of a task: its key has the text of its target, its target is the one it was opened
    for or a domain for that, and its replies come from where it was opened for. -/
structure TaskInv (task : UdpSessionTask) : Prop where
  targetStr : task.key.targetStr = task.target.display
  socket : ∀ addr, task.target = .socket addr → task.origin = .socket addr
  domain : ∀ dst, task.origin = .socket dst →
    task.target = .socket dst ∨ ∃ domain, task.target = .domain domain dst.port
  source : ∀ spoofedSrc dst, task.phase = .replying spoofedSrc → task.origin = .socket dst →
    spoofedSrc = dst

/-- The tasks are in order, and the table, the accepted packets and the queries go with them. -/
structure SourceInv (s : UdpState) : Prop where
  tasks : ∀ (j : Nat) (task : UdpSessionTask), s.tasks[j]? = some task → TaskInv task
  table : ∀ key h, s.table key = some h →
    ∃ task, s.tasks[h.session]? = some task ∧ task.key = key
  accepted : ∀ a ∈ s.accepted, ∃ task, s.tasks[a.session]? = some task ∧
    task.key.src = a.packet.src ∧ ∀ dst, a.packet.target = .socket dst → task.origin = .socket dst
  queries : ∀ query ∈ s.queries, query.src = query.packet.src ∧
    ∀ dst, query.packet.target = .socket dst → query.target.toSocketAddrLossy = dst

variable {E : Externals} {s s' : UdpState}

/-- The session of a key that was found alive. -/
theorem SourceInv.getLive {key : UdpSessionKey} {h : UdpSessionHandle} (hinv : s.SourceInv)
    (hlive : s.getLive key = some h) : ∃ task, s.tasks[h.session]? = some task ∧ task.key = key :=
  hinv.table key h (Option.filter_eq_some_iff.mp hlive).1

/-- A packet that joins a session was sent to where the session was opened for. -/
theorem origin_of_join {D : Dispatcher} {packet : InboundUdpPacket} {replyTx : Nat}
    {key : UdpSessionKey} {h : UdpSessionHandle} {task : UdpSessionTask} {dst : SocketAddr}
    (hinv : s.SourceInv) (hguard : KeepsSource E s (.packet D packet replyTx))
    (hkey : flowKey E D packet = some key) (hlive : s.getLive key = some h)
    (htask : s.tasks[h.session]? = some task) (htaskKey : task.key = key)
    (hdst : packet.target = .socket dst) : task.origin = .socket dst := by
  rcases (hguard dst hdst).1 key h task hkey hlive htask with horigin | ⟨⟨addr, haddr⟩, hfake⟩
  · exact horigin
  · -- neither is a FakeIP address, and the texts of the addresses are the same
    have hitem : (D.runUdp E packet).item.target = .socket dst := by
      rw [D.runUdp_target, hdst, Dispatcher.restoreFakeip, hfake]
    have htext : addr.display = dst.display := by
      have hstr := (hinv.tasks _ task htask).targetStr
      rw [htaskKey, haddr] at hstr
      unfold flowKey at hkey
      split at hkey
      · rw [← Option.some.inj hkey, hitem] at hstr
        exact hstr.symm
      · cases hkey
    rw [← SocketAddr.display_injective htext]
    exact (hinv.tasks _ task htask).socket addr haddr

/-- The task of a new session has the key and the destination that the dispatcher gives the packet. -/
theorem taskInv_open {D : Dispatcher} {packet : InboundUdpPacket} {key : UdpSessionKey}
    (hkey : flowKey E D packet = some key) (replyTx : Nat) :
    TaskInv ⟨key, (D.runUdp E packet).item.target, packet.target, replyTx, true, .starting⟩ where
  targetStr := by
    unfold flowKey at hkey
    split at hkey
    · rw [← Option.some.inj hkey]
    · cases hkey
  socket addr h := by
    exact Dispatcher.eq_of_restoreFakeip_socket ((D.runUdp_target E packet).symm.trans h)
  domain dst h := by
    have htarget := D.runUdp_target E packet
    rw [show packet.target = .socket dst from h] at htarget
    rcases D.restoreFakeip_socket dst with ⟨-, hsame⟩ | ⟨domain, hdomain⟩
    · exact .inl (htarget.trans hsame)
    · exact .inr ⟨domain, htarget.trans hdomain⟩
  source spoofedSrc dst h := nomatch h

theorem src_of_flowKey {D : Dispatcher} {packet : InboundUdpPacket} {key : UdpSessionKey}
    (h : flowKey E D packet = some key) : key.src = packet.src := by
  unfold flowKey at h
  split at h
  · rw [← Option.some.inj h]
    exact D.runUdp_src E packet
  · cases h

/-- A leaf that is given the address itself replies from there. -/
theorem replySource_socket {net : Net} {dst spoofedSrc : SocketAddr} {leaf : Leaf}
    (h : leaf.replySource net (.socket dst) = some spoofedSrc) : spoofedSrc = dst := by
  cases leaf with
  | direct o => exact (Option.some.inj h).symm
  | block => cases h
  | proxy o =>
      rw [Leaf.replySource] at h
      split at h
      · cases h
      · exact (Option.some.inj h).symm

theorem replySource_of_leafRestores {net : Net} {domain : Str} {dst spoofedSrc : SocketAddr}
    {leaf : Leaf} (h : leaf.replySource net (.domain domain dst.port) = some spoofedSrc)
    (hrestores : leafRestores net (.domain domain dst.port) dst leaf) : spoofedSrc = dst := by
  cases leaf with
  | direct o => exact hrestores spoofedSrc h
  | block => cases h
  | proxy o =>
      rw [Leaf.replySource] at h
      split at h
      · cases h
      · rename_i hsends
        simp only [Bool.or_eq_true, decide_eq_true_eq, Bool.not_eq_true', not_or] at hsends
        have hzero : dst.ip = .v4 0 := (hrestores.resolve_left hsends.1).resolve_left hsends.2
        rw [← Option.some.inj h, Target.toSocketAddrLossy, ← hzero]

/-- What `handle_udp` leads to comes from where the session was opened for. -/
theorem taskInv_continues {a : UdpAction} {id : Nat} {task task' : UdpSessionTask}
    (h : TaskInv task) (htask : s.tasks[id]? = some task) (hguard : KeepsSource E s a)
    (hcont : Continues a id task task') : TaskInv task' := by
  obtain ⟨⟨hkey, htarget, horigin, -⟩, hphase⟩ := hcont
  refine ⟨?_, ?_, ?_, ?_⟩
  · rw [hkey, htarget]
    exact h.targetStr
  · rw [htarget, horigin]
    exact h.socket
  · rw [htarget, horigin]
    exact h.domain
  · intro spoofedSrc dst hreply hdst
    rw [horigin] at hdst
    -- the task goes on as before, ends, or dials now and learns its source
    rcases hphase with hsame | hend | ⟨registry, net, fuel, spoofedSrc', rfl, -, hstarted, hsource⟩
    · exact h.source spoofedSrc dst (hsame.symm.trans hreply) hdst
    · rw [hend] at hreply
      cases hreply
    · rw [hstarted] at hreply
      obtain rfl : spoofedSrc' = spoofedSrc := by injection hreply
      obtain ⟨ob, hob, hsource⟩ := Option.bind_eq_some_iff.mp hsource
      obtain ⟨leaf, hleaf, hsource⟩ := Option.bind_eq_some_iff.mp hsource
      -- it dials the destination itself, or a name whose replies the outbound gives its address
      rcases hguard task dst htask hdst with heq | hrestores
      · rw [heq, hdst] at hsource
        exact replySource_socket hsource
      · rcases h.domain dst hdst with hsocket | ⟨domain, hdomain⟩
        · rw [hsocket] at hsource
          exact replySource_socket hsource
        · have hleafRestores := hrestores ob leaf hob hleaf
          rw [hdomain] at hsource hleafRestores
          exact replySource_of_leafRestores hsource hleafRestores

theorem sourceInv_quiet {a : UdpAction} (hinv : s.SourceInv) (hguard : KeepsSource E s a)
    (hquiet : Quiet a s s') : s'.SourceInv := by
  have hforward : ∀ (j : Nat) (task : UdpSessionTask), s.tasks[j]? = some task →
      ∃ task', s'.tasks[j]? = some task' ∧ SameSession task task' := by
    intro j task hj
    have hlt : j < s'.tasks.length := by
      rw [hquiet.length]
      exact (List.getElem?_eq_some_iff.mp hj).1
    obtain ⟨old, hold, hcont⟩ := hquiet.tasks j _ (List.getElem?_eq_getElem hlt)
    obtain rfl : old = task := Option.some.inj (hold.symm.trans hj)
    exact ⟨_, List.getElem?_eq_getElem hlt, hcont.1⟩
  refine ⟨?_, ?_, ?_, ?_⟩
  · intro j task' hj
    obtain ⟨task, htask, hcont⟩ := hquiet.tasks j task' hj
    exact taskInv_continues (hinv.tasks j task htask) htask hguard hcont
  · intro key h hk
    obtain ⟨task, htask, hkey⟩ := hinv.table key h (hquiet.table key h hk)
    obtain ⟨task', htask', hsame⟩ := hforward _ task htask
    exact ⟨task', htask', hsame.1.trans hkey⟩
  · intro x hx
    rw [hquiet.accepted] at hx
    obtain ⟨task, htask, hsrc, horigin⟩ := hinv.accepted x hx
    obtain ⟨task', htask', hkey, -, horigin', -⟩ := hforward _ task htask
    rw [← hkey] at hsrc
    rw [← horigin'] at horigin
    exact ⟨task', htask', hsrc, horigin⟩
  · exact fun query hq => hinv.queries query (hquiet.queries query hq)

/-- A packet that joins a session keeps the invariant, as it has the source of the session's key, and the destination
    that the session was opened for if it names an address. -/
theorem sourceInv_reuse {key : UdpSessionKey} {h : UdpSessionHandle} {packet : InboundUdpPacket}
    {task : UdpSessionTask} (replyTx : Nat) (hinv : s.SourceInv)
    (htask : s.tasks[h.session]? = some task) (hkey : task.key = key)
    (hsrc : key.src = packet.src)
    (horigin : ∀ dst, packet.target = .socket dst → task.origin = .socket dst) :
    (s.reuse key h packet replyTx).SourceInv := by
  refine ⟨hinv.tasks, ?_, ?_, hinv.queries⟩
  · intro key' h' hk
    rcases update_eq_some hk with ⟨rfl, rfl⟩ | ⟨-, hk⟩
    · exact ⟨task, htask, hkey⟩
    · exact hinv.table key' h' hk
  · intro a ha
    rcases List.mem_append.mp ha with ha | ha
    · exact hinv.accepted a ha
    · rw [List.mem_singleton.mp ha]
      exact ⟨task, htask, by rw [hkey, hsrc], horigin⟩

/-- A packet that opens a session keeps the invariant, as the key of the new task has the source of the packet. -/
theorem sourceInv_openSession {key : UdpSessionKey} {target : Target} {packet : InboundUdpPacket}
    {replyTx : Nat} (hinv : s.SourceInv)
    (hnew : TaskInv ⟨key, target, packet.target, replyTx, true, .starting⟩)
    (hsrc : key.src = packet.src) : (s.openSession key target packet replyTx).SourceInv := by
  have hold : ∀ (j : Nat) (task : UdpSessionTask), s.tasks[j]? = some task →
      (s.openSession key target packet replyTx).tasks[j]? = some task := by
    intro j task hj
    rw [openSession, List.getElem?_append_left (List.getElem?_eq_some_iff.mp hj).1]
    exact hj
  have hlast : (s.openSession key target packet replyTx).tasks[s.tasks.length]?
      = some ⟨key, target, packet.target, replyTx, true, .starting⟩ := by
    rw [openSession, List.getElem?_concat_length]
  refine ⟨?_, ?_, ?_, hinv.queries⟩
  · intro j task hj
    rcases tasks_openSession hj with hj | ⟨-, rfl⟩
    · exact hinv.tasks j task hj
    · exact hnew
  · intro key' h' hk
    rcases update_eq_some hk with ⟨rfl, rfl⟩ | ⟨-, hk⟩
    · exact ⟨_, hlast, rfl⟩
    · obtain ⟨task, htask, hkey⟩ := hinv.table key' h' hk
      exact ⟨task, hold _ task htask, hkey⟩
  · intro a ha
    rcases List.mem_append.mp ha with ha | ha
    · obtain ⟨task, htask, hrest⟩ := hinv.accepted a ha
      exact ⟨task, hold _ task htask, hrest⟩
    · rw [List.mem_singleton.mp ha]
      exact ⟨_, hlast, hsrc, fun _ h => h⟩

/-- The source of the answer to a DNS query. -/
theorem toSocketAddrLossy_runUdp {D : Dispatcher} {packet : InboundUdpPacket} {dst : SocketAddr}
    (hdst : packet.target = .socket dst) (h : D.lookupFakeip dst.ip = none ∨ dst.ip = .v4 0) :
    (D.runUdp E packet).item.target.toSocketAddrLossy = dst := by
  rw [D.runUdp_target, hdst]
  rcases D.restoreFakeip_socket dst with ⟨-, hsame⟩ | ⟨domain, hdomain⟩
  · rw [hsame, Target.toSocketAddrLossy]
  · rcases h with hfake | hzero
    · rw [Dispatcher.restoreFakeip, hfake, Target.toSocketAddrLossy]
    · rw [hdomain, Target.toSocketAddrLossy, ← hzero]

theorem sourceInv_step {a : UdpAction} (h : s.step E a = some s') (hguard : KeepsSource E s a)
    (hinv : s.SourceInv) : s'.SourceInv := by
  rcases packet_or_quiet h with ⟨D, packet, replyTx, rfl, rfl⟩ | hquiet
  · rcases acceptPacket_cases E s D packet replyTx with
      ⟨key, hd, hkey, hlive, heq⟩ | ⟨key, hkey, -, heq⟩ | ⟨hnone, heq⟩
    · rw [heq]
      obtain ⟨task, htask, htaskKey⟩ := hinv.getLive hlive
      exact sourceInv_reuse replyTx hinv htask htaskKey (src_of_flowKey hkey)
        fun dst hdst => origin_of_join hinv hguard hkey hlive htask htaskKey hdst
    · rw [heq]
      exact sourceInv_openSession hinv (taskInv_open hkey replyTx) (src_of_flowKey hkey)
    · rw [heq]
      refine ⟨hinv.tasks, hinv.table, hinv.accepted, fun query hq => ?_⟩
      rcases List.mem_append.mp hq with hq | hq
      · exact hinv.queries query hq
      · rw [List.mem_singleton.mp hq]
        exact ⟨D.runUdp_src E packet,
          fun dst hdst => toSocketAddrLossy_runUdp hdst ((hguard dst hdst).2 hnone)⟩
  · exact sourceInv_quiet hinv hguard hquiet

/-- What a step has delivered is the reply that the task has sent. -/
theorem eq_of_deliver {replyTx replyTx' : Nat} {reply reply' : Reply}
    (h : (s.deliver replyTx reply).delivered = s.delivered ++ [(replyTx', reply')]) :
    reply' = reply := by
  unfold deliver at h
  split at h
  · have := congrArg List.length h
    simp at this
  · have hlast := List.append_cancel_left h
    injection hlast with hpair
    injection hpair with _ hreply
    exact hreply.symm

/-- **The replies come from where the packets were sent to**, in every run in which the dispatcher
    puts no domain in the place of a packet's destination, or only for outbounds that get along
    without the destination. -/
theorem replies_come_from_target (E : Externals) {as : List UdpAction} {s : UdpState}
    (hrun : run (step E) {} as = some s) (hguard : Guarded (step E) (KeepsSource E) {} as) :
    s.RepliesComeFromTarget E := by
  have hstart : ({} : UdpState).SourceInv :=
    ⟨fun _ _ h => (nomatch h), fun _ _ h => (nomatch h), fun _ h => (nomatch h),
      fun _ h => (nomatch h)⟩
  have hinv : s.SourceInv :=
    invariant_of_run (fun _ _ _ hstep hg h => sourceInv_step hstep hg h) hrun hguard hstart
  refine ⟨?_, ?_⟩
  · intro id data s' replyTx reply hstep hdelivered a ha hsession dst hdst
    obtain ⟨task, htask, hsrc, horigin⟩ := hinv.accepted a ha
    rw [hsession] at htask
    rw [step, htask, Option.bind_some] at hstep
    split at hstep
    · rename_i spoofedSrc hphase
      obtain rfl := Option.some.inj hstep
      obtain rfl := eq_of_deliver hdelivered
      exact ⟨hsrc, (hinv.tasks id task htask).source spoofedSrc dst hphase (horigin dst hdst)⟩
    · cases hstep
  · intro query data s' replyTx reply hstep hdelivered dst hdst
    rw [step] at hstep
    split at hstep
    · rename_i hmem
      obtain rfl := Option.some.inj hstep
      have hsent := eq_of_deliver (s := { s with queries := s.queries.erase query }) hdelivered
      obtain ⟨hsrc, hsource⟩ := hinv.queries query hmem
      rw [hsent]
      exact ⟨hsrc, hsource dst hdst⟩
    · cases hstep

/-! ### A FakeIP address -/

/-- `198.18.0.1` stands for `example.com`. -/
def fakeOnly (tag : Str) : Dispatcher :=
  { finalOnly tag with
    lookupFakeip := fun ip => if ip = .v4 0xC6120001#32 then some "example.com".toList else none }

/-- The name resolves to `93.184.216.34`. -/
def exampleNames : Net := ⟨fun _ => none, fun _ _ => none, fun _ => some (.v4 0x5DB8D822#32)⟩

/-- A client sends to a FakeIP address: the direct outbound replies from the address of the domain. -/
theorem not_replies_come_from_target :
    ∃ s, run (step .plain) {}
        [.packet (fakeOnly "direct".toList)
          (tproxyPacket [1] ⟨.v4 0x0A000002#32, 5000⟩ ⟨.v4 0xC6120001#32, 4000⟩ "tproxy".toList) 1,
          .start 0 directOnly exampleNames 1] = some s ∧ ¬ s.RepliesComeFromTarget .plain := by
  obtain ⟨s, hs, hphase, haccepted, hclosed⟩ : ∃ s, run (step .plain) {}
        [.packet (fakeOnly "direct".toList)
          (tproxyPacket [1] ⟨.v4 0x0A000002#32, 5000⟩ ⟨.v4 0xC6120001#32, 4000⟩ "tproxy".toList) 1,
          .start 0 directOnly exampleNames 1] = some s ∧
      s.tasks.map (·.phase) = [.replying ⟨.v4 0x5DB8D822#32, 4000⟩] ∧
      s.accepted.map (fun a => (a.packet.target, a.session))
        = [(.socket ⟨.v4 0xC6120001#32, 4000⟩, 0)] ∧ s.closed = [] :=
    ⟨_, rfl, by decide, by decide, rfl⟩
  refine ⟨s, hs, fun hcome => ?_⟩
  obtain ⟨task, htasks, hphase⟩ := List.map_eq_singleton_iff.mp hphase
  obtain ⟨a, haccepted, ha⟩ := List.map_eq_singleton_iff.mp haccepted
  obtain ⟨htarget, hsession⟩ := Prod.mk.inj ha
  have hstep : s.step .plain (.reply 0 []) = some (s.deliver task.replyTx
      ⟨[], task.key.src, ⟨.v4 0x5DB8D822#32, 4000⟩⟩) := by
    rw [step, htasks, List.getElem?_cons_zero, Option.bind_some, hphase]
  have hdelivered : (s.deliver task.replyTx
      ⟨[], task.key.src, ⟨.v4 0x5DB8D822#32, 4000⟩⟩).delivered
        = s.delivered ++ [(task.replyTx, ⟨[], task.key.src, ⟨.v4 0x5DB8D822#32, 4000⟩⟩)] := by
    rw [deliver, hclosed, if_neg List.not_mem_nil]
  have hsource : (⟨.v4 0x5DB8D822#32, 4000⟩ : SocketAddr) = ⟨.v4 0xC6120001#32, 4000⟩ :=
    (hcome.1 0 [] _ _ _ hstep hdelivered a (by rw [haccepted]; exact List.mem_singleton_self a)
      hsession _ htarget).2
  revert hsource
  decide

/-- A packet to an ordinary address that is sent directly: the replies come from there. -/
theorem replies_come_from_target_ordinary :
    ∃ s, run (step .plain) {}
        [.packet (fakeOnly "direct".toList)
          (tproxyPacket [1] ⟨.v4 0x0A000002#32, 5000⟩ ⟨.v4 0x01020304#32, 4000⟩ "tproxy".toList) 1,
          .start 0 directOnly exampleNames 1] = some s ∧ s.RepliesComeFromTarget .plain := by
  obtain ⟨s, hs⟩ : ∃ s, run (step .plain) {}
        [.packet (fakeOnly "direct".toList)
          (tproxyPacket [1] ⟨.v4 0x0A000002#32, 5000⟩ ⟨.v4 0x01020304#32, 4000⟩ "tproxy".toList) 1,
          .start 0 directOnly exampleNames 1] = some s := ⟨_, rfl⟩
  refine ⟨s, hs, replies_come_from_target .plain hs ⟨?_, fun s₁ h₁ => ⟨?_, fun _ _ => trivial⟩⟩⟩
  · intro dst hdst
    refine ⟨fun key h task _ hlive => (nomatch hlive), fun _ => .inl ?_⟩
    injection hdst with hdst
    rw [← hdst]
    decide
  · intro task dst htask _
    left
    obtain rfl := Option.some.inj h₁
    have hsame : ((acceptPacket .plain {} (fakeOnly "direct".toList)
        (tproxyPacket [1] ⟨.v4 0x0A000002#32, 5000⟩ ⟨.v4 0x01020304#32, 4000⟩ "tproxy".toList)
        1).tasks.all fun task => decide (task.target = task.origin)) = true := by
      decide
    exact of_decide_eq_true (List.all_eq_true.mp hsame task (List.mem_of_getElem? htask))

end UdpState

end Reflex.App
