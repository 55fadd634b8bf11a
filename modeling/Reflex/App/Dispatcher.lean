import Reflex.Router.Basic

namespace Reflex.App

open RustStd Ruleset Routing FirstMatch

/-!
# The dispatcher

`app/dispatcher.rs`: what `run_tcp` does with one connection and `run_udp` with one packet, up to
the action that is dispatched.

* a connection is routed once over all rules, once more when a `Sniff` rule fires and once more
  when a `Resolve` rule fires;
* `isFinal_runTcp`, `isFinal_runUdp` — the action that is left is `Outbound` or `DnsOut`, so
  (`dispatch_isFinal`) nothing unreachable is reached.

The FakeIP table, the sniffer and the resolver are fields of `Dispatcher`: the results hold for
whatever they answer.
-/

/-! ### The loop bodies -/

/-- `Dispatcher`, with what it asks the resolver, the sniffer and the outbound manager.  A sniff
    reports its result and the bytes now read ahead. -/
structure Dispatcher where
  router : Router
  lookupFakeip : IpAddr → Option Str
  sniff : InboundTcpStream → Nat → List SniffType → Option SniffResult × Bytes
  resolveDomain : Str → Except Str IpAddr
  resolveDomainVia : Str → Str → Except Str IpAddr
  hasOutbound : Str → Bool

/-- Which rules a routing pass looks at: all, those without `Sniff`, or those without `Sniff` and `Resolve`. -/
inductive Pass where
  | full | afterSniff | afterResolve
  deriving DecidableEq, Repr

/-- A connection or packet `κ` on its way through the loop body: its present state, the decision
    of the last routing pass and the passes so far. -/
structure Routed (κ : Type) where
  item : κ
  decision : RouteAction × Str × Str
  passes : List Pass

/-- The action that the last pass has decided on. -/
def Routed.action {κ : Type} (r : Routed κ) : RouteAction := r.decision.1

namespace Dispatcher

variable (D : Dispatcher)

/-- The FakeIP reverse lookup: an address that was handed out for a domain becomes that domain. -/
def restoreFakeip : Target → Target
  | .domain host port => .domain host port
  | .socket addr =>
      match D.lookupFakeip addr.ip with
      | some domain => .domain domain addr.port
      | none => .socket addr

/-- `resolve_domain_via` for a rule that names a server, else `resolve_domain`. -/
def resolve : Option Str → Str → Except Str IpAddr
  | some tag, host => D.resolveDomainVia host tag
  | none, host => D.resolveDomain host

/-- The target of the pass after resolving: the address, or the target as it is when it is one
    already or the lookup failed. -/
def resolvedTarget (server : Option Str) : Target → Target
  | .domain host port =>
      match D.resolve server host with
      | .ok ip => .socket ⟨ip, port⟩
      | .error _ => .domain host port
  | .socket addr => .socket addr

/-- The `Sniff` handling: `sniffed` updates the item, `reroute` is the pass without `Sniff`
    rules. -/
def sniffStage {κ : Type} (sniffed : Nat → Bool → List SniffType → κ → κ)
    (reroute : κ → RouteAction × Str × Str) (r : Routed κ) : Routed κ :=
  match r.action with
  | .sniff timeoutMs overrideDestination sniffTypes =>
      let item := sniffed timeoutMs overrideDestination sniffTypes r.item
      ⟨item, reroute item, r.passes ++ [.afterSniff]⟩
  | _ => r

/-- The `Resolve` handling: `reroute` is the pass without `Sniff` and `Resolve` rules. -/
def resolveStage {κ : Type} (target : κ → Target)
    (reroute : κ → Target → RouteAction × Str × Str) (r : Routed κ) : Routed κ :=
  match r.action with
  | .resolve server =>
      ⟨r.item, reroute r.item (D.resolvedTarget server (target r.item)), r.passes ++ [.afterResolve]⟩
  | _ => r

end Dispatcher

/-- What a sniff result changes: the protocol if none is known yet, and the target or the sniffed
    domain. -/
def applySniffResult (overrideDestination : Bool) (sniffResult : Option SniffResult)
    (conn : InboundTcpStream) : InboundTcpStream :=
  match sniffResult with
  | none => conn
  | some result =>
      -- the port of the target as it was, also for an overridden domain
      let port := conn.target.port
      let conn :=
        if conn.sniffedProtocol.isNone then { conn with sniffedProtocol := some result.protocol }
        else conn
      match result.domain with
      | some domain =>
          if overrideDestination then { conn with target := .domain domain port }
          else { conn with sniffedDomain := some domain }
      | none => conn

/-- DNS over TCP: on port 53, behind a length of two bytes. -/
def detectTcpDns (conn : InboundTcpStream) : InboundTcpStream :=
  if conn.target.port = 53 ∧ conn.sniffedProtocol.isNone ∧ conn.peeked.length ≥ 14 then
    if isDnsWire (conn.peeked.drop 2) then { conn with sniffedProtocol := some "dns".toList }
    else conn
  else conn

/-- A packet that looks like a DNS message gets the protocol `dns`, unless it has one already. -/
def detectUdpDns (packet : InboundUdpPacket) : InboundUdpPacket :=
  if packet.sniffedProtocol.isNone && isDnsWire packet.data then
    { packet with sniffedProtocol := some "dns".toList }
  else packet

namespace Dispatcher

variable (D : Dispatcher) (E : Externals)

/-- Sniffing a connection, with the destination overridden if the rule says so, and the check for DNS behind it. -/
def sniffTcp (timeoutMs : Nat) (overrideDestination : Bool) (sniffTypes : List SniffType)
    (conn : InboundTcpStream) : InboundTcpStream :=
  -- the DNS check runs behind the sniffer, on what it has read ahead
  let (sniffResult, peeked) := D.sniff conn timeoutMs sniffTypes
  detectTcpDns (applySniffResult overrideDestination sniffResult { conn with peeked })

/-- The first pass over a connection, behind the restoration of a FakeIP address to its name. -/
def firstTcp (conn : InboundTcpStream) : Routed InboundTcpStream :=
  let conn := { conn with target := D.restoreFakeip conn.target }
  -- all rules, `Sniff` and `Resolve` ones included
  ⟨conn, D.router.routeTcp E conn, [.full]⟩

/-- A connection behind the `Sniff` handling. -/
def sniffedTcp (conn : InboundTcpStream) : Routed InboundTcpStream :=
  sniffStage D.sniffTcp (fun conn => D.router.routeTcpAfterSniff E conn conn.target)
    (D.firstTcp E conn)

/-- `Dispatcher::run_tcp`, the body of the loop: the connection and the action handed to
    `dispatch_tcp`. -/
def runTcp (conn : InboundTcpStream) : Routed InboundTcpStream :=
  D.resolveStage InboundTcpStream.target (D.router.routeTcpAfterResolve E) (D.sniffedTcp E conn)

/-- The first pass over a packet, behind the restoration of a FakeIP address and the check for DNS. -/
def firstUdp (packet : InboundUdpPacket) : Routed InboundUdpPacket :=
  let packet := detectUdpDns { packet with target := D.restoreFakeip packet.target }
  ⟨packet, D.router.routeUdp E packet, [.full]⟩

/-- A packet behind the `Sniff` handling: UDP is not sniffed, only routed again. -/
def sniffedUdp (packet : InboundUdpPacket) : Routed InboundUdpPacket :=
  sniffStage (fun _ _ _ packet => packet) (D.router.routeUdpAfterSniff E) (D.firstUdp E packet)

/-- `Dispatcher::run_udp`, the body of the loop up to the action. -/
def runUdp (packet : InboundUdpPacket) : Routed InboundUdpPacket :=
  D.resolveStage InboundUdpPacket.target (D.router.routeUdpAfterResolve E) (D.sniffedUdp E packet)

end Dispatcher

/-- What becomes of a connection or packet. -/
inductive Dispatched where
  | dns
  | outbound (tag : Str)
  | error (msg : Str)
  | dropped (msg : Str)
  | unreachable (msg : Str)
  deriving DecidableEq, Repr

/-- `dispatch_tcp`. -/
def dispatchTcp (D : Dispatcher) : RouteAction → Dispatched
  | .dnsOut => .dns
  | .outbound tag =>
      if D.hasOutbound tag then .outbound tag
      else .error ("outbound '".toList ++ tag ++ "' not found".toList)
  | .sniff .. => .unreachable "Sniff action must not reach dispatch_tcp".toList
  | .resolve _ => .unreachable "Resolve action must not reach dispatch_tcp".toList

/-- `dispatch_udp`. -/
def dispatchUdp (D : Dispatcher) : RouteAction → Dispatched
  | .dnsOut => .dns
  | .outbound tag =>
      if D.hasOutbound tag then .outbound tag
      else .error ("outbound '".toList ++ tag ++ "' not found".toList)
  | .sniff .. =>
      .dropped "Sniff action reached dispatch_udp unexpectedly, dropping packet".toList
  | .resolve _ =>
      .dropped "Resolve action reached dispatch_udp unexpectedly, dropping packet".toList

/-- The outbound step of `run_udp`: a session for an outbound, `dispatch_udp` for the rest. -/
inductive UdpStep where
  | session (tag : Str)
  | dispatch (outcome : Dispatched)
  deriving DecidableEq, Repr

/-- How `run_udp` hands a packet on. -/
def udpStep (D : Dispatcher) : RouteAction → UdpStep
  | .outbound tag => .session tag
  | action => .dispatch (dispatchUdp D action)

/-! ### The stages -/

namespace Dispatcher

variable {D : Dispatcher} {E : Externals} {κ : Type}

theorem sniffStage_of_sniff {sniffed : Nat → Bool → List SniffType → κ → κ}
    {reroute : κ → RouteAction × Str × Str} {r : Routed κ} {timeoutMs : Nat}
    {overrideDestination : Bool} {sniffTypes : List SniffType}
    (h : r.action = .sniff timeoutMs overrideDestination sniffTypes) :
    sniffStage sniffed reroute r
      = ⟨sniffed timeoutMs overrideDestination sniffTypes r.item,
          reroute (sniffed timeoutMs overrideDestination sniffTypes r.item),
          r.passes ++ [.afterSniff]⟩ := by
  rw [sniffStage, h]

theorem sniffStage_of_not_sniff {sniffed : Nat → Bool → List SniffType → κ → κ}
    {reroute : κ → RouteAction × Str × Str} {r : Routed κ} (h : r.action.isSniff = false) :
    sniffStage sniffed reroute r = r := by
  unfold sniffStage
  split
  · rename_i heq
    rw [heq] at h
    cases h
  · rfl

theorem resolveStage_of_resolve {target : κ → Target}
    {reroute : κ → Target → RouteAction × Str × Str} {r : Routed κ} {server : Option Str}
    (h : r.action = .resolve server) :
    D.resolveStage target reroute r
      = ⟨r.item, reroute r.item (D.resolvedTarget server (target r.item)),
          r.passes ++ [.afterResolve]⟩ := by
  rw [resolveStage, h]

/-- Resolving does not touch the connection or packet. -/
theorem resolveStage_item (target : κ → Target) (reroute : κ → Target → RouteAction × Str × Str)
    (r : Routed κ) : (D.resolveStage target reroute r).item = r.item := by
  unfold resolveStage
  split <;> rfl

theorem isSniff_sniffStage {sniffed : Nat → Bool → List SniffType → κ → κ}
    {reroute : κ → RouteAction × Str × Str} (hreroute : ∀ item, (reroute item).1.isSniff = false)
    (r : Routed κ) : (sniffStage sniffed reroute r).action.isSniff = false := by
  unfold sniffStage
  split
  · exact hreroute _
  · rename_i hne
    cases haction : r.action with
    | sniff t o types => exact absurd haction (hne t o types)
    | _ => rfl

theorem isFinal_resolveStage {target : κ → Target}
    {reroute : κ → Target → RouteAction × Str × Str}
    (hreroute : ∀ item tgt, (reroute item tgt).1.IsFinal) (r : Routed κ)
    (hsniff : r.action.isSniff = false) :
    (D.resolveStage target reroute r).action.IsFinal := by
  unfold resolveStage
  split
  · exact hreroute _ _
  · rename_i hne
    -- no pass after resolving: the action was neither `Sniff` nor `Resolve` before the stage
    refine (RouteAction.isFinal_iff _).mpr ⟨hsniff, ?_⟩
    cases haction : r.action with
    | resolve server => exact absurd haction (hne server)
    | _ => rfl

theorem length_passes_sniffStage (sniffed : Nat → Bool → List SniffType → κ → κ)
    (reroute : κ → RouteAction × Str × Str) (r : Routed κ) :
    (sniffStage sniffed reroute r).passes.length ≤ r.passes.length + 1 := by
  unfold sniffStage
  split <;> simp

theorem length_passes_resolveStage (target : κ → Target)
    (reroute : κ → Target → RouteAction × Str × Str) (r : Routed κ) :
    (D.resolveStage target reroute r).passes.length ≤ r.passes.length + 1 := by
  unfold resolveStage
  split <;> simp

/-! ### Only final actions are dispatched -/

theorem isFinal_runTcp (conn : InboundTcpStream) : (D.runTcp E conn).action.IsFinal :=
  isFinal_resolveStage (fun _ _ => D.router.isFinal_routeIndexed_noSniffResolve _ _ _ _) _
    (isSniff_sniffStage (fun _ => D.router.isSniff_routeIndexed_noSniff _ _ _ _) _)

theorem isFinal_runUdp (packet : InboundUdpPacket) : (D.runUdp E packet).action.IsFinal :=
  isFinal_resolveStage (fun _ _ => D.router.isFinal_routeIndexed_noSniffResolve _ _ _ _) _
    (isSniff_sniffStage (fun _ => D.router.isSniff_routeIndexed_noSniff _ _ _ _) _)

theorem length_passes_runTcp (conn : InboundTcpStream) : (D.runTcp E conn).passes.length ≤ 3 :=
  calc (D.runTcp E conn).passes.length
      ≤ (D.sniffedTcp E conn).passes.length + 1 := length_passes_resolveStage _ _ _
    _ ≤ (D.firstTcp E conn).passes.length + 1 + 1 :=
        Nat.succ_le_succ (length_passes_sniffStage _ _ _)

theorem length_passes_runUdp (packet : InboundUdpPacket) :
    (D.runUdp E packet).passes.length ≤ 3 :=
  calc (D.runUdp E packet).passes.length
      ≤ (D.sniffedUdp E packet).passes.length + 1 := length_passes_resolveStage _ _ _
    _ ≤ (D.firstUdp E packet).passes.length + 1 + 1 :=
        Nat.succ_le_succ (length_passes_sniffStage _ _ _)

end Dispatcher

theorem dispatchTcp_ne_unreachable (D : Dispatcher) {action : RouteAction} (h : action.IsFinal)
    (msg : Str) : dispatchTcp D action ≠ .unreachable msg := by
  intro heq
  rcases h with rfl | ⟨tag, rfl⟩
  · cases heq
  · rw [dispatchTcp] at heq
    split at heq <;> cases heq

theorem udpStep_of_isFinal (D : Dispatcher) {action : RouteAction} (h : action.IsFinal) :
    udpStep D action = .dispatch .dns ∨ ∃ tag, udpStep D action = .session tag := by
  rcases h with rfl | ⟨tag, rfl⟩
  · exact .inl rfl
  · exact .inr ⟨tag, rfl⟩

/-- **Only final actions are dispatched.** Whatever the rules, the FakeIP table, the sniffer and
    the resolver, after at most three routing passes the action is `Outbound` or `DnsOut`:
    `dispatch_tcp` reaches no `unreachable!` and `run_udp` drops no packet. -/
theorem dispatch_isFinal (D : Dispatcher) (E : Externals) :
    (∀ conn, (D.runTcp E conn).action.IsFinal ∧ (D.runTcp E conn).passes.length ≤ 3 ∧
      ∀ msg, dispatchTcp D (D.runTcp E conn).action ≠ .unreachable msg) ∧
    (∀ packet, (D.runUdp E packet).action.IsFinal ∧ (D.runUdp E packet).passes.length ≤ 3 ∧
      (udpStep D (D.runUdp E packet).action = .dispatch .dns ∨
        ∃ tag, udpStep D (D.runUdp E packet).action = .session tag)) :=
  ⟨fun conn => ⟨Dispatcher.isFinal_runTcp conn, Dispatcher.length_passes_runTcp conn,
      dispatchTcp_ne_unreachable D (Dispatcher.isFinal_runTcp conn)⟩,
    fun packet => ⟨Dispatcher.isFinal_runUdp packet, Dispatcher.length_passes_runUdp packet,
      udpStep_of_isFinal D (Dispatcher.isFinal_runUdp packet)⟩⟩

end Reflex.App
