import Reflex.App.Dispatcher

namespace Reflex.App

open RustStd Ruleset Routing FirstMatch

/-!
# The dispatcher — what the later passes decide

A connection that meets a `Sniff` or a `Resolve` rule is routed again.

* `runTcp_action_of_resolve` — the pass after resolving starts over from the first rule, so it
  decides like the rules behind the `Resolve` rule exactly when the ones before it do not
  interfere (`runTcp_eq_later_iff`);
* `sniffedTcp_eq_domain_iff` — the pass after sniffing without override looks at the original
  target, so it decides like a pass over the sniffed domain exactly when the rules do not tell
  the two apart.
-/

namespace Dispatcher

variable (D : Dispatcher) (E : Externals)

/-- Does a rule match a connection with the given target? -/
def tcpMatches (conn : InboundTcpStream) (target : Target) (r : CompiledRule) : Bool :=
  r.matches E conn.inboundTag (some .tcp) target conn.sniffedProtocol

/-- The index of the rule that fires for a connection, before anything is resolved: the first
    matching one, and after sniffing the first matching one that is no `Sniff` rule. -/
def firingIndex (conn : InboundTcpStream) : Option Nat :=
  D.router.rules.findIdx? fun r =>
    (!(D.firstTcp E conn).action.isSniff || r.noSniff) &&
      tcpMatches E (D.sniffedTcp E conn).item (D.sniffedTcp E conn).item.target r

/-- The action of the first plain rule behind index `i` that matches `target`, or the `final`
    action. -/
def laterAction (conn : InboundTcpStream) (target : Target) (i : Nat) : RouteAction :=
  firstMatch (tcpMatches E conn target) CompiledRule.action D.router.default
    ((D.router.rules.drop (i + 1)).filter CompiledRule.noSniffResolve)

/-- The first plain rule before index `i` that matches `target`. -/
def earlierRule (conn : InboundTcpStream) (target : Target) (i : Nat) : Option CompiledRule :=
  ((D.router.rules.take i).filter CompiledRule.noSniffResolve).find? (tcpMatches E conn target)

variable {D E}

/-- After sniffing, the rules without the `Sniff` ones are searched. -/
theorem sniffedTcp_action_of_sniff {conn : InboundTcpStream}
    (hsniff : (D.firstTcp E conn).action.isSniff = true) :
    (D.sniffedTcp E conn).action
      = firstMatch (tcpMatches E (D.sniffedTcp E conn).item (D.sniffedTcp E conn).item.target)
          CompiledRule.action D.router.default (D.router.rules.filter CompiledRule.noSniff) := by
  -- `isSniff` leaves one constructor; its arguments are needed to name the stage's result
  rcases haction : (D.firstTcp E conn).action with tag | _ | ⟨t, o, types⟩ | server
  case sniff =>
    have hstage : (D.sniffedTcp E conn).action
        = (D.router.routeTcpAfterSniff E (D.sniffedTcp E conn).item
            (D.sniffedTcp E conn).item.target).1 := by
      rw [sniffedTcp, sniffStage_of_sniff haction]
      rfl
    rw [hstage]
    exact D.router.routeIndexed_noSniff_fst _ _ _ _
  all_goals
    rw [haction] at hsniff
    cases hsniff

/-- The passes before resolving decide for the rule that fires. -/
theorem sniffedTcp_action_of_firingIndex {conn : InboundTcpStream} {i : Nat} {rule : CompiledRule}
    (hfire : D.firingIndex E conn = some i) (hrule : D.router.rules[i]? = some rule) :
    (D.sniffedTcp E conn).action = rule.action := by
  have hfind : D.router.rules.find? (fun r =>
      (!(D.firstTcp E conn).action.isSniff || r.noSniff) &&
        tcpMatches E (D.sniffedTcp E conn).item (D.sniffedTcp E conn).item.target r)
        = some rule := by
    rw [List.find?_eq_bind_findIdx?_getElem?, ← firingIndex, hfire, Option.bind_some, hrule]
  rcases hsniff : (D.firstTcp E conn).action.isSniff with _ | _
  · -- no `Sniff` rule fired: the first pass is also the last, over all rules
    have hsame : D.sniffedTcp E conn = D.firstTcp E conn := sniffStage_of_not_sniff hsniff
    simp only [hsniff, hsame, Bool.not_false, Bool.true_or, Bool.true_and] at hfind
    have hfirst : (D.firstTcp E conn).action
        = firstMatch (tcpMatches E (D.firstTcp E conn).item (D.firstTcp E conn).item.target)
            CompiledRule.action D.router.default D.router.rules :=
      D.router.route_fst _ _ _ _
    rw [hsame, hfirst, firstMatch, hfind]
    rfl
  · simp only [hsniff, Bool.not_true, Bool.false_or] at hfind
    -- the search with a condition is the search in the filtered rules
    have hfind' : (D.router.rules.filter CompiledRule.noSniff).find?
        (tcpMatches E (D.sniffedTcp E conn).item (D.sniffedTcp E conn).item.target)
          = some rule := by
      simpa only [List.find?_filter, Bool.decide_and, Bool.decide_eq_true] using hfind
    rw [sniffedTcp_action_of_sniff hsniff, firstMatch, hfind']
    rfl

/-! ### After resolving -/

/-- The pass after resolving: the rules before the `Resolve` rule come first. -/
theorem runTcp_action_of_resolve {conn : InboundTcpStream} {i : Nat} {rule : CompiledRule}
    {server : Option Str} {host : Str} {port : UInt16} {ip : IpAddr}
    (hfire : D.firingIndex E conn = some i) (hrule : D.router.rules[i]? = some rule)
    (hresolve : rule.action = .resolve server)
    (htarget : (D.sniffedTcp E conn).item.target = .domain host port)
    (hip : D.resolve server host = .ok ip) :
    (D.runTcp E conn).action
      = ((D.earlierRule E (D.sniffedTcp E conn).item (.socket ⟨ip, port⟩) i).map
          CompiledRule.action).getD
            (D.laterAction E (D.sniffedTcp E conn).item (.socket ⟨ip, port⟩) i) := by
  have haction : (D.sniffedTcp E conn).action = .resolve server :=
    (sniffedTcp_action_of_firingIndex hfire hrule).trans hresolve
  have hresolved : D.resolvedTarget server (D.sniffedTcp E conn).item.target
      = .socket ⟨ip, port⟩ := by
    rw [htarget, resolvedTarget, hip]
  -- the firing rule itself is filtered out of the last pass
  have hkeep : rule.noSniffResolve = false := by
    rw [CompiledRule.noSniffResolve, hresolve]
    rfl
  rw [runTcp, resolveStage_of_resolve haction, hresolved]
  exact (D.router.routeIndexed_noSniffResolve_fst _ _ _ _).trans
    (firstMatch_filter_of_getElem? hrule hkeep)

/-- **After resolving**, the action is the one of the rules behind the `Resolve` rule exactly
    when no plain rule before it matches the resolved address, or the first such rule has that
    same action. -/
theorem runTcp_eq_later_iff (D : Dispatcher) (E : Externals) (conn : InboundTcpStream) (i : Nat)
    (rule : CompiledRule) (server : Option Str) (host : Str) (port : UInt16) (ip : IpAddr)
    (hfire : D.firingIndex E conn = some i) (hrule : D.router.rules[i]? = some rule)
    (hresolve : rule.action = .resolve server)
    (htarget : (D.sniffedTcp E conn).item.target = .domain host port)
    (hip : D.resolve server host = .ok ip) :
    (D.runTcp E conn).action
        = D.laterAction E (D.sniffedTcp E conn).item (.socket ⟨ip, port⟩) i ↔
      ∀ r, D.earlierRule E (D.sniffedTcp E conn).item (.socket ⟨ip, port⟩) i = some r →
        r.action = D.laterAction E (D.sniffedTcp E conn).item (.socket ⟨ip, port⟩) i := by
  rw [runTcp_action_of_resolve hfire hrule hresolve htarget hip]
  rcases D.earlierRule E (D.sniffedTcp E conn).item (.socket ⟨ip, port⟩) i with _ | r
  · simp
  · simp

/-- A dispatcher without FakeIP addresses that resolves every name to `1.2.3.4` and reports
    `sniffResult` for every connection. -/
def fixed (router : Router) (sniffResult : Option SniffResult) : Dispatcher where
  router := router
  lookupFakeip _ := none
  sniff _ _ _ := (sniffResult, [])
  resolveDomain _ := .ok (.v4 0x01020304)
  resolveDomainVia _ _ := .ok (.v4 0x01020304)
  hasOutbound _ := true

/-- A rule that blocks a network, and asks for the address of a name to do so. -/
def blockRule : RouteRuleConfig :=
  { ipCidr := ["1.2.3.0/24".toList], outbound := "block".toList }

/-- A connection to `example.com:443`. -/
def exampleConn : InboundTcpStream := { target := .domain "example.com".toList 443, inboundTag := [] }

/-- A `Resolve` rule in front of the address rules: these decide. -/
theorem runTcp_eq_later_iff_resolve_first :
    ∃ rt rule, Router.fromConfig .plain (fun _ => .error [])
        { rules := [{ resolve := true }, blockRule], final := "direct".toList } = .ok rt ∧
      rt.rules[0]? = some rule ∧
      ((fixed rt none).runTcp .plain exampleConn).action = .outbound "block".toList ∧
      (((fixed rt none).runTcp .plain exampleConn).action
          = (fixed rt none).laterAction .plain ((fixed rt none).sniffedTcp .plain exampleConn).item
              (.socket ⟨.v4 0x01020304, 443⟩) 0 ↔
        ∀ r, (fixed rt none).earlierRule .plain
              ((fixed rt none).sniffedTcp .plain exampleConn).item
              (.socket ⟨.v4 0x01020304, 443⟩) 0 = some r →
          r.action = (fixed rt none).laterAction .plain
              ((fixed rt none).sniffedTcp .plain exampleConn).item
              (.socket ⟨.v4 0x01020304, 443⟩) 0) := by
  obtain ⟨rt, hrt, hrun⟩ := exists_eq_ok_of_any (x := Router.fromConfig .plain (fun _ => .error [])
      { rules := [{ resolve := true }, blockRule], final := "direct".toList })
    (p := fun rt =>
      decide (((fixed rt none).runTcp .plain exampleConn).action
          = RouteAction.outbound "block".toList) &&
        (decide ((fixed rt none).firingIndex .plain exampleConn = some 0) &&
        decide (((fixed rt none).sniffedTcp .plain exampleConn).item.target
            = Target.domain "example.com".toList 443) &&
        rt.rules[0]?.any fun r => decide (r.action = RouteAction.resolve none)))
    (by decide +kernel)
  simp only [Bool.and_eq_true, decide_eq_true_eq, Option.any_eq_true] at hrun
  obtain ⟨haction, ⟨hfire, htarget⟩, rule, hrule, hresolve⟩ := hrun
  exact ⟨rt, rule, hrt, hrule, haction,
    runTcp_eq_later_iff _ _ _ _ _ _ _ _ _ hfire hrule hresolve htarget rfl⟩

/-- Behind an address rule, a `Resolve` rule opens that rule again: the connection is blocked,
    although nothing behind the `Resolve` rule matches. -/
theorem not_runTcp_eq_later :
    ∃ rt rule, Router.fromConfig .plain (fun _ => .error [])
        { rules := [blockRule, { resolve := true }], final := "direct".toList } = .ok rt ∧
      (fixed rt none).firingIndex .plain exampleConn = some 1 ∧
      rt.rules[1]? = some rule ∧ rule.action = .resolve none ∧
      ((fixed rt none).sniffedTcp .plain exampleConn).item.target
        = .domain "example.com".toList 443 ∧
      (fixed rt none).resolve none "example.com".toList = .ok (.v4 0x01020304) ∧
      (fixed rt none).laterAction .plain ((fixed rt none).sniffedTcp .plain exampleConn).item
        (.socket ⟨.v4 0x01020304, 443⟩) 1 = .outbound "direct".toList ∧
      ((fixed rt none).runTcp .plain exampleConn).action = .outbound "block".toList := by
  obtain ⟨rt, hrt, hrun⟩ := exists_eq_ok_of_any (x := Router.fromConfig .plain (fun _ => .error [])
      { rules := [blockRule, { resolve := true }], final := "direct".toList })
    (p := fun rt =>
      decide ((fixed rt none).firingIndex .plain exampleConn = some 1) &&
        ((rt.rules[1]?.any fun r => decide (r.action = RouteAction.resolve none)) &&
        (decide (((fixed rt none).sniffedTcp .plain exampleConn).item.target
          = Target.domain "example.com".toList 443) &&
        (decide ((fixed rt none).laterAction .plain
          ((fixed rt none).sniffedTcp .plain exampleConn).item
          (.socket ⟨.v4 0x01020304, 443⟩) 1 = RouteAction.outbound "direct".toList) &&
        decide (((fixed rt none).runTcp .plain exampleConn).action
          = RouteAction.outbound "block".toList)))))
    (by decide +kernel)
  simp only [Bool.and_eq_true, decide_eq_true_eq, Option.any_eq_true] at hrun
  obtain ⟨hfire, ⟨rule, hrule, hresolve⟩, htarget, hlater, haction⟩ := hrun
  exact ⟨rt, rule, hrt, hfire, hrule, hresolve, htarget, rfl, hlater, haction⟩

/-! ### After sniffing -/

theorem detectTcpDns_of_isSome {conn : InboundTcpStream} (h : conn.sniffedProtocol.isSome = true) :
    detectTcpDns conn = conn := by
  rw [detectTcpDns, if_neg]
  rintro ⟨-, hnone, -⟩
  rw [Option.isNone_iff_eq_none.mp hnone] at h
  cases h

/-- What sniffing a domain without override leaves in a connection. -/
theorem sniffTcp_of_domain {conn : InboundTcpStream} {timeoutMs : Nat}
    {sniffTypes : List SniffType} {domain protocol : Str}
    (hsniff : (D.sniff conn timeoutMs sniffTypes).1 = some ⟨some domain, protocol⟩) :
    D.sniffTcp timeoutMs false sniffTypes conn
      = { conn with
          peeked := (D.sniff conn timeoutMs sniffTypes).2
          sniffedProtocol := conn.sniffedProtocol.or (some protocol)
          sniffedDomain := some domain } := by
  have hstep : D.sniffTcp timeoutMs false sniffTypes conn
      = detectTcpDns (applySniffResult false (D.sniff conn timeoutMs sniffTypes).1
          { conn with peeked := (D.sniff conn timeoutMs sniffTypes).2 }) := rfl
  rw [hstep, hsniff]
  -- either way a protocol is known afterwards, so the DNS check does not run
  rcases hprotocol : conn.sniffedProtocol with _ | known
  all_goals
    rw [detectTcpDns_of_isSome] <;> simp [applySniffResult]

/-- **After sniffing** a domain without override, the action is the one for the sniffed domain,
    at an unchanged dial target, exactly when the first rule (other than `Sniff` rules) that
    tells the original target and the sniffed domain apart carries the action that the rules
    behind it give for the other of the two. -/
theorem sniffedTcp_eq_domain_iff (D : Dispatcher) (E : Externals) (conn : InboundTcpStream)
    (timeoutMs : Nat) (sniffTypes : List SniffType) (domain protocol : Str)
    (hrule : (D.firstTcp E conn).action = .sniff timeoutMs false sniffTypes)
    (hsniff : (D.sniff (D.firstTcp E conn).item timeoutMs sniffTypes).1
      = some ⟨some domain, protocol⟩) :
    ((D.sniffedTcp E conn).action
        = (D.router.routeIndexed E D.router.idxNoSniff conn.inboundTag (some .tcp)
            (.domain domain (D.restoreFakeip conn.target).port)
            (conn.sniffedProtocol.or (some protocol))).1 ∧
      (D.runTcp E conn).item.target = D.restoreFakeip conn.target) ↔
    Agree
      (fun r => r.matches E conn.inboundTag (some .tcp) (D.restoreFakeip conn.target)
        (conn.sniffedProtocol.or (some protocol)))
      (fun r => r.matches E conn.inboundTag (some .tcp)
        (.domain domain (D.restoreFakeip conn.target).port)
        (conn.sniffedProtocol.or (some protocol)))
      CompiledRule.action D.router.default (D.router.rules.filter CompiledRule.noSniff) := by
  have hstage : (D.sniffedTcp E conn).item
      = D.sniffTcp timeoutMs false sniffTypes (D.firstTcp E conn).item := by
    rw [sniffedTcp, sniffStage_of_sniff hrule]
  rw [sniffTcp_of_domain hsniff] at hstage
  -- without override no stage changes the target, so the second half holds always
  have hdial : (D.runTcp E conn).item.target = D.restoreFakeip conn.target := by
    rw [runTcp, resolveStage_item, hstage]
    rfl
  have hisSniff : (D.firstTcp E conn).action.isSniff = true := by rw [hrule]; rfl
  rw [and_iff_left hdial, sniffedTcp_action_of_sniff hisSniff, hstage,
    D.router.routeIndexed_noSniff_fst]
  exact firstMatch_eq_iff _ _ _ _ _

/-- A rule that sniffs every connection, without override. -/
def sniffRule : RouteRuleConfig := { sniff := true }

/-- A connection to `1.2.3.4:443`. -/
def exampleIpConn : InboundTcpStream := { target := .socket ⟨.v4 0x01020304, 443⟩, inboundTag := [] }

/-- Behind a `Sniff` rule a port rule sees the same port either way. -/
theorem sniffedTcp_eq_domain_iff_port :
    ∃ rt, Router.fromConfig .plain (fun _ => .error [])
        { rules := [sniffRule, { port := [⟨443, 443⟩], outbound := "proxy".toList }]
          final := "direct".toList } = .ok rt ∧
      ((fixed rt (some ⟨some "example.com".toList, "tls".toList⟩)).sniffedTcp .plain
        exampleIpConn).action = .outbound "proxy".toList ∧
      (((fixed rt (some ⟨some "example.com".toList, "tls".toList⟩)).sniffedTcp .plain
            exampleIpConn).action
          = (rt.routeIndexed .plain rt.idxNoSniff [] (some .tcp)
              (.domain "example.com".toList 443) (some "tls".toList)).1 ∧
        ((fixed rt (some ⟨some "example.com".toList, "tls".toList⟩)).runTcp .plain
            exampleIpConn).item.target = exampleIpConn.target ↔
      Agree
        (fun r => r.matches .plain [] (some .tcp) exampleIpConn.target (some "tls".toList))
        (fun r => r.matches .plain [] (some .tcp) (.domain "example.com".toList 443)
          (some "tls".toList))
        CompiledRule.action rt.default (rt.rules.filter CompiledRule.noSniff)) := by
  obtain ⟨rt, hrt, hrun⟩ := exists_eq_ok_of_any (x := Router.fromConfig .plain (fun _ => .error [])
      { rules := [sniffRule, { port := [⟨443, 443⟩], outbound := "proxy".toList }]
        final := "direct".toList })
    (p := fun rt =>
      decide (((fixed rt (some ⟨some "example.com".toList, "tls".toList⟩)).sniffedTcp .plain
          exampleIpConn).action = RouteAction.outbound "proxy".toList) &&
        decide (((fixed rt (some ⟨some "example.com".toList, "tls".toList⟩)).firstTcp .plain
          exampleIpConn).action = RouteAction.sniff 0 false []))
    (by decide +kernel)
  simp only [Bool.and_eq_true, decide_eq_true_eq] at hrun
  obtain ⟨haction, hrule⟩ := hrun
  exact ⟨rt, hrt, haction, sniffedTcp_eq_domain_iff _ _ _ _ _ _ _ hrule rfl⟩

/-- A domain rule behind a `Sniff` rule without override never sees the sniffed domain: the
    connection goes out directly, although the sniffed domain has a rule. -/
theorem not_sniffedTcp_eq_domain :
    ∃ rt, Router.fromConfig .plain (fun _ => .error [])
        { rules := [sniffRule, { domain := ["example.com".toList], outbound := "proxy".toList }]
          final := "direct".toList } = .ok rt ∧
      ((fixed rt (some ⟨some "example.com".toList, "tls".toList⟩)).firstTcp .plain
        exampleIpConn).action = .sniff 0 false [] ∧
      ((fixed rt (some ⟨some "example.com".toList, "tls".toList⟩)).sniffedTcp .plain
        exampleIpConn).action = .outbound "direct".toList ∧
      (rt.routeIndexed .plain rt.idxNoSniff [] (some .tcp) (.domain "example.com".toList 443)
        (some "tls".toList)).1 = .outbound "proxy".toList := by
  obtain ⟨rt, hrt, hrun⟩ := exists_eq_ok_of_any (x := Router.fromConfig .plain (fun _ => .error [])
      { rules := [sniffRule, { domain := ["example.com".toList], outbound := "proxy".toList }]
        final := "direct".toList })
    (p := fun rt =>
      decide (((fixed rt (some ⟨some "example.com".toList, "tls".toList⟩)).firstTcp .plain
          exampleIpConn).action = RouteAction.sniff 0 false []) &&
        (decide (((fixed rt (some ⟨some "example.com".toList, "tls".toList⟩)).sniffedTcp .plain
          exampleIpConn).action = RouteAction.outbound "direct".toList) &&
        decide ((rt.routeIndexed .plain rt.idxNoSniff [] (some .tcp)
          (.domain "example.com".toList 443) (some "tls".toList)).1
            = RouteAction.outbound "proxy".toList)))
    (by decide +kernel)
  simp only [Bool.and_eq_true, decide_eq_true_eq] at hrun
  exact ⟨rt, hrt, hrun⟩

end Dispatcher

end Reflex.App
