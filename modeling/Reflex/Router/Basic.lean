import Reflex.App.Sniff
import Reflex.Inbound.Types
import Reflex.Lib.FirstMatch
import Reflex.Router.Config
import Reflex.Ruleset.Matcher

namespace Reflex.Routing

open RustStd Ruleset FirstMatch App

/-!
# Router — rules and routing

`router/mod.rs`: `CompiledRule.compile` prints the inline conditions of a rule as two rule
texts and compiles them, `Router.fromConfig` compiles all rules and precomputes the index lists
of the later routing passes, and `Router.route` / `Router.routeIndexed` take the first rule that
matches.

A `Router` carries the facts that hold of every router `from_config` returns: the index lists
are those of its rules, and the default action is no `Sniff` and no `Resolve`.
-/

/-! ### Actions -/

/-- `RouteAction`. -/
inductive RouteAction where
  | outbound (tag : Str)
  | dnsOut
  | sniff (timeoutMs : Nat) (overrideDestination : Bool) (sniffTypes : List SniffType)
  | resolve (server : Option Str)
  deriving DecidableEq, Repr

/-- `matches!(action, RouteAction::Sniff { .. })`. -/
def RouteAction.isSniff : RouteAction → Bool
  | .sniff .. => true
  | _ => false

/-- `matches!(action, RouteAction::Resolve { .. })`. -/
def RouteAction.isResolve : RouteAction → Bool
  | .resolve _ => true
  | _ => false

/-- An action that can be dispatched. -/
def RouteAction.IsFinal (a : RouteAction) : Prop := a = .dnsOut ∨ ∃ tag, a = .outbound tag

theorem RouteAction.isFinal_iff (a : RouteAction) :
    a.IsFinal ↔ a.isSniff = false ∧ a.isResolve = false := by
  cases a <;> simp [IsFinal, isSniff, isResolve]

/-- `to_action`. -/
def toAction (outbound : Str) : RouteAction :=
  if outbound = "dns-out".toList then .dnsOut else .outbound outbound

theorem isFinal_toAction (outbound : Str) : (toAction outbound).IsFinal := by
  unfold toAction
  split
  · exact .inl rfl
  · exact .inr ⟨outbound, rfl⟩

/-! ### Errors -/

/-- How building a router fails. -/
inductive RouterError where
  | loadRuleset (msg : Str)
  | bareHijackDns (i : Nat)
  | rulesetNotFound (tag : Str)
  | inlineRules (e : LoadFault)
  deriving DecidableEq

/-- The messages of `from_config` and `compile` themselves. -/
def RouterError.toText : RouterError → Str
  | .loadRuleset msg => msg
  | .bareHijackDns i => "route rule[".toList ++ display i
      ++ ("]: `hijack_dns: true` must be used with at least one matching condition " ++
        "(e.g. `protocol`, `inbound`, `network`, `port`). " ++
        "A bare `hijack_dns: true` with no conditions is not allowed.").toList
  | .rulesetNotFound tag => "ruleset '".toList ++ tag ++ "' not found".toList
  | .inlineRules (.error e) => e.toText
  | .inlineRules .underflow => "attempt to subtract with overflow".toList

/-! ### Compiled rules -/

/-- `NetworkKind`. -/
inductive NetworkKind where
  | tcp | udp
  deriving DecidableEq, Repr

/-- `CompiledRule`. -/
structure CompiledRule where
  inboundTags : List Str
  network : Option NetworkFilter
  protocols : List Str
  rulesets : List RuleSet
  addrRs : Option RuleSet
  portRs : Option RuleSet
  action : RouteAction
  ruleDisplay : Str × Str

/-- The lines of the address conditions of a rule. -/
def addrLines (rule : RouteRuleConfig) : List Str :=
  rule.domain.map (fun d => "domain: ".toList ++ d)
    ++ rule.domainSuffix.map (fun d => "domain-suffix: ".toList ++ d)
    ++ rule.domainKeyword.map (fun d => "domain-keyword: ".toList ++ d)
    ++ rule.ipCidr.map fun c =>
      -- The family of a block is told by a colon, not by parsing it.
      if ':' ∈ c then "ip-cidr6: ".toList ++ c else "ip-cidr: ".toList ++ c

/-- The lines of the port conditions of a rule. -/
def portLines (rule : RouteRuleConfig) : List Str :=
  rule.port.map (fun p =>
      if p.lo = p.hi then "port: ".toList ++ display p.lo.toNat
      else "port: ".toList ++ display p.lo.toNat ++ "-".toList ++ display p.hi.toNat)
    ++ rule.portRange.map fun p => "port: ".toList ++ p

/-- The action of a rule. -/
def ruleAction (rule : RouteRuleConfig) : RouteAction :=
  if rule.sniff then
    .sniff rule.sniffTimeoutMs rule.sniffOverrideDestination
      (rule.sniffType.filterMap SniffType.parse)
  -- `sniff` takes precedence over `resolve`, and both over the outbound.
  else if rule.resolve then .resolve rule.resolveServer
  else if rule.hijackDns then .dnsOut
  else toAction rule.outbound

/-- `rule_display`: the kind of the rule and its values. -/
def ruleDisplayOf (rule : RouteRuleConfig) : Str × Str :=
  if rule.ruleset ≠ [] then ("rule-set".toList, join [','] rule.ruleset)
  else if rule.domain ≠ [] then ("DOMAIN".toList, join [','] rule.domain)
  else if rule.domainSuffix ≠ [] then ("DOMAIN-SUFFIX".toList, join [','] rule.domainSuffix)
  else if rule.domainKeyword ≠ [] then ("DOMAIN-KEYWORD".toList, join [','] rule.domainKeyword)
  else if rule.ipCidr ≠ [] then ("IP-CIDR".toList, join [','] rule.ipCidr)
  else
    match rule.network with
    | some .tcp => ("NETWORK".toList, "tcp".toList)
    | some .udp => ("NETWORK".toList, "udp".toList)
    | none =>
        if rule.protocol ≠ [] then ("PROTOCOL".toList, join [','] rule.protocol)
        else if rule.inbound ≠ [] then ("IN-NAME".toList, join [','] rule.inbound)
        else if rule.sniff then ("SNIFF".toList, [])
        else if rule.resolve then ("RESOLVE".toList, [])
        else if rule.hijackDns then ("HIJACK-DNS".toList, [])
        else ("MATCH".toList, [])

section Compile

variable (E : Externals)

/-- The rule set of a list of lines, if there are any. -/
def compileLines (ls : List Str) : Except RouterError (Option RuleSet) :=
  if ls = [] then .ok none
  else
    match RuleSet.fromText E (join ['\n'] ls) with
    | .ok rs => .ok (some rs)
    | .error e => .error (.inlineRules e)

/-- The loaded rule sets a rule refers to. -/
def findRulesets (rulesets : Str → Option RuleSet) (tags : List Str) :
    Except RouterError (List RuleSet) :=
  tags.mapM fun tag =>
    match rulesets tag with
    | some rs => .ok rs
    | none => .error (.rulesetNotFound tag)

/-- `CompiledRule::compile`. -/
def CompiledRule.compile (rulesets : Str → Option RuleSet) (rule : RouteRuleConfig) :
    Except RouterError CompiledRule := do
  let compiledRulesets ← findRulesets rulesets rule.ruleset
  let addrRs ← compileLines E (addrLines rule)
  let portRs ← compileLines E (portLines rule)
  return { inboundTags := rule.inbound
           network := rule.network
           protocols := rule.protocol.map E.toLowercase
           rulesets := compiledRulesets
           addrRs, portRs
           action := ruleAction rule
           ruleDisplay := ruleDisplayOf rule }

/-- `target_to_addr_match`. -/
def targetToAddrMatch : Target → MatchTarget
  | .domain h _ => .domain h
  | .socket a => .ip a.ip

/-- `CompiledRule::match_target`. -/
def CompiledRule.matchTarget (r : CompiledRule) (target : Target) : Bool :=
  let addrMt := targetToAddrMatch target
  let portMt := MatchTarget.port target.port
  r.rulesets.any (fun rs => rs.matches addrMt || rs.matches portMt)
    || r.addrRs.any (fun rs => rs.matches addrMt)
    || r.portRs.any fun rs => rs.matches portMt

/-- The network filter of a rule. -/
def networkMatches : Option NetworkFilter → Option NetworkKind → Bool
  | none, _ => true
  | some .tcp, some .tcp => true
  | some .udp, some .udp => true
  | some _, _ => false

/-- `CompiledRule::matches`. -/
def CompiledRule.matches (r : CompiledRule) (inboundTag : Str) (network : Option NetworkKind)
    (target : Target) (sniffedProtocol : Option Str) : Bool :=
  if r.inboundTags ≠ [] ∧ inboundTag ∉ r.inboundTags then false
  else if !networkMatches r.network network then false
  else if r.protocols ≠ [] ∧ !(sniffedProtocol.any fun proto => E.toLowercase proto ∈ r.protocols) then
    false
  else
    -- A rule without a condition on the target matches every target.
    let hasAny := !r.rulesets.isEmpty || r.addrRs.isSome || r.portRs.isSome
    !(hasAny && !r.matchTarget target)

end Compile

/-! ### The router -/

/-- The rules of the pass after sniffing. -/
def CompiledRule.noSniff (r : CompiledRule) : Bool := !r.action.isSniff

/-- The rules of the pass after resolving. -/
def CompiledRule.noSniffResolve (r : CompiledRule) : Bool :=
  !(r.action.isSniff || r.action.isResolve)

/-- `Router`. -/
structure Router where
  rules : List CompiledRule
  idxNoSniff : List Nat
  idxNoSniffResolve : List Nat
  default : RouteAction
  idxNoSniff_eq : idxNoSniff = indices CompiledRule.noSniff rules
  idxNoSniffResolve_eq : idxNoSniffResolve = indices CompiledRule.noSniffResolve rules
  default_isFinal : default.IsFinal

/-- The router of compiled rules and a `final` outbound. -/
def Router.ofRules (rules : List CompiledRule) (final : Str) : Router where
  rules := rules
  idxNoSniff := indices CompiledRule.noSniff rules
  idxNoSniffResolve := indices CompiledRule.noSniffResolve rules
  default := toAction final
  idxNoSniff_eq := rfl
  idxNoSniffResolve_eq := rfl
  default_isFinal := isFinal_toAction final

variable (E : Externals)

/-- Load the referenced rule sets; a later tag replaces an earlier equal one. -/
def loadRulesets (load : RuleSetRef → Except Str RuleSet) (refs : List RuleSetRef) :
    Except RouterError (Str → Option RuleSet) :=
  refs.foldlM (fun rulesets ref =>
    match load ref with
    | .ok rs => .ok (Function.update rulesets ref.tag (some rs))
    | .error e => .error (.loadRuleset e)) fun _ => none

/-- `Router::from_config`; `load` is `load_ruleset_ref`, which reads files, the cache or the
    network. -/
def Router.fromConfig (load : RuleSetRef → Except Str RuleSet) (config : RouteConfig) :
    Except RouterError Router := do
  -- The rule sets are loaded before any rule is looked at.
  let rulesets ← loadRulesets load config.ruleSet
  match config.rules.findIdx? fun r => r.hijackDns && !r.hasConditions with
  | some i => .error (.bareHijackDns i)
  | none =>
      let rules ← config.rules.mapM (CompiledRule.compile E rulesets)
      return .ofRules rules config.final

/-- The decision of a routing pass: the action and what is displayed about the rule. -/
def Router.decide (rt : Router) : Option CompiledRule → RouteAction × Str × Str
  | some rule => (rule.action, rule.ruleDisplay)
  | none => (rt.default, "final".toList, [])

/-- `Router::route`. -/
def Router.route (rt : Router) (inboundTag : Str) (network : Option NetworkKind) (target : Target)
    (sniffedProtocol : Option Str) : RouteAction × Str × Str :=
  rt.decide (rt.rules.find? fun r => r.matches E inboundTag network target sniffedProtocol)

/-- `Router::route_indexed`. -/
def Router.routeIndexed (rt : Router) (idx : List Nat) (inboundTag : Str)
    (network : Option NetworkKind) (target : Target) (sniffedProtocol : Option Str) :
    RouteAction × Str × Str :=
  rt.decide (idx.findSome? fun i =>
    rt.rules[i]?.filter fun r => r.matches E inboundTag network target sniffedProtocol)

/-- `Router::route_tcp`. -/
def Router.routeTcp (rt : Router) (conn : InboundTcpStream) : RouteAction × Str × Str :=
  rt.route E conn.inboundTag (some .tcp) conn.target conn.sniffedProtocol

/-- `Router::route_tcp_after_sniff`. -/
def Router.routeTcpAfterSniff (rt : Router) (conn : InboundTcpStream) (target : Target) :
    RouteAction × Str × Str :=
  rt.routeIndexed E rt.idxNoSniff conn.inboundTag (some .tcp) target conn.sniffedProtocol

/-- `Router::route_tcp_after_resolve`. -/
def Router.routeTcpAfterResolve (rt : Router) (conn : InboundTcpStream) (target : Target) :
    RouteAction × Str × Str :=
  rt.routeIndexed E rt.idxNoSniffResolve conn.inboundTag (some .tcp) target conn.sniffedProtocol

/-- `Router::route_udp`. -/
def Router.routeUdp (rt : Router) (packet : InboundUdpPacket) : RouteAction × Str × Str :=
  rt.route E packet.inboundTag (some .udp) packet.target packet.sniffedProtocol

/-- `Router::route_udp_after_sniff`. -/
def Router.routeUdpAfterSniff (rt : Router) (packet : InboundUdpPacket) : RouteAction × Str × Str :=
  rt.routeIndexed E rt.idxNoSniff packet.inboundTag (some .udp) packet.target
    packet.sniffedProtocol

/-- `Router::route_udp_after_resolve`. -/
def Router.routeUdpAfterResolve (rt : Router) (packet : InboundUdpPacket) (target : Target) :
    RouteAction × Str × Str :=
  rt.routeIndexed E rt.idxNoSniffResolve packet.inboundTag (some .udp) target
    packet.sniffedProtocol

/-! ### What the passes decide -/

section Passes

variable {E}

theorem Router.decide_fst (rt : Router) (m : CompiledRule → Bool) (rules : List CompiledRule) :
    (rt.decide (rules.find? m)).1 = firstMatch m CompiledRule.action rt.default rules := by
  unfold firstMatch
  rcases rules.find? m with _ | r <;> rfl

/-- The full pass takes the first matching rule. -/
theorem Router.route_fst (rt : Router) (inboundTag : Str) (network : Option NetworkKind)
    (target : Target) (sniffedProtocol : Option Str) :
    (rt.route E inboundTag network target sniffedProtocol).1
      = firstMatch (fun r => r.matches E inboundTag network target sniffedProtocol)
          CompiledRule.action rt.default rt.rules :=
  rt.decide_fst _ _

/-- The pass after sniffing takes the first matching rule that is no `Sniff` rule. -/
theorem Router.routeIndexed_noSniff_fst (rt : Router) (inboundTag : Str)
    (network : Option NetworkKind) (target : Target) (sniffedProtocol : Option Str) :
    (rt.routeIndexed E rt.idxNoSniff inboundTag network target sniffedProtocol).1
      = firstMatch (fun r => r.matches E inboundTag network target sniffedProtocol)
          CompiledRule.action rt.default (rt.rules.filter CompiledRule.noSniff) := by
  rw [Router.routeIndexed, rt.idxNoSniff_eq, find?_indices, rt.decide_fst]

/-- The pass after resolving takes the first matching rule that is neither a `Sniff` nor a
    `Resolve` rule. -/
theorem Router.routeIndexed_noSniffResolve_fst (rt : Router) (inboundTag : Str)
    (network : Option NetworkKind) (target : Target) (sniffedProtocol : Option Str) :
    (rt.routeIndexed E rt.idxNoSniffResolve inboundTag network target sniffedProtocol).1
      = firstMatch (fun r => r.matches E inboundTag network target sniffedProtocol)
          CompiledRule.action rt.default (rt.rules.filter CompiledRule.noSniffResolve) := by
  rw [Router.routeIndexed, rt.idxNoSniffResolve_eq, find?_indices, rt.decide_fst]

/-- The pass after sniffing returns no `Sniff` action. -/
theorem Router.isSniff_routeIndexed_noSniff (rt : Router) (inboundTag : Str)
    (network : Option NetworkKind) (target : Target) (sniffedProtocol : Option Str) :
    (rt.routeIndexed E rt.idxNoSniff inboundTag network target sniffedProtocol).1.isSniff
      = false := by
  rw [rt.routeIndexed_noSniff_fst]
  rcases firstMatch_mem (fun r => r.matches E inboundTag network target sniffedProtocol)
    CompiledRule.action rt.default (rt.rules.filter CompiledRule.noSniff) with ⟨r, hr, -, heq⟩ | heq
  · rw [heq]
    -- The rule was found among those of the pass.
    simpa [CompiledRule.noSniff] using (List.mem_filter.mp hr).2
  · rw [heq]
    -- No rule matched: the default action is dispatched as it is.
    exact ((RouteAction.isFinal_iff _).mp rt.default_isFinal).1

/-- The pass after resolving returns an action that can be dispatched. -/
theorem Router.isFinal_routeIndexed_noSniffResolve (rt : Router) (inboundTag : Str)
    (network : Option NetworkKind) (target : Target) (sniffedProtocol : Option Str) :
    (rt.routeIndexed E rt.idxNoSniffResolve inboundTag network target sniffedProtocol).1.IsFinal := by
  rw [rt.routeIndexed_noSniffResolve_fst]
  rcases firstMatch_mem (fun r => r.matches E inboundTag network target sniffedProtocol)
    CompiledRule.action rt.default (rt.rules.filter CompiledRule.noSniffResolve)
    with ⟨r, hr, -, heq⟩ | heq
  · rw [heq, RouteAction.isFinal_iff]
    simpa [CompiledRule.noSniffResolve] using (List.mem_filter.mp hr).2
  · rw [heq]
    exact rt.default_isFinal

end Passes

end Reflex.Routing
