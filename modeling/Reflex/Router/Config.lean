import Reflex.RustStd.Num

namespace Reflex.Routing

open RustStd

/-!
# Router — the configuration

`config/route.rs`: the route section of the configuration after deserialization, with the fields that
`Router::from_config` reads.

* `RouteRuleConfig` — one rule: the lists of entries it matches by, and what it does with what it matches;
* `RouteRuleConfig.hasConditions` — does a rule match by anything at all?
* `RuleSetRef` — a rule set that rules refer to by its tag, in a local file or from a URL;
* `RouteConfig` — the rules in their order, the rule sets, and the outbound of what no rule matches.

A rule as it stands here has not been checked.  What its entries are meant to match is stated in the module on
declared rules, beside what the router makes of them.
-/

/-- `NetworkFilter`. -/
inductive NetworkFilter where
  | tcp | udp
  deriving DecidableEq, Repr

/-- `PortFilter`: first and last port. -/
structure PortFilter where
  lo : UInt16
  hi : UInt16
  deriving DecidableEq, Repr

/-- `PortFilter::contains`. -/
def PortFilter.contains (f : PortFilter) (port : UInt16) : Bool := f.lo ≤ port && port ≤ f.hi

/-- `RouteRuleConfig`. -/
structure RouteRuleConfig where
  inbound : List Str := []
  network : Option NetworkFilter := none
  ruleset : List Str := []
  domain : List Str := []
  domainSuffix : List Str := []
  domainKeyword : List Str := []
  ipCidr : List Str := []
  port : List PortFilter := []
  portRange : List Str := []
  sniff : Bool := false
  sniffTimeoutMs : Nat := 0
  sniffType : List Str := []
  sniffOverrideDestination : Bool := false
  protocol : List Str := []
  resolve : Bool := false
  resolveServer : Option Str := none
  hijackDns : Bool := false
  outbound : Str := []

/-- `RouteRuleConfig::has_conditions`. -/
def RouteRuleConfig.hasConditions (r : RouteRuleConfig) : Bool :=
  !r.inbound.isEmpty || r.network.isSome || !r.protocol.isEmpty || !r.ruleset.isEmpty
    || !r.domain.isEmpty || !r.domainSuffix.isEmpty || !r.domainKeyword.isEmpty
    || !r.ipCidr.isEmpty || !r.port.isEmpty || !r.portRange.isEmpty

/-- `RuleSetType`. -/
inductive RuleSetType where
  | local | remote
  deriving DecidableEq, Repr

/-- `RuleSetRef`. -/
structure RuleSetRef where
  tag : Str
  type : RuleSetType
  path : Option Str := none
  url : Option Str := none
  downloadDetour : Option Str := none

/-- `RouteConfig`. -/
structure RouteConfig where
  rules : List RouteRuleConfig := []
  final : Str
  ruleSet : List RuleSetRef := []

end Reflex.Routing
