import Reflex.Config.Values
import Reflex.Dns.Config
import Reflex.Provider.GroupCycles
import Reflex.Router.Config

namespace Reflex.Config

open RustStd Relation

/-!
# Configuration — validation

`Config::validate` of `config/mod.rs`: the checks that a configuration passes before anything is built from it.
A HashMap yields its keys in any order, so that of the groups is an argument of the search for cycles.

* `Valid` — what a configuration has to be like;
* `validate_eq_ok_iff` — the checks accept the configurations that are so, and no others.
-/

/-! ### The configuration -/

/-- `HealthCheckConfig`, without its URL. -/
structure HealthCheckConfig where
  interval : Str
  timeout : Str

/-- `ProviderConfig`, without the places that the nodes come from. -/
inductive ProviderConfig where
  | remote (tag updateInterval : Str) (healthCheck : Option HealthCheckConfig)
  | file (tag : Str) (healthCheck : Option HealthCheckConfig)

/-- `ProviderConfig::tag`. -/
def ProviderConfig.tag : ProviderConfig → Str
  | .remote tag _ _ => tag
  | .file tag _ => tag

/-- The settings of an outbound that `validate` reads, besides those of the groups. -/
inductive LeafSettings where
  | vless (uuid : Str)
  | vmess (uuid : Str)
  | tuic (uuid : Str)
  | other
  deriving DecidableEq, Repr

/-- `OutboundConfig`; a url-test group comes with `interval` and `idle_timeout`. -/
inductive OutboundConfig where
  | leaf (tag : Str) (settings : LeafSettings)
  | selector (c : Provider.SelectorOutboundConfig)
  | urlTest (c : Provider.UrlTestOutboundConfig) (interval idleTimeout : Str)

/-- An outbound as the registry and the groups see it. -/
def OutboundConfig.base : OutboundConfig → Provider.OutboundConfig LeafSettings
  | .leaf tag settings => .leaf tag settings
  | .selector c => .selector c
  | .urlTest c _ _ => .urlTest c

/-- `OutboundConfig::tag`. -/
def OutboundConfig.tag (ob : OutboundConfig) : Str := ob.base.tag

/-- `VlessUser`, `VmessUser` and `TuicUser`. -/
structure InboundUser where
  name : Str
  uuid : Str

/-- What `validate` reads of the inbounds of each protocol. -/
inductive InboundKind where
  | tun
  | vless (users : List InboundUser)
  | vmess (users : List InboundUser)
  | tuic (users : List InboundUser)
  | trojan (passwords : List Str)
  | shadowsocks (password : Option Str) (passwords : List Str)
  | hysteria2 (passwords : List Str) (tlsEnabled : Bool)
  | other

/-- `InboundConfig`. -/
structure InboundConfig where
  tag : Str
  listenPort : UInt16
  kind : InboundKind

/-- The port of `InboundConfig::listen_addr`; a TUN device has none. -/
def InboundConfig.port (ib : InboundConfig) : UInt16 :=
  match ib.kind with
  | .tun => 0
  | _ => ib.listenPort

/-- `matches!(ib, InboundConfig::Tun(_))`. -/
def InboundConfig.isTun (ib : InboundConfig) : Bool :=
  match ib.kind with
  | .tun => true
  | _ => false

end Reflex.Config

/-- `Config`, the parts that are validated. -/
structure Reflex.Config where
  providers : List Config.ProviderConfig := []
  outbounds : List Config.OutboundConfig := []
  route : Routing.RouteConfig
  inbounds : List Config.InboundConfig := []
  dns : Dns.DnsConfig := {}

namespace Reflex.Config

open RustStd Relation

section Tags

variable (config : Config)

/-- `ob_tags`, `provider_tags`, `rs_tags`, `in_tags` and `dns_tags`, when they are complete. -/
def outboundTags : List Str := config.outbounds.map OutboundConfig.tag
def providerTags : List Str := config.providers.map ProviderConfig.tag
def rulesetTags : List Str := config.route.ruleSet.map (·.tag)
def inboundTags : List Str := config.inbounds.map InboundConfig.tag
def dnsTags : List Str := config.dns.servers.map (·.tag)

/-- The providers and outbounds, as the registry and the groups see them. -/
def groups : Provider.Config LeafSettings where
  providers := config.providerTags
  outbounds := config.outbounds.map OutboundConfig.base

end Tags

/-! ### The checks -/

/-- A loop over entries of one kind, which refuses a tag that it has seen and then checks the entry. -/
def validateEach {α : Type} (kind : Str) (tag : α → Str) (check : α → Except Fault Unit) :
    List Str → List α → Except Fault Unit
  | _, [] => .ok ()
  | seen, a :: as => do
      ensure (tag a ∉ seen) ("duplicate ".toList ++ kind ++ " tag: '".toList ++ tag a ++ "'".toList)
      check a
      validateEach kind tag check (tag a :: seen) as

/-- A duration that is only looked at. -/
def validateDuration (context : Str) (r : Except Fault UInt64) : Except Fault Unit :=
  withContext context (r.map fun _ => ())

/-- The health check of a provider. -/
def validateHealthCheck (tag : Str) : Option HealthCheckConfig → Except Fault Unit
  | none => .ok ()
  | some hc => do
      validateDuration ("provider '".toList ++ tag ++ "': invalid health_check.interval".toList)
        (parseDuration hc.interval)
      validateDuration ("provider '".toList ++ tag ++ "': invalid health_check.timeout".toList)
        (parseDuration hc.timeout)

/-- The durations of a provider. -/
def validateProvider : ProviderConfig → Except Fault Unit
  | .remote tag updateInterval healthCheck => do
      validateDuration ("provider '".toList ++ tag ++ "': invalid update_interval".toList)
        (parseDuration updateInterval)
      validateHealthCheck tag healthCheck
  | .file tag healthCheck => validateHealthCheck tag healthCheck

/-- The UUID of an outbound. -/
def validateOutbound (ob : OutboundConfig) : Except Fault Unit :=
  let context := "outbound '".toList ++ ob.tag ++ "': invalid UUID".toList
  match ob with
  | .leaf _ (.vless uuid) => withContext context (validateUuid uuid)
  | .leaf _ (.vmess uuid) => withContext context (validateUuid uuid)
  | .leaf _ (.tuic uuid) => withContext context (validateUuid uuid)
  | _ => .ok ()

/-- `validate_outbound_group`, with the durations of a url-test group. -/
def validateOutboundGroup (tags providerTags : List Str) (ob : OutboundConfig) : Except Fault Unit := do
  (Provider.validateOutboundGroup tags providerTags ob.base).mapError ([·])
  match ob with
  | .urlTest _ interval idleTimeout =>
      (Group.parseDuration interval).map fun _ => ()
      (Group.parseDuration idleTimeout).map fun _ => ()
  | _ => .ok ()

/-- `validate_outbound_group_cycles`.  The recursion is no deeper than there are groups, and one more, so that
    it comes to an end with this fuel. -/
def validateOutboundGroupCycles (keys : List Str) (outbounds : List OutboundConfig) : Except Fault Unit :=
  match (Provider.validateOutboundGroupCycles (keys.length + 1) keys (outbounds.map OutboundConfig.base)).run with
  | some r => r.mapError ([·])
  | none => .error []

/-- The users of a protocol that tells them apart by their UUIDs. -/
def validateUsers (protocol tag : Str) (users : List InboundUser) : Except Fault Unit :=
  users.forM fun user => withContext ("inbound ".toList ++ protocol ++ " '".toList ++ tag ++ "': user '".toList
    ++ user.name ++ "' invalid UUID".toList) (validateUuid user.uuid)

/-- The rest of the checks on an inbound. -/
def validateInbound (ib : InboundConfig) : Except Fault Unit := do
  let tag := ib.tag
  ensure (ib.port ≠ 0 || ib.isTun) ("inbound '".toList ++ tag ++ "': listen_port cannot be 0".toList)
  match ib.kind with
  | .vless users => validateUsers "vless".toList tag users
  | .vmess users => validateUsers "vmess".toList tag users
  | .tuic users => validateUsers "tuic".toList tag users
  | .trojan passwords =>
      ensure (!passwords.isEmpty) ("inbound trojan '".toList ++ tag ++ "': no users configured".toList)
  | .shadowsocks password passwords =>
      ensure (password.isSome || !passwords.isEmpty)
        ("inbound shadowsocks '".toList ++ tag ++ "': no password or users configured".toList)
  | .hysteria2 passwords tlsEnabled => do
      ensure (!passwords.isEmpty) ("inbound hysteria2 '".toList ++ tag ++ "': no users configured".toList)
      ensure tlsEnabled ("inbound hysteria2 '".toList ++ tag
        ++ "': TLS must be enabled (Hysteria2 requires QUIC+TLS)".toList)
  | _ => .ok ()

/-- `section[i].field 'tag'`, and what is wrong with it. -/
def refers (field : Str) (i : Nat) (name tag problem : Str) : Str :=
  field ++ "[".toList ++ display i ++ "].".toList ++ name ++ " '".toList ++ tag ++ "' ".toList ++ problem

/-- `!rule.hijack_dns && !rule.sniff && !rule.resolve`: the outbound of the rule is used. -/
def usesOutbound (rule : Routing.RouteRuleConfig) : Bool := !(rule.hijackDns || rule.sniff || rule.resolve)

section Sections

variable (config : Config)

/-- The outbounds of the route section. -/
def validateRouteOutbounds : Except Fault Unit := do
  ensure (config.route.final ∈ config.outboundTags)
    ("route.final '".toList ++ config.route.final ++ "' does not match any outbound tag".toList)
  config.route.rules.zipIdx.forM fun (rule, i) =>
    if usesOutbound rule then
      ensure (rule.outbound = "dns-out".toList || rule.outbound ∈ config.outboundTags)
        (refers "route.rules".toList i "outbound".toList rule.outbound "does not match any outbound tag".toList)
    else .ok ()

/-- The rule sets of the route section. -/
def validateRulesets : Except Fault Unit := do
  ensure (config.rulesetTags.toFinset.card = config.route.ruleSet.length)
    "duplicate ruleset tag in route.rule_set".toList
  config.route.rules.zipIdx.forM fun (rule, i) => rule.ruleset.forM fun tag =>
    ensure (tag ∈ config.rulesetTags)
      (refers "route.rules".toList i "ruleset".toList tag "is not declared in route.rule_set".toList)

/-- The inbounds that the rules of the route section name. -/
def validateRouteInbounds : Except Fault Unit :=
  config.route.rules.zipIdx.forM fun (rule, i) => rule.inbound.forM fun tag =>
    ensure (tag ∈ config.inboundTags)
      (refers "route.rules".toList i "inbound".toList tag "does not match any inbound tag".toList)

/-- The DNS section. -/
def validateDns : Except Fault Unit := do
  validateEach "dns server".toList (·.tag) (fun _ => .ok ()) [] config.dns.servers
  ensure (config.dns.servers.isEmpty || config.dns.final ∈ config.dnsTags)
    ("dns.final '".toList ++ config.dns.final ++ "' does not match any dns server tag".toList)
  config.dns.rules.zipIdx.forM fun (rule, i) => do
    ensure (rule.server ∈ config.dnsTags)
      (refers "dns.rules".toList i "server".toList rule.server "does not match any dns server tag".toList)
    rule.inbound.forM fun tag =>
      ensure (tag ∈ config.inboundTags)
        (refers "dns.rules".toList i "inbound".toList tag "does not match any inbound tag".toList)

/-- `Config::validate`. -/
def validate (keys : List Str) : Except Fault Unit := do
  validateEach "provider".toList ProviderConfig.tag validateProvider [] config.providers
  validateEach "outbound".toList OutboundConfig.tag validateOutbound [] config.outbounds
  config.outbounds.forM fun ob => withContext ("outbound '".toList ++ ob.tag ++ "': invalid group".toList)
    (validateOutboundGroup config.outboundTags config.providerTags ob)
  validateOutboundGroupCycles keys config.outbounds
  config.validateRouteOutbounds
  config.validateRulesets
  validateEach "inbound".toList InboundConfig.tag validateInbound [] config.inbounds
  config.validateRouteInbounds
  config.validateDns

end Sections

/-! ### What is checked -/

/-- The durations of a health check. -/
def HealthCheckConfig.durations (hc : HealthCheckConfig) : List Str := [hc.interval, hc.timeout]

/-- The durations of a provider. -/
def ProviderConfig.durations : ProviderConfig → List Str
  | .remote _ updateInterval healthCheck => updateInterval :: healthCheck.toList.flatMap (·.durations)
  | .file _ healthCheck => healthCheck.toList.flatMap (·.durations)

/-- The durations of a group. -/
def OutboundConfig.durations : OutboundConfig → List Str
  | .urlTest _ interval idleTimeout => [interval, idleTimeout]
  | _ => []

/-- The UUID of an outbound. -/
def OutboundConfig.uuid : OutboundConfig → Option Str
  | .leaf _ (.vless uuid) => some uuid
  | .leaf _ (.vmess uuid) => some uuid
  | .leaf _ (.tuic uuid) => some uuid
  | _ => none

/-- The UUIDs of an inbound. -/
def InboundConfig.uuids (ib : InboundConfig) : List Str :=
  match ib.kind with
  | .vless users => users.map (·.uuid)
  | .vmess users => users.map (·.uuid)
  | .tuic users => users.map (·.uuid)
  | _ => []

/-- The protocols that cannot be without a user have one, and Hysteria2 has TLS. -/
def InboundKind.HasUsers : InboundKind → Prop
  | .trojan passwords => passwords ≠ []
  | .shadowsocks password passwords => password ≠ none ∨ passwords ≠ []
  | .hysteria2 passwords tlsEnabled => passwords ≠ [] ∧ tlsEnabled = true
  | _ => True

/-- A group has members or providers, all known, and none of the members is itself; its default is a member. -/
structure GroupValid (tags providerTags : List Str) (g : Provider.OutboundConfig LeafSettings) : Prop where
  nonempty : g.childOutbounds ≠ [] ∨ (g.groupProviders.getD {}).tags ≠ []
  members : ∀ child ∈ g.childOutbounds, child ≠ g.tag ∧ child ∈ tags
  providers : ∀ tag ∈ (g.groupProviders.getD {}).tags, tag ∈ providerTags
  default : ∀ child ∈ g.groupDefault, child ∈ g.childOutbounds

/-- **A valid configuration**: the tags of a kind are distinct, groups do not contain themselves, ports and users
    are given, and durations and UUIDs can be read.  These references are to what is declared: the members, providers
    and default of a group, `route.final`, the outbound, rule sets and inbounds of a routing rule, `dns.final` if
    there are servers, and the server and inbounds of a DNS rule.

    Nothing is asked of the other references.  The detour and the `domain_resolver` of a DNS server are looked up when
    the resolver is built.  The server of a resolve rule and the rule sets of a DNS rule may be missing (the default
    server is asked, the rule set is skipped), and the `download_detour` of a rule set is only logged. -/
structure Valid (config : Config) : Prop where
  providerTags : config.providerTags.Nodup
  providers : ∀ p ∈ config.providers, ∀ s ∈ p.durations, ∃ d, parseDuration s = .ok d
  outboundTags : config.outboundTags.Nodup
  outboundUuids : ∀ ob ∈ config.outbounds, ∀ s ∈ ob.uuid, validateUuid s = .ok ()
  groups : ∀ ob ∈ config.outbounds, ob.base.isGroup = true →
    GroupValid config.outboundTags config.providerTags ob.base
  groupDurations : ∀ ob ∈ config.outbounds, ∀ s ∈ ob.durations, ∃ d, Group.parseDuration s = .ok d
  acyclic : ∀ tag, ¬ TransGen (Provider.GroupEdge (config.outbounds.map OutboundConfig.base)) tag tag
  final : config.route.final ∈ config.outboundTags
  outbounds : ∀ rule ∈ config.route.rules, usesOutbound rule = true →
    rule.outbound = "dns-out".toList ∨ rule.outbound ∈ config.outboundTags
  rulesetTags : config.rulesetTags.Nodup
  rulesets : ∀ rule ∈ config.route.rules, ∀ tag ∈ rule.ruleset, tag ∈ config.rulesetTags
  inboundTags : config.inboundTags.Nodup
  ports : ∀ ib ∈ config.inbounds, ib.port ≠ 0 ∨ ib.isTun = true
  inboundUuids : ∀ ib ∈ config.inbounds, ∀ s ∈ ib.uuids, validateUuid s = .ok ()
  users : ∀ ib ∈ config.inbounds, ib.kind.HasUsers
  inbounds : ∀ rule ∈ config.route.rules, ∀ tag ∈ rule.inbound, tag ∈ config.inboundTags
  dnsTags : config.dnsTags.Nodup
  dnsFinal : config.dns.servers ≠ [] → config.dns.final ∈ config.dnsTags
  dnsRules : ∀ rule ∈ config.dns.rules, rule.server ∈ config.dnsTags ∧
    ∀ tag ∈ rule.inbound, tag ∈ config.inboundTags

/-! ### The parts -/

theorem validateEach_eq_ok {α : Type} {kind : Str} {tag : α → Str} {check : α → Except Fault Unit}
    {seen : List Str} {as : List α} :
    validateEach kind tag check seen as = .ok () ↔
      (as.map tag).Nodup ∧ (∀ a ∈ as, tag a ∉ seen) ∧ ∀ a ∈ as, check a = .ok () := by
  induction as generalizing seen with
  | nil => exact iff_of_true rfl ⟨List.nodup_nil, by simp, by simp⟩
  | cons a as ih =>
    rw [validateEach, andThen_eq_ok, andThen_eq_ok, ensure_eq_ok, decide_eq_true_eq, ih, List.map_cons,
      List.nodup_cons, List.forall_mem_cons, List.forall_mem_cons]
    constructor
    · rintro ⟨hseen, hcheck, hnodup, hnew, hchecks⟩
      refine ⟨⟨fun hmem => ?_, hnodup⟩, ⟨hseen, fun b hb h => hnew b hb (List.mem_cons_of_mem _ h)⟩, hcheck, hchecks⟩
      obtain ⟨b, hb, heq⟩ := List.mem_map.mp hmem
      exact hnew b hb (heq ▸ List.mem_cons_self)
    · rintro ⟨⟨hmem, hnodup⟩, ⟨hseen, hnew⟩, hcheck, hchecks⟩
      refine ⟨hseen, hcheck, hnodup, fun b hb h => ?_, hchecks⟩
      rcases List.mem_cons.mp h with heq | h
      · exact hmem (heq ▸ List.mem_map_of_mem hb)
      · exact hnew b hb h

theorem validateDuration_eq_ok {context : Str} {r : Except Fault UInt64} :
    validateDuration context r = .ok () ↔ ∃ d, r = .ok d := by
  rw [validateDuration, withContext_eq_ok]
  cases r with
  | ok d => exact iff_of_true rfl ⟨d, rfl⟩
  | error e => exact iff_of_false (fun h => by cases h) fun ⟨d, h⟩ => by cases h

theorem map_unit_eq_ok {r : Except Fault UInt64} : (r.map fun _ => ()) = .ok () ↔ ∃ d, r = .ok d := by
  have hduration : validateDuration [] r = .ok () ↔ ∃ d, r = .ok d := validateDuration_eq_ok
  rwa [validateDuration, withContext_eq_ok] at hduration

theorem mapError_eq_ok {ε ε' α : Type} {f : ε → ε'} {r : Except ε α} {a : α} :
    r.mapError f = .ok a ↔ r = .ok a := by
  cases r with
  | ok b => exact ⟨fun h => congrArg Except.ok (Except.ok.inj h), fun h => congrArg Except.ok (Except.ok.inj h)⟩
  | error e => exact iff_of_false (fun h => by cases h) (fun h => by cases h)

theorem validateHealthCheck_eq_ok {tag : Str} {healthCheck : Option HealthCheckConfig} :
    validateHealthCheck tag healthCheck = .ok () ↔
      ∀ s ∈ healthCheck.toList.flatMap (·.durations), ∃ d, parseDuration s = .ok d := by
  cases healthCheck with
  | none => exact iff_of_true rfl (by simp)
  | some hc =>
    rw [validateHealthCheck, andThen_eq_ok, validateDuration_eq_ok, validateDuration_eq_ok]
    simp [HealthCheckConfig.durations]

theorem validateProvider_eq_ok {p : ProviderConfig} :
    validateProvider p = .ok () ↔ ∀ s ∈ p.durations, ∃ d, parseDuration s = .ok d := by
  cases p with
  | remote tag updateInterval healthCheck =>
    rw [validateProvider, andThen_eq_ok, validateDuration_eq_ok, validateHealthCheck_eq_ok,
      ProviderConfig.durations, List.forall_mem_cons]
  | file tag healthCheck => exact validateHealthCheck_eq_ok

theorem validateOutbound_eq_ok {ob : OutboundConfig} :
    validateOutbound ob = .ok () ↔ ∀ s ∈ ob.uuid, validateUuid s = .ok () := by
  unfold validateOutbound OutboundConfig.uuid
  split
  · rw [withContext_eq_ok]
    simp
  · rw [withContext_eq_ok]
    simp
  · rw [withContext_eq_ok]
    simp
  · exact iff_of_true rfl (by simp)

theorem provider_ensure_eq_ok {cond : Bool} {message : Str} :
    Provider.ensure cond message = .ok () ↔ cond = true := by
  cases cond with
  | true => exact iff_of_true rfl rfl
  | false => exact iff_of_false (fun h => by cases h) Bool.false_ne_true

theorem provider_validateOutboundGroup_eq_ok {tags providerTags : List Str}
    {g : Provider.OutboundConfig LeafSettings} :
    Provider.validateOutboundGroup tags providerTags g = .ok () ↔
      (g.isGroup = true → GroupValid tags providerTags g) := by
  cases hgroup : g.isGroup with
  | false =>
    rw [Provider.validateOutboundGroup, hgroup]
    exact iff_of_true rfl (fun h => absurd h Bool.false_ne_true)
  | true =>
    rw [Provider.validateOutboundGroup, hgroup, forall_prop_of_true rfl]
    refine (andThen_eq_ok.trans (and_congr provider_ensure_eq_ok (andThen_eq_ok.trans
      (and_congr forM_eq_ok_iff (andThen_eq_ok.trans (and_congr forM_eq_ok_iff forM_eq_ok_iff)))))).trans ?_
    simp only [andThen_eq_ok, provider_ensure_eq_ok, decide_eq_true_eq]
    constructor
    · rintro ⟨hne, hmembers, hproviders, hdefault⟩
      exact ⟨by simpa using hne, hmembers, hproviders, by simpa using hdefault⟩
    · rintro ⟨hne, hmembers, hproviders, hdefault⟩
      exact ⟨by simpa using hne, hmembers, hproviders, by simpa using hdefault⟩

theorem validateOutboundGroup_eq_ok {tags providerTags : List Str} {ob : OutboundConfig} :
    validateOutboundGroup tags providerTags ob = .ok () ↔
      (ob.base.isGroup = true → GroupValid tags providerTags ob.base) ∧
        ∀ s ∈ ob.durations, ∃ d, Group.parseDuration s = .ok d := by
  unfold validateOutboundGroup
  rw [andThen_eq_ok, mapError_eq_ok, provider_validateOutboundGroup_eq_ok]
  refine and_congr_right fun _ => ?_
  cases ob with
  | urlTest c interval idleTimeout =>
    refine (andThen_eq_ok.trans (and_congr map_unit_eq_ok map_unit_eq_ok)).trans ?_
    simp [OutboundConfig.durations]
  | leaf tag settings => exact iff_of_true rfl (by simp [OutboundConfig.durations])
  | selector c => exact iff_of_true rfl (by simp [OutboundConfig.durations])

theorem validateOutboundGroupCycles_eq_ok {keys : List Str} {outbounds : List OutboundConfig}
    (hkeys : keys.Perm (Provider.groupGraph (outbounds.map OutboundConfig.base)).keys)
    (hnodup : (outbounds.map OutboundConfig.tag).Nodup) :
    validateOutboundGroupCycles keys outbounds = .ok () ↔
      ∀ tag, ¬ TransGen (Provider.GroupEdge (outbounds.map OutboundConfig.base)) tag tag := by
  have htags : (outbounds.map OutboundConfig.base).map Provider.OutboundConfig.tag
      = outbounds.map OutboundConfig.tag := List.map_map
  obtain ⟨r, hr, hok, -⟩ := Provider.validateOutboundGroupCycles_correct (outbounds.map OutboundConfig.base)
    (htags ▸ hnodup) keys hkeys (keys.length + 1) (by rw [hkeys.length_eq]; exact Nat.lt_succ_self _)
  rw [validateOutboundGroupCycles, hr, ← hok]
  exact mapError_eq_ok

theorem validateUsers_eq_ok {protocol tag : Str} {users : List InboundUser} :
    validateUsers protocol tag users = .ok () ↔ ∀ s ∈ users.map (·.uuid), validateUuid s = .ok () := by
  rw [validateUsers, forM_eq_ok_iff, List.forall_mem_map]
  simp only [withContext_eq_ok]

theorem validateInbound_eq_ok {ib : InboundConfig} :
    validateInbound ib = .ok () ↔ (ib.port ≠ 0 ∨ ib.isTun = true) ∧
      (∀ s ∈ ib.uuids, validateUuid s = .ok ()) ∧ ib.kind.HasUsers := by
  rw [validateInbound, andThen_eq_ok, ensure_eq_ok, Bool.or_eq_true, decide_eq_true_eq]
  refine and_congr_right fun _ => ?_
  unfold InboundConfig.uuids InboundKind.HasUsers
  cases ib.kind with
  | vless users => exact validateUsers_eq_ok.trans (and_iff_left trivial).symm
  | vmess users => exact validateUsers_eq_ok.trans (and_iff_left trivial).symm
  | tuic users => exact validateUsers_eq_ok.trans (and_iff_left trivial).symm
  | trojan passwords => exact ensure_eq_ok.trans (by simp)
  | shadowsocks password passwords => exact ensure_eq_ok.trans (by simp [Option.isSome_iff_ne_none])
  | hysteria2 passwords tlsEnabled =>
    exact (andThen_eq_ok.trans (and_congr ensure_eq_ok ensure_eq_ok)).trans (by simp)
  | tun => exact iff_of_true rfl (by simp)
  | other => exact iff_of_true rfl (by simp)

/-- A loop of checks that only uses the index in its errors. -/
theorem forM_zipIdx_eq_ok {α : Type} {l : List α} {f : α × Nat → Except Fault Unit} {P : α → Prop}
    (h : ∀ a i, f (a, i) = .ok () ↔ P a) : l.zipIdx.forM f = .ok () ↔ ∀ a ∈ l, P a := by
  rw [forM_eq_ok_iff]
  constructor
  · intro hall a ha
    obtain ⟨i, hi, rfl⟩ := List.getElem_of_mem ha
    exact (h l[i] i).mp (hall (l[i], i) (List.mk_mem_zipIdx_iff_getElem?.mpr (List.getElem?_eq_getElem hi)))
  · intro hall p hp
    exact (h p.1 p.2).mpr (hall p.1 (List.fst_mem_of_mem_zipIdx hp))

/-- A loop that looks tags up succeeds exactly if all of them are known. -/
theorem forM_ensure_mem {tags known : List Str} {message : Str → Str} :
    (tags.forM fun tag => ensure (tag ∈ known) (message tag)) = .ok () ↔ ∀ tag ∈ tags, tag ∈ known := by
  simp only [forM_eq_ok_iff, ensure_eq_ok, decide_eq_true_eq]

section Sections

variable {config : Config}

theorem validateRouteOutbounds_eq_ok : config.validateRouteOutbounds = .ok () ↔
    config.route.final ∈ config.outboundTags ∧ ∀ rule ∈ config.route.rules, usesOutbound rule = true →
      rule.outbound = "dns-out".toList ∨ rule.outbound ∈ config.outboundTags := by
  rw [validateRouteOutbounds, andThen_eq_ok, ensure_eq_ok, decide_eq_true_eq]
  refine and_congr_right fun _ => forM_zipIdx_eq_ok fun rule i => ?_
  dsimp only
  split_ifs with huses
  · rw [ensure_eq_ok, Bool.or_eq_true, decide_eq_true_eq, decide_eq_true_eq]
    exact ⟨fun h _ => h, fun h => h huses⟩
  · exact iff_of_true rfl fun h => absurd h huses

theorem validateRulesets_eq_ok : config.validateRulesets = .ok () ↔
    config.rulesetTags.Nodup ∧ ∀ rule ∈ config.route.rules, ∀ tag ∈ rule.ruleset, tag ∈ config.rulesetTags := by
  have hcard : config.rulesetTags.toFinset.card = config.route.ruleSet.length ↔ config.rulesetTags.Nodup := by
    have hlength : config.route.ruleSet.length = config.rulesetTags.length := (List.length_map _).symm
    rw [hlength]
    exact Multiset.toFinset_card_eq_card_iff_nodup.trans Multiset.coe_nodup
  rw [validateRulesets, andThen_eq_ok, ensure_eq_ok, decide_eq_true_eq, hcard]
  exact and_congr_right fun _ => forM_zipIdx_eq_ok fun _ _ => forM_ensure_mem

theorem validateRouteInbounds_eq_ok : config.validateRouteInbounds = .ok () ↔
    ∀ rule ∈ config.route.rules, ∀ tag ∈ rule.inbound, tag ∈ config.inboundTags :=
  forM_zipIdx_eq_ok fun _ _ => forM_ensure_mem

theorem validateDns_eq_ok : config.validateDns = .ok () ↔
    config.dnsTags.Nodup ∧ (config.dns.servers ≠ [] → config.dns.final ∈ config.dnsTags) ∧
      ∀ rule ∈ config.dns.rules, rule.server ∈ config.dnsTags ∧ ∀ tag ∈ rule.inbound, tag ∈ config.inboundTags := by
  rw [validateDns, andThen_eq_ok, andThen_eq_ok, validateEach_eq_ok, ensure_eq_ok, Bool.or_eq_true,
    List.isEmpty_iff, decide_eq_true_eq, or_iff_not_imp_left]
  refine and_congr (and_iff_left ⟨fun srv _ => List.not_mem_nil, fun _ _ => rfl⟩) (and_congr_right fun _ => ?_)
  exact forM_zipIdx_eq_ok fun _ _ => andThen_eq_ok.trans
    (and_congr (ensure_eq_ok.trans decide_eq_true_iff) forM_ensure_mem)

theorem ensureDistinct_eq_ok {message : Str} {seen tags : List Str} :
    Provider.ensureDistinct message seen tags = .ok () ↔ tags.Nodup ∧ ∀ tag ∈ tags, tag ∉ seen := by
  induction tags generalizing seen with
  | nil => exact iff_of_true rfl ⟨List.nodup_nil, by simp⟩
  | cons tag tags ih =>
    rw [Provider.ensureDistinct, andThen_eq_ok, provider_ensure_eq_ok, decide_eq_true_eq, ih, List.nodup_cons,
      List.forall_mem_cons]
    constructor
    · rintro ⟨hseen, hnodup, hnew⟩
      exact ⟨⟨fun hmem => hnew tag hmem List.mem_cons_self, hnodup⟩, hseen,
        fun t ht h => hnew t ht (List.mem_cons_of_mem _ h)⟩
    · rintro ⟨⟨hmem, hnodup⟩, hseen, hnew⟩
      refine ⟨hseen, hnodup, fun t ht h => ?_⟩
      rcases List.mem_cons.mp h with rfl | h
      · exact hmem ht
      · exact hnew t ht h

/-- What the groups of a valid configuration are checked for again passes. -/
theorem Valid.validate_groups (h : config.Valid) : config.groups.validate = .ok () := by
  have htags : config.groups.outbounds.map Provider.OutboundConfig.tag = config.outboundTags := List.map_map
  rw [Provider.Config.validate, htags]
  refine andThen_eq_ok.mpr ⟨ensureDistinct_eq_ok.mpr ⟨h.providerTags, by simp⟩, ?_⟩
  refine andThen_eq_ok.mpr ⟨ensureDistinct_eq_ok.mpr ⟨h.outboundTags, by simp⟩, ?_⟩
  refine forM_eq_ok_iff.mpr (List.forall_mem_map.mpr fun ob hob => ?_)
  exact provider_validateOutboundGroup_eq_ok.mpr (h.groups ob hob)

/-- **Validation** accepts exactly the valid configurations, in whatever order the map of the groups yields its
    keys. -/
theorem validate_eq_ok_iff (config : Config) {keys : List Str}
    (hkeys : keys.Perm (Provider.groupGraph (config.outbounds.map OutboundConfig.base)).keys) :
    config.validate keys = .ok () ↔ config.Valid := by
  rw [validate]
  simp only [andThen_eq_ok, validateEach_eq_ok, forM_eq_ok_iff, withContext_eq_ok, validateRouteOutbounds_eq_ok,
    validateRulesets_eq_ok, validateRouteInbounds_eq_ok, validateDns_eq_ok, validateProvider_eq_ok,
    validateOutbound_eq_ok, validateOutboundGroup_eq_ok, validateInbound_eq_ok]
  constructor
  · rintro ⟨⟨hp, -, hproviders⟩, ⟨ho, -, huuids⟩, hgroups, hcycles, ⟨hfinal, houtbounds⟩, ⟨hr, hrulesets⟩,
      ⟨hi, -, hinbounds⟩, hrouteInbounds, hd, hdfinal, hdrules⟩
    exact {
      providerTags := hp
      providers := hproviders
      outboundTags := ho
      outboundUuids := huuids
      groups := fun ob hob => (hgroups ob hob).1
      groupDurations := fun ob hob => (hgroups ob hob).2
      acyclic := (validateOutboundGroupCycles_eq_ok hkeys ho).mp hcycles
      final := hfinal
      outbounds := houtbounds
      rulesetTags := hr
      rulesets := hrulesets
      inboundTags := hi
      ports := fun ib hib => (hinbounds ib hib).1
      inboundUuids := fun ib hib => (hinbounds ib hib).2.1
      users := fun ib hib => (hinbounds ib hib).2.2
      inbounds := hrouteInbounds
      dnsTags := hd
      dnsFinal := hdfinal
      dnsRules := hdrules }
  · intro h
    -- every check for duplicates starts with no tag seen
    have hnot {α : Type} (l : List α) (tag : α → Str) : ∀ a ∈ l, tag a ∉ ([] : List Str) :=
      fun _ _ => List.not_mem_nil
    exact ⟨⟨h.providerTags, hnot _ _, h.providers⟩, ⟨h.outboundTags, hnot _ _, h.outboundUuids⟩,
      fun ob hob => ⟨h.groups ob hob, h.groupDurations ob hob⟩,
      (validateOutboundGroupCycles_eq_ok hkeys h.outboundTags).mpr h.acyclic, ⟨h.final, h.outbounds⟩,
      ⟨h.rulesetTags, h.rulesets⟩, ⟨h.inboundTags, hnot _ _, fun ib hib => ⟨h.ports ib hib, h.inboundUuids ib hib,
        h.users ib hib⟩⟩, h.inbounds, h.dnsTags, h.dnsFinal, h.dnsRules⟩

/-- A selector over a url-test group and a leaf, with providers, rules, inbounds and DNS servers that refer to each
    other. -/
def nestedConfig : Config where
  providers := [.remote "sub".toList "1h".toList (some ⟨"10m".toList, "5s".toList⟩), .file "mine".toList none]
  outbounds := [.leaf "direct".toList .other,
    .leaf "jp".toList (.vless "00000000-0000-0000-0000-000000000001".toList),
    .urlTest ⟨"auto".toList, ["jp".toList], some { tags := ["sub".toList, "mine".toList] }⟩ "3m".toList "30m".toList,
    .selector ⟨"proxy".toList, ["auto".toList, "direct".toList], none, some "auto".toList⟩]
  route := {
    rules := [{ sniff := true }, { ruleset := ["ads".toList], outbound := "direct".toList },
      { inbound := ["in".toList], outbound := "auto".toList }]
    final := "proxy".toList
    ruleSet := [{ tag := "ads".toList, type := .local }] }
  inbounds := [⟨"in".toList, 1080, .other⟩, ⟨"tun".toList, 0, .tun⟩,
    ⟨"ss".toList, 8388, .shadowsocks none ["secret".toList]⟩]
  dns := {
    servers := [{ tag := "a".toList, address := "1.1.1.1".toList }, { tag := "b".toList, address := "8.8.8.8".toList }]
    rules := [{ server := "b".toList, inbound := ["in".toList] }]
    final := "a".toList }

/-- The same with a member of the url-test group that leads back to it. -/
def circularConfig : Config where
  outbounds := [.leaf "direct".toList .other,
    .urlTest ⟨"auto".toList, ["proxy".toList], none⟩ "3m".toList "30m".toList,
    .selector ⟨"proxy".toList, ["auto".toList, "direct".toList], none, none⟩]
  route := { final := "proxy".toList }

/-- The keys of the groups are in one order here, and any other one leads to the same. -/
theorem validate_eq_ok_iff_nested :
    nestedConfig.Valid ∧ ¬ circularConfig.Valid ∧
      ∀ keys : List Str, keys.Perm ["auto".toList, "proxy".toList] → nestedConfig.validate keys = .ok () := by
  have hkeys : ["auto".toList, "proxy".toList].Perm
      (Provider.groupGraph (nestedConfig.outbounds.map OutboundConfig.base)).keys := by
    decide +kernel
  have hcircular : ["auto".toList, "proxy".toList].Perm
      (Provider.groupGraph (circularConfig.outbounds.map OutboundConfig.base)).keys := by
    decide +kernel
  have hvalid := (validate_eq_ok_iff nestedConfig hkeys).mp (by decide +kernel)
  refine ⟨hvalid, fun h => ?_, fun keys hperm => (validate_eq_ok_iff nestedConfig (hperm.trans hkeys)).mpr hvalid⟩
  have hrefused : circularConfig.validate ["auto".toList, "proxy".toList] ≠ .ok () := by decide +kernel
  exact hrefused ((validate_eq_ok_iff circularConfig hcircular).mpr h)

end Sections

end Reflex.Config
