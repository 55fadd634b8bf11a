import Mathlib.Data.List.AList
import Reflex.Dns.Config
import Reflex.Dns.FakeIpFile
import Reflex.Dns.Handle
import Reflex.Ruleset.Matcher

namespace Reflex.Dns

open RustStd Ruleset Experimental

/-!
# DNS — upstreams and rules of a resolver

`DnsResolver::from_config_full` of `dns/mod.rs`: the servers are put in an order in which each comes behind the one
that resolves its address, an upstream is built for each, and the rules are compiled against them.  An upstream that
rules and other upstreams share is referred to by its tag.

* `toposortServers` — the order, by counting for each server what it waits for;
* `addUpstream`, `upstreamKind` — an upstream of the kind that its address asks for, with its detour and resolver;
* `CompiledDnsRule.compile`, `CompiledDnsRule.matches` — a rule, and which queries it is for;
* `DnsError` — everything that is refused, with the texts;
* `fromConfigFull_spec` — what a resolver that was built has.
-/

/-! ### The order of the servers -/

/-- Why a DNS section is rejected. -/
inductive DnsError where
  | optimisticWithoutCache
  | resolverNotFound (server resolver : Str)
  | resolverPair (server resolver : Str)
  | resolverCycle
  | unknownDetour (server detour : Str)
  | unknownResolver (server resolver : Str)
  | invalidRcode (server : Str)
  | addrParse
  | dohScheme (url : Str)
  | dohPort (url : Str)
  | tls (msg : Str)
  | fakeipMissing (server : Str)
  | fakeipStore (server msg : Str)
  | serverNotFound (server : Str)
  | inlineRules (e : LoadFault)
  | finalNotFound (tag : Str)
  deriving DecidableEq

/-- The texts of the errors. -/
def DnsError.toText : DnsError → Str
  | .optimisticWithoutCache =>
      "`optimistic_timeout` cannot be used with `disable_cache: true`".toList
  | .resolverNotFound server resolver => "dns server '".toList ++ server
      ++ "' domain_resolver '".toList ++ resolver ++ "' not found".toList
  | .resolverPair server resolver => "dns server domain_resolver cycle between '".toList ++ server
      ++ "' and '".toList ++ resolver ++ "'".toList
  | .resolverCycle => "dns server domain_resolver has a cycle".toList
  | .unknownDetour server detour => "dns server '".toList ++ server
      ++ "' references unknown detour '".toList ++ detour ++ "'".toList
  | .unknownResolver server resolver => "dns server '".toList ++ server
      ++ "' references unknown domain_resolver '".toList ++ resolver ++ "'".toList
  | .invalidRcode server => "invalid rcode in '".toList ++ server ++ "'".toList
  | .addrParse => "invalid socket address syntax".toList
  | .dohScheme url => "DoH URL must start with https://: ".toList ++ url
  | .dohPort url => "invalid DoH port in: ".toList ++ url
  | .tls msg => msg
  | .fakeipMissing server => "dns server '".toList ++ server
      ++ "': address is 'fakeip://' but 'fakeip' config is missing".toList
  | .fakeipStore server msg => "dns server '".toList ++ server ++ "' fakeip store: ".toList ++ msg
  | .serverNotFound server => "dns server '".toList ++ server ++ "' not found".toList
  | .inlineRules (.error e) => e.toText
  | .inlineRules .underflow => "attempt to subtract with overflow".toList
  | .finalNotFound tag => "dns.final '".toList ++ tag ++ "' not found".toList

/-- The `tag_to_idx` of `toposort_servers`: of equal tags the last one counts. -/
def tagToIdx (servers : List DnsServerConfig) (tag : Str) : Option Nat :=
  (servers.zipIdx.reverse.find? fun p => decide (p.1.tag = tag)).map (·.2)

/-- The tables of `toposort_servers`. -/
structure Dependencies where
  inDegree : List Nat
  deps : List (Option Nat)

/-- One server of the first loop of `toposort_servers`. -/
def addDependency (servers : List DnsServerConfig) (d : Dependencies)
    (entry : DnsServerConfig × Nat) : Except DnsError Dependencies :=
  let (srv, i) := entry
  match srv.domainResolver with
  | none => .ok d
  | some tag =>
      match tagToIdx servers tag with
      | none => .error (.resolverNotFound srv.tag tag)
      | some j =>
          let d : Dependencies :=
            { deps := d.deps.set i (some j), inDegree := d.inDegree.modify i (· + 1) }
          -- the server it depends on may depend on it
          if d.deps[j]? = some (some i) then
            .error (.resolverPair srv.tag ((servers[j]?.map (·.tag)).getD []))
          else .ok d

/-- The servers that wait for `node`: their count goes down, and those that reach zero are
    queued. -/
def releaseDependents (deps : List (Option Nat)) (node : Nat) (inDegree queue : List Nat) :
    List Nat × List Nat :=
  (List.range deps.length).foldl (fun (st : List Nat × List Nat) i =>
    if deps[i]? = some (some node) then
      let inDegree := st.1.modify i (· - 1)
      (inDegree, if inDegree[i]? = some 0 then st.2 ++ [i] else st.2)
    else st) (inDegree, queue)

/-- The second loop of `toposort_servers`; each server is queued at most once. -/
def drain (deps : List (Option Nat)) : Nat → List Nat → List Nat → List Nat → List Nat
  | 0, _, _, order => order
  | _ + 1, _, [], order => order
  | fuel + 1, inDegree, node :: queue, order =>
      let (inDegree, queue) := releaseDependents deps node inDegree queue
      drain deps fuel inDegree queue (order ++ [node])

/-- `toposort_servers`. -/
def toposortServers (servers : List DnsServerConfig) : Except DnsError (List Nat) := do
  let n := servers.length
  let d ← servers.zipIdx.foldlM (addDependency servers)
    { inDegree := List.replicate n 0, deps := List.replicate n none }
  let queue := (List.range n).filter fun i => decide (d.inDegree[i]? = some 0)
  let order := drain d.deps n d.inDegree queue []
  if order.length ≠ n then .error .resolverCycle else return order

/-! ### Upstreams -/

/-- `UpstreamKind`. -/
inductive UpstreamKind where
  | udp (addr : SocketAddr)
  | tcp (addr : SocketAddr)
  | doh (host : Str) (port : UInt16) (path : Str) (resolvedAddr : Option IpAddr)
  | dot (addr : SocketAddr) (sni : Str)
  | doq (addr : SocketAddr) (sni : Str)
  | rcode (action : RcodeAction)
  | fakeIp (store : FakeIpStore)

/-- `matches!(kind, UpstreamKind::FakeIp { .. })`. -/
def UpstreamKind.isFakeIp : UpstreamKind → Bool
  | .fakeIp _ => true
  | _ => false

/-- `DnsUpstream`, without its sockets; the detour and the bootstrap resolver are tags. -/
structure DnsUpstream where
  tag : Str
  kind : UpstreamKind
  detour : Option Str
  domainResolver : Option Str

/-- `parse_addr`. -/
def parseAddr (s : Str) (defaultPort : UInt16) : Except DnsError SocketAddr :=
  let text := if s.head? = some '[' || s.contains ':' then s
    else s ++ ":".toList ++ display defaultPort.toNat
  match SocketAddr.fromStr text with
  | some addr => .ok addr
  | none => .error .addrParse

/-- `parse_doh_url`. -/
def parseDohUrl (url : Str) : Except DnsError (Str × UInt16 × Str) :=
  match stripPrefix "https://".toList url with
  | none => .error (.dohScheme url)
  | some rest =>
      let (hostPort, path) := match splitOnce '/' rest with
        | some (hostPort, path) => (hostPort, '/' :: path)
        | none => (rest, "/".toList)
      match rsplitOnce ':' hostPort with
      | some (host, portStr) =>
          match parseU16 portStr with
          | some port => .ok (host, port, path)
          | none => .error (.dohPort url)
      | none => .ok (hostPort, 443, path)

section Build

variable (E : Externals) (buildTls : DnsServerConfig → Except Str Unit)

/-- An upstream with TLS; `buildTls` stands for the TLS configuration, which may fail. -/
def tlsUpstream (srv : DnsServerConfig) (pre : Str) (kind : SocketAddr → Str → UpstreamKind) :
    Except DnsError UpstreamKind := do
  let addr ← parseAddr ((stripPrefix pre srv.address).getD srv.address) 853
  match buildTls srv with
  | .ok _ => return kind addr (srv.sni.getD addr.ip.display)
  | .error e => .error (.tls e)

/-- The `kind` of `DnsUpstream::from_config_full_with_reader`. -/
def upstreamKind (srv : DnsServerConfig) (cacheFile : Option CacheFile)
    (cacheReader : Option Database) : Except DnsError UpstreamKind :=
  match srv.protocol with
  | .rcode =>
      match srv.rcode with
      | some action => .ok (.rcode action)
      | none => .error (.invalidRcode srv.tag)
  | .doh => do
      let (host, port, path) ← parseDohUrl srv.address
      match buildTls srv with
      | .ok _ => return .doh host port path (IpAddr.fromStr host)
      | .error e => .error (.tls e)
  | .tcp => do
      return .tcp (← parseAddr ((stripPrefix "tcp://".toList srv.address).getD srv.address) 53)
  | .udp => do
      return .udp (← parseAddr ((stripPrefix "udp://".toList srv.address).getD srv.address) 53)
  | .dot => tlsUpstream buildTls srv "tls://".toList .dot
  | .doq => tlsUpstream buildTls srv "quic://".toList .doq
  | .fakeIp =>
      match srv.fakeip with
      | none => .error (.fakeipMissing srv.tag)
      | some cfg =>
          match FakeIpStore.newWithCache cfg cacheFile cacheReader with
          | .ok store => .ok (.fakeIp store)
          | .error e => .error (.fakeipStore srv.tag e)

/-- `DnsUpstream::with_strategy`. -/
def DnsUpstream.withStrategy (up : DnsUpstream) (s : ResolveStrategy) : DnsUpstream :=
  match up.kind with
  | .fakeIp store => { up with kind := .fakeIp (store.setStrategy s) }
  | _ => up

/-- The upstreams of a resolver by their tags. -/
abbrev Upstreams := AList fun _ : Str => DnsUpstream

/-- The `detour` of the loop of `from_config_full`; without outbounds it is dropped with a
    warning. -/
def detourOf (srv : DnsServerConfig) (outbounds : Option (List Str)) : Except DnsError (Option Str) :=
  match srv.detour, outbounds with
  | some tag, some obs => if tag ∈ obs then .ok (some tag) else .error (.unknownDetour srv.tag tag)
  | some _, none => .ok none
  | none, _ => .ok none

/-- The `domain_resolver` of the loop: an upstream that has been built already. -/
def domainResolverOf (srv : DnsServerConfig) (upstreams : Upstreams) :
    Except DnsError (Option Str) :=
  match srv.domainResolver with
  | some tag =>
      if (upstreams.lookup tag).isSome then .ok (some tag)
      else .error (.unknownResolver srv.tag tag)
  | none => .ok none

/-- One server of the loop of `from_config_full`. -/
def addUpstream (config : DnsConfig) (outbounds : Option (List Str)) (cacheFile : Option CacheFile)
    (cacheReader : Option Database) (upstreams : Upstreams) (idx : Nat) :
    Except DnsError Upstreams :=
  match config.servers[idx]? with
  | none => .ok upstreams
  | some srv => do
      let detour ← detourOf srv outbounds
      let domainResolver ← domainResolverOf srv upstreams
      -- only a FakeIP server gets the cache file
      let (cf, cr) := if srv.protocol = .fakeIp then (cacheFile, cacheReader) else (none, none)
      let kind ← upstreamKind buildTls srv cf cr
      let up : DnsUpstream := { tag := srv.tag, kind, detour, domainResolver }
      return upstreams.insert srv.tag (up.withStrategy config.strategy)

/-! ### Rules -/

/-- `CompiledDnsRule`; its upstream is referred to by its tag. -/
structure CompiledDnsRule where
  inboundTags : List Str
  queryTypes : List UInt16
  inlineRs : Option RuleSet
  fileRulesets : List RuleSet
  upstream : Str
  disableCache : Bool

/-- The number of a query type. -/
def DnsQueryType.code : DnsQueryType → UInt16
  | .a => 1
  | .aaaa => 28
  | .cname => 5
  | .mx => 15
  | .txt => 16
  | .ns => 2
  | .ptr => 12
  | .srv => 33
  | .https => 65

/-- The lines of the inline conditions of a rule. -/
def DnsRuleConfig.inlineLines (rule : DnsRuleConfig) : List Str :=
  rule.domain.map (fun d => "domain: ".toList ++ d)
    ++ rule.domainSuffix.map (fun d => "domain-suffix: ".toList ++ d)
    ++ rule.domainKeyword.map fun d => "domain-keyword: ".toList ++ d

/-- `CompiledDnsRule::compile`. -/
def CompiledDnsRule.compile (upstreams : Upstreams) (preloaded : Str → Option RuleSet)
    (rule : DnsRuleConfig) : Except DnsError CompiledDnsRule := do
  match upstreams.lookup rule.server with
  | none => .error (.serverNotFound rule.server)
  | some _ =>
      let inlineRs ← if rule.inlineLines = [] then .ok none
        else match RuleSet.fromText E (join ['\n'] rule.inlineLines) with
          | .ok rs => .ok (some rs)
          | .error e => .error (.inlineRules e)
      return { inboundTags := rule.inbound
               queryTypes := rule.queryType.map DnsQueryType.code
               inlineRs
               -- a rule set that is not loaded is skipped with a warning
               fileRulesets := rule.ruleset.filterMap preloaded
               upstream := rule.server
               disableCache := rule.disableCache }

/-- `CompiledDnsRule::matches`. -/
def CompiledDnsRule.matches (r : CompiledDnsRule) (inboundTag qname : Str) (qtype : UInt16) : Bool :=
  if r.inboundTags ≠ [] ∧ inboundTag ∉ r.inboundTags then false
  else if r.queryTypes ≠ [] ∧ qtype ∉ r.queryTypes then false
  else
    let hasCond := r.inlineRs.isSome || !r.fileRulesets.isEmpty
    let hit := r.inlineRs.any (fun rs => rs.matches (.domain qname))
      || r.fileRulesets.any fun rs => rs.matches (.domain qname)
    !(hasCond && !hit)

/-! ### The resolver -/

/-- `DnsResolver`; its cache is what the cache is built with. -/
structure DnsResolver where
  rules : List CompiledDnsRule
  default : Str
  cache : Option CacheConfig
  upstreams : Upstreams
  strategy : ResolveStrategy

/-- The `cache` of `from_config_full`. -/
def cacheOf (config : DnsConfig) (persist : Bool) : Option CacheConfig :=
  if config.disableCache then none
  else some { ttlCap := if 0 < config.cacheTtlMax then config.cacheTtlMax else 3600
              optimisticTtl :=
                if 0 < config.optimisticTimeout then some (config.optimisticTimeout * second)
                else none
              persist }

/-- `DnsResolver::from_config_full`. -/
def DnsResolver.fromConfigFull (config : DnsConfig) (rulesets : Str → Option RuleSet)
    (outbounds : Option (List Str)) (cacheWriter : Option CacheFile)
    (cacheReader : Option Database) : Except DnsError DnsResolver := do
  if 0 < config.optimisticTimeout ∧ config.disableCache then .error .optimisticWithoutCache
  else
    let order ← toposortServers config.servers
    let upstreams ← order.foldlM (addUpstream buildTls config outbounds cacheWriter cacheReader) ∅
    let rules ← config.rules.mapM (CompiledDnsRule.compile E upstreams rulesets)
    match upstreams.lookup config.final with
    | none => .error (.finalNotFound config.final)
    | some _ =>
        return { rules
                 default := config.final
                 cache := cacheOf config (cacheReader.isSome && cacheWriter.any (·.storeDns))
                 upstreams
                 strategy := config.strategy }

/-- A resolver that is built: its upstreams come from the servers, in their order, and one of them
    is its `final`. -/
theorem DnsResolver.fromConfigFull_spec {config : DnsConfig} {rulesets : Str → Option RuleSet}
    {outbounds : Option (List Str)} {cacheWriter : Option CacheFile}
    {cacheReader : Option Database} {r : DnsResolver}
    (h : fromConfigFull E buildTls config rulesets outbounds cacheWriter cacheReader = .ok r) :
    ∃ order, toposortServers config.servers = .ok order ∧
      order.foldlM (addUpstream buildTls config outbounds cacheWriter cacheReader) ∅
        = .ok r.upstreams ∧
      config.rules.mapM (CompiledDnsRule.compile E r.upstreams rulesets) = .ok r.rules ∧
      r.default = config.final ∧ (r.upstreams.lookup r.default).isSome = true := by
  unfold fromConfigFull at h
  split at h
  · cases h
  · obtain ⟨order, horder, h⟩ := bind_eq_ok.mp h
    obtain ⟨upstreams, hups, h⟩ := bind_eq_ok.mp h
    obtain ⟨rules, hrules, h⟩ := bind_eq_ok.mp h
    split at h
    · cases h
    · rename_i up hup
      obtain rfl := Except.ok.inj h
      exact ⟨order, horder, hups, hrules, rfl, by rw [hup]; rfl⟩

end Build

end Reflex.Dns
