import Reflex.Dns.FakeIp

namespace Reflex.Dns

open RustStd

/-!
# DNS — the configuration

`config/dns.rs`: the DNS section of the configuration after deserialization.  Fields that only the sockets and TLS
connections of an upstream read are left out.

* `DnsServerConfig` — a server: its address, the outbound that queries go through, and the server that resolves its
  name;
* `DnsServerConfig.protocol` — which protocol the address stands for, by its scheme;
* `DnsRuleConfig` — a rule that sends queries to a server, by names, types, inbounds and rule sets;
* `DnsConfig` — servers and rules in their order, with the settings of the cache and the strategy.

As with the route section, nothing here has been checked yet.
-/

/-- `DnsProtocol`. -/
inductive DnsProtocol where
  | udp | tcp | dot | doh | doq | rcode | fakeIp
  deriving DecidableEq, Repr

/-- `RcodeAction`. -/
inductive RcodeAction where
  | refused | success | nxDomain
  deriving DecidableEq, Repr

/-- `DnsServerConfig`. -/
structure DnsServerConfig where
  tag : Str
  address : Str
  detour : Option Str := none
  fakeip : Option FakeIpConfig := none
  domainResolver : Option Str := none
  sni : Option Str := none

/-- `str::strip_prefix`. -/
def stripPrefix (pre s : Str) : Option Str := if pre.isPrefixOf s then some (s.drop pre.length) else none

/-- `DnsServerConfig::protocol`. -/
def DnsServerConfig.protocol (srv : DnsServerConfig) : DnsProtocol :=
  if "https://".toList.isPrefixOf srv.address then .doh
  else if "tls://".toList.isPrefixOf srv.address then .dot
  else if "quic://".toList.isPrefixOf srv.address then .doq
  else if "tcp://".toList.isPrefixOf srv.address then .tcp
  else if "udp://".toList.isPrefixOf srv.address then .udp
  else if "rcode://".toList.isPrefixOf srv.address then .rcode
  else if "fakeip://".toList.isPrefixOf srv.address then .fakeIp
  else .udp

/-- `DnsServerConfig::rcode`. -/
def DnsServerConfig.rcode (srv : DnsServerConfig) : Option RcodeAction := do
  let code ← stripPrefix "rcode://".toList srv.address
  if code = "refused".toList then some .refused
  else if code = "success".toList then some .success
  else if code = "nxdomain".toList then some .nxDomain
  else none

/-- `DnsQueryType`. -/
inductive DnsQueryType where
  | a | aaaa | cname | mx | txt | ns | ptr | srv | https
  deriving DecidableEq, Repr

/-- `DnsRuleConfig`. -/
structure DnsRuleConfig where
  inbound : List Str := []
  ruleset : List Str := []
  domain : List Str := []
  domainSuffix : List Str := []
  domainKeyword : List Str := []
  queryType : List DnsQueryType := []
  server : Str
  disableCache : Bool := false

/-- `DnsConfig`. -/
structure DnsConfig where
  servers : List DnsServerConfig := []
  rules : List DnsRuleConfig := []
  final : Str := "default".toList
  strategy : ResolveStrategy := .preferIpv4
  disableCache : Bool := false
  cacheTtlMax : Nat := 0
  optimisticTimeout : Nat := 0

end Reflex.Dns
