import Reflex.App.Dispatcher
import Reflex.Config.Validate
import Reflex.Dns.Toposort
import Reflex.Lib.Outcome
import Reflex.Provider.Dial
import Reflex.Router.Declared

namespace Reflex.App

open RustStd Ruleset Routing Dns Experimental Outcome Relation Toposort

/-!
# The application — starting from a valid configuration

`App::start_with_config_path` opens the cache file and builds the router, the DNS resolver, the outbounds, and the
DNS resolver once more, which now can refer to the outbounds.

Validation leaves more open than whether files can be read and connections set up.  It does not look at the
outbound that a DNS server detours through, nor at the server that resolves its name, nor whether the times of the
DNS cache go together; and it allows a section for DNS without any server.

* `Startable` — what has to be right about a valid configuration beyond what validation looks at;
* `starts_iff` — a valid configuration starts exactly if it is so;
* `dispatch_leaf` — every connection of what has started is answered by the DNS handler or reaches an outbound
  that is no group.
-/

/-! ### Building the parts -/

/-- Why nothing is started: the error of the first part that fails. -/
inductive StartError where
  | cacheFile (msg : Str)
  | router (e : RouterError)
  | dns (e : DnsError)
  | outbounds (msg : Str)
  deriving DecidableEq

/-- What the parts are built with: the way rule sets are loaded, the constructors of the TLS upstreams and of the
    outbounds, the selections that were saved, and what opening the cache file comes to.  There is no cache file if
    the configuration does not enable one. -/
structure Environment where
  externals : Externals
  load : RuleSetRef → Except Str RuleSet
  buildTls : DnsServerConfig → Except Str Unit
  construct : Provider.OutboundConfig Config.LeafSettings → Except Str Unit
  loadSelected : Str → Option Str
  openCacheFile : Except Str (Option (CacheFile × Database))

/-- The parts that work together when everything has started. -/
structure Started where
  router : Router
  outbounds : Provider.State Config.LeafSettings
  dnsResolver : DnsResolver

/-- `App::start_with_config_path`, up to the inbounds. -/
def start (env : Environment) (config : Config) : Except StartError Started := do
  let file ← env.openCacheFile.mapError .cacheFile
  let router ← (Router.fromConfig env.externals env.load config.route).mapError .router
  -- the rule sets that the router has loaded
  let rulesets ← (loadRulesets env.load config.route.ruleSet).mapError .router
  let dnsResolver (outbounds : Option (List Str)) := (DnsResolver.fromConfigFull env.externals env.buildTls
    config.dns rulesets outbounds (file.map Prod.fst) (file.map Prod.snd)).mapError .dns
  -- the outbounds are built with a resolver that does not know them yet
  let _ ← dnsResolver none
  let outbounds ← (Provider.State.start env.construct env.loadSelected config.groups).mapError .outbounds
  return { router, outbounds, dnsResolver := ← dnsResolver (some config.outboundTags) }

/-! ### What is not validated -/

/-- Inline conditions that can be compiled, if there are any. -/
def Compiles (E : Externals) (ls : List Str) : Prop := ls = [] ∨ Succeeds (RuleSet.fromText E (join ['\n'] ls))

/-- The cache file is for a FakeIP server. -/
def serverKind (env : Environment) (file : Option (CacheFile × Database)) (srv : DnsServerConfig) :
    Except DnsError UpstreamKind :=
  upstreamKind env.buildTls srv (if srv.protocol = .fakeIp then file.map Prod.fst else none)
    (if srv.protocol = .fakeIp then file.map Prod.snd else none)

/-- **What validation leaves open**: the cache file can be opened, the rule sets can be loaded and the inline
    conditions compiled, a rule that hijacks DNS has a condition, and the outbounds and the DNS servers can be built.
    The section for DNS has servers, and does not ask for stale answers with the cache turned off.  Each server
    detours through a known outbound, and is resolved by a server that is declared (`ResolversDeclared`), but not by
    itself in a circle. -/
structure Startable (env : Environment) (config : Config) : Prop where
  cacheFile : Succeeds env.openCacheFile
  rulesets : ∀ ref ∈ config.route.ruleSet, Succeeds (env.load ref)
  hijacks : ∀ rule ∈ config.route.rules, rule.hijackDns = true → rule.hasConditions = true
  conditions : ∀ rule ∈ config.route.rules,
    Compiles env.externals (addrLines rule) ∧ Compiles env.externals (portLines rule)
  outbounds : ∀ ob ∈ config.outbounds, env.construct ob.base = .ok ()
  servers : config.dns.servers ≠ []
  cached : ¬ (0 < config.dns.optimisticTimeout ∧ config.dns.disableCache = true)
  resolvers : ResolversDeclared config.dns.servers ∧ ∀ i, ¬ TransGen (Resolves config.dns.servers) i i
  kinds : ∀ file, env.openCacheFile = .ok file →
    ∀ srv ∈ config.dns.servers, Succeeds (serverKind env file srv)
  detours : ∀ srv ∈ config.dns.servers, ∀ tag ∈ srv.detour, tag ∈ config.outboundTags
  dnsConditions : ∀ rule ∈ config.dns.rules, Compiles env.externals rule.inlineLines

/-! ### The router -/

section Router

variable {E : Externals} {load : RuleSetRef → Except Str RuleSet}

theorem succeeds_compileLines {ls : List Str} : Succeeds (compileLines E ls) ↔ Compiles E ls := by
  unfold compileLines Compiles
  split_ifs with hnil
  · exact iff_of_true succeeds_ok (.inl hnil)
  · rw [or_iff_right hnil]
    cases RuleSet.fromText E (join ['\n'] ls) with
    | ok rs => exact iff_of_true succeeds_ok succeeds_ok
    | error e => exact iff_of_false not_succeeds_error not_succeeds_error

theorem succeeds_loadRulesets {refs : List RuleSetRef} :
    Succeeds (loadRulesets load refs) ↔ ∀ ref ∈ refs, Succeeds (load ref) := by
  refine succeeds_foldlM (I := fun _ _ => True) trivial fun done ref rest m _ _ => ⟨?_, fun _ _ => trivial⟩
  cases load ref with
  | ok rs => exact iff_of_true succeeds_ok succeeds_ok
  | error e => exact iff_of_false not_succeeds_error not_succeeds_error

/-- What is loaded is found under its tag. -/
theorem isSome_of_loadRulesets {refs : List RuleSetRef} {rulesets : Str → Option RuleSet}
    (h : loadRulesets load refs = .ok rulesets) : ∀ tag ∈ refs.map (·.tag), (rulesets tag).isSome = true := by
  have hloaded : Ensures (fun m : Str → Option RuleSet => ∀ ref ∈ refs, (m ref.tag).isSome = true) (fun _ => True)
      (loadRulesets load refs) := by
    refine Ensures.foldlM
      (I := fun (done : List RuleSetRef) (m : Str → Option RuleSet) => ∀ ref ∈ done, (m ref.tag).isSome = true)
      (fun ref href => absurd href List.not_mem_nil) fun done ref rest m _ hdone => ?_
    cases load ref with
    | error e => trivial
    | ok rs =>
      intro r hr
      by_cases htag : r.tag = ref.tag
      · rw [htag, Function.update_self]
        rfl
      · rw [Function.update_of_ne htag]
        exact hdone r ((List.mem_append.mp hr).resolve_right fun h => htag (by rw [List.mem_singleton.mp h]))
  exact List.forall_mem_map.mpr (hloaded.of_ok h)

theorem succeeds_compile {rulesets : Str → Option RuleSet} {rule : RouteRuleConfig}
    (hdeclared : ∀ tag ∈ rule.ruleset, (rulesets tag).isSome = true) :
    Succeeds (CompiledRule.compile E rulesets rule) ↔ Compiles E (addrLines rule) ∧ Compiles E (portLines rule) := by
  have hfound : Succeeds (findRulesets rulesets rule.ruleset) := by
    refine succeeds_mapM.mpr fun tag htag => ?_
    obtain ⟨rs, hrs⟩ := Option.isSome_iff_exists.mp (hdeclared tag htag)
    rw [hrs]
    exact succeeds_ok
  obtain ⟨found, hfound⟩ := hfound
  rw [← succeeds_compileLines, ← succeeds_compileLines]
  constructor
  · rintro ⟨cr, h⟩
    obtain ⟨_, -, h⟩ := bind_eq_ok.mp h
    obtain ⟨addr, haddr, h⟩ := bind_eq_ok.mp h
    obtain ⟨port, hport, -⟩ := bind_eq_ok.mp h
    exact ⟨⟨addr, haddr⟩, port, hport⟩
  · rintro ⟨⟨addr, haddr⟩, port, hport⟩
    exact ⟨_, bind_eq_ok.mpr ⟨found, hfound, bind_eq_ok.mpr ⟨addr, haddr, bind_eq_ok.mpr ⟨port, hport, rfl⟩⟩⟩⟩

/-- A rule that hijacks DNS without a condition. -/
theorem findIdx?_bare {rules : List RouteRuleConfig} :
    (rules.findIdx? fun r => r.hijackDns && !r.hasConditions) = none ↔
      ∀ rule ∈ rules, rule.hijackDns = true → rule.hasConditions = true := by
  rw [List.findIdx?_eq_none_iff]
  refine forall₂_congr fun rule _ => ?_
  cases rule.hijackDns <;> cases rule.hasConditions <;> decide

/-- The router of rules whose rule sets are declared. -/
theorem succeeds_fromConfig {config : RouteConfig}
    (hdeclared : ∀ rule ∈ config.rules, ∀ tag ∈ rule.ruleset, tag ∈ config.ruleSet.map (·.tag)) :
    Succeeds (Router.fromConfig E load config) ↔ (∀ ref ∈ config.ruleSet, Succeeds (load ref)) ∧
      (∀ rule ∈ config.rules, rule.hijackDns = true → rule.hasConditions = true) ∧
      ∀ rule ∈ config.rules, Compiles E (addrLines rule) ∧ Compiles E (portLines rule) := by
  have hrules {rulesets : Str → Option RuleSet} (h : loadRulesets load config.ruleSet = .ok rulesets) :
      Succeeds (config.rules.mapM (CompiledRule.compile E rulesets)) ↔
        ∀ rule ∈ config.rules, Compiles E (addrLines rule) ∧ Compiles E (portLines rule) :=
    succeeds_mapM.trans (forall₂_congr fun rule hrule => succeeds_compile fun tag htag =>
      isSome_of_loadRulesets h tag (hdeclared rule hrule tag htag))
  rw [← succeeds_loadRulesets, ← findIdx?_bare, Router.fromConfig, succeeds_bind]
  constructor
  · rintro ⟨rulesets, hload, h⟩
    refine ⟨⟨rulesets, hload⟩, ?_⟩
    split at h
    · exact absurd h not_succeeds_error
    · rename_i hnone
      obtain ⟨rules, hcompiled, -⟩ := succeeds_bind.mp h
      exact ⟨hnone, (hrules hload).mp ⟨rules, hcompiled⟩⟩
  · rintro ⟨⟨rulesets, hload⟩, hnone, hconditions⟩
    refine ⟨rulesets, hload, ?_⟩
    obtain ⟨rules, hcompiled⟩ := (hrules hload).mpr hconditions
    simp only [hnone]
    exact succeeds_bind.mpr ⟨rules, hcompiled, succeeds_ok⟩

end Router

/-! ### The DNS resolver -/

section Resolver

variable {env : Environment} {file : Option (CacheFile × Database)} {dns : DnsConfig} {outbounds : Option (List Str)}

theorem succeeds_detourOf {srv : DnsServerConfig} :
    Succeeds (detourOf srv outbounds) ↔ ∀ tags ∈ outbounds, ∀ tag ∈ srv.detour, tag ∈ tags := by
  unfold detourOf
  cases srv.detour with
  | none => exact iff_of_true succeeds_ok fun tags _ tag htag => absurd htag (Option.not_mem_none tag)
  | some tag =>
    cases outbounds with
    | none => exact iff_of_true succeeds_ok fun tags htags => absurd htags (Option.not_mem_none tags)
    | some tags =>
      simp only [Option.mem_some, forall_eq']
      split_ifs with hmem
      · exact iff_of_true succeeds_ok hmem
      · exact iff_of_false not_succeeds_error hmem

/-- A server whose resolver has been built is built if its parts can be. -/
theorem succeeds_addUpstream {upstreams : Upstreams} {idx : Nat} {srv : DnsServerConfig}
    (hsrv : dns.servers[idx]? = some srv) (hbuilt : ∀ tag, srv.domainResolver = some tag → tag ∈ upstreams) :
    Succeeds (addUpstream env.buildTls dns outbounds (file.map Prod.fst) (file.map Prod.snd) upstreams idx) ↔
      Succeeds (detourOf srv outbounds) ∧ Succeeds (serverKind env file srv) := by
  have hresolver : Succeeds (domainResolverOf srv upstreams) := by
    unfold domainResolverOf
    split
    · rename_i tag htag
      rw [if_pos (AList.lookup_isSome.mpr (hbuilt tag htag))]
      exact succeeds_ok
    · exact succeeds_ok
  obtain ⟨resolver, hresolver⟩ := hresolver
  have hkind : serverKind env file srv = upstreamKind env.buildTls srv
      (if srv.protocol = .fakeIp then (file.map Prod.fst, file.map Prod.snd) else (none, none)).1
      (if srv.protocol = .fakeIp then (file.map Prod.fst, file.map Prod.snd) else (none, none)).2 := by
    unfold serverKind
    split_ifs <;> rfl
  rw [hkind]
  simp only [addUpstream, hsrv]
  constructor
  · intro h
    obtain ⟨detour, hdetour, h⟩ := succeeds_bind.mp h
    obtain ⟨_, -, h⟩ := succeeds_bind.mp h
    obtain ⟨kind, hkind, -⟩ := succeeds_bind.mp h
    exact ⟨⟨detour, hdetour⟩, kind, hkind⟩
  · rintro ⟨⟨detour, hdetour⟩, kind, hkind⟩
    refine succeeds_bind.mpr ⟨detour, hdetour, succeeds_bind.mpr ⟨resolver, hresolver, ?_⟩⟩
    exact succeeds_bind.mpr ⟨kind, hkind, succeeds_ok⟩

/-- In an order in which resolvers come first, what a server names as its resolver has been built. -/
theorem resolver_built {order done rest : List Nat} {idx : Nat} {srv : DnsServerConfig} {upstreams : Upstreams}
    (hdeclared : ResolversDeclared dns.servers) (hsorted : Sorted (Resolves dns.servers) order)
    (horder : order = done ++ idx :: rest) (hdone : Built dns done upstreams)
    (hsrv : dns.servers[idx]? = some srv) : ∀ tag, srv.domainResolver = some tag → tag ∈ upstreams := by
  intro tag htag
  obtain ⟨s, hs, rfl⟩ := hdeclared srv (List.mem_of_getElem? hsrv) tag htag
  obtain ⟨j, hj⟩ := exists_names hs
  have hresolves : Resolves dns.servers idx j := ⟨s.tag, by rw [hsrv]; exact htag, hj⟩
  obtain ⟨r, hr, hsame⟩ := Option.map_eq_some_iff.mp hj.1
  exact hsame ▸ hdone j ((horder ▸ hsorted).mem_of_append hresolves) r hr

/-- The loop over the servers, in an order in which resolvers come first. -/
theorem succeeds_addUpstreams {order : List Nat} (hdeclared : ResolversDeclared dns.servers)
    (hperm : order.Perm (List.range dns.servers.length)) (hsorted : Sorted (Resolves dns.servers) order) :
    Succeeds (order.foldlM (addUpstream env.buildTls dns outbounds (file.map Prod.fst) (file.map Prod.snd)) ∅) ↔
      ∀ srv ∈ dns.servers, Succeeds (detourOf srv outbounds) ∧ Succeeds (serverKind env file srv) := by
  have hloop := succeeds_foldlM (f := addUpstream env.buildTls dns outbounds (file.map Prod.fst) (file.map Prod.snd))
    (I := Built dns) (l := order) (b := ∅)
    (Q := fun idx => ∀ srv, dns.servers[idx]? = some srv →
      Succeeds (detourOf srv outbounds) ∧ Succeeds (serverKind env file srv))
    (fun i hi => absurd hi List.not_mem_nil) fun done idx rest upstreams horder hdone => by
      have hidx : idx < dns.servers.length :=
        List.mem_range.mp (hperm.mem_iff.mp (horder ▸ List.mem_append_right _ List.mem_cons_self))
      have hsrv := List.getElem?_eq_getElem hidx
      have hbuilt := resolver_built hdeclared hsorted horder hdone hsrv
      refine ⟨(succeeds_addUpstream hsrv hbuilt).trans ?_, fun ups hups i hi srv' hsrv' => ?_⟩
      · constructor
        · rintro h srv h'
          rwa [← Option.some.inj (hsrv.symm.trans h')]
        · exact fun h => h _ hsrv
      · obtain ⟨hnew, hold⟩ := (addUpstream_ensures env.buildTls hsrv hbuilt).of_ok hups
        rcases List.mem_append.mp hi with hi | hi
        · exact hold _ (hdone i hi srv' hsrv')
        · obtain rfl := List.mem_singleton.mp hi
          rwa [← Option.some.inj (hsrv.symm.trans hsrv')]
  rw [hloop]
  constructor
  · intro h srv hmem
    obtain ⟨i, hi, rfl⟩ := List.getElem_of_mem hmem
    exact h i (hperm.mem_iff.mpr (List.mem_range.mpr hi)) _ (List.getElem?_eq_getElem hi)
  · exact fun h i _ srv hsrv => h srv (List.mem_of_getElem? hsrv)

/-- Every server has an upstream under its tag. -/
theorem mem_upstreams {order : List Nat} {upstreams : Upstreams} (hdeclared : ResolversDeclared dns.servers)
    (hperm : order.Perm (List.range dns.servers.length)) (hsorted : Sorted (Resolves dns.servers) order)
    (h : order.foldlM (addUpstream env.buildTls dns outbounds (file.map Prod.fst) (file.map Prod.snd)) ∅
      = .ok upstreams) :
    ∀ tag ∈ dns.servers.map (·.tag), tag ∈ upstreams := by
  have hlt : ∀ i ∈ order, i < dns.servers.length := fun i hi => List.mem_range.mp (hperm.mem_iff.mp hi)
  have hbuilt := (foldlM_addUpstream env.buildTls hdeclared hlt hsorted).of_ok h
  refine List.forall_mem_map.mpr fun srv hsrv => ?_
  obtain ⟨i, hi, rfl⟩ := List.getElem_of_mem hsrv
  exact hbuilt i (hperm.mem_iff.mpr (List.mem_range.mpr hi)) _ (List.getElem?_eq_getElem hi)

/-- A rule for an upstream that there is. -/
theorem succeeds_compileDns {E : Externals} {upstreams : Upstreams} {preloaded : Str → Option RuleSet}
    {rule : DnsRuleConfig} (h : rule.server ∈ upstreams) :
    Succeeds (CompiledDnsRule.compile E upstreams preloaded rule) ↔ Compiles E rule.inlineLines := by
  obtain ⟨up, hup⟩ := Option.isSome_iff_exists.mp (AList.lookup_isSome.mpr h)
  simp only [CompiledDnsRule.compile, hup, Compiles]
  split_ifs with hnil
  · exact iff_of_true succeeds_ok (.inl hnil)
  · rw [or_iff_right hnil]
    cases RuleSet.fromText E (join ['\n'] rule.inlineLines) with
    | ok rs => exact iff_of_true succeeds_ok succeeds_ok
    | error e => exact iff_of_false not_succeeds_error not_succeeds_error

/-- The resolver of a section whose rules and `final` name servers. -/
theorem succeeds_fromConfigFull {rulesets : Str → Option RuleSet}
    (hrules : ∀ rule ∈ dns.rules, rule.server ∈ dns.servers.map (·.tag))
    (hfinal : dns.servers ≠ [] → dns.final ∈ dns.servers.map (·.tag)) :
    Succeeds (DnsResolver.fromConfigFull env.externals env.buildTls dns rulesets outbounds (file.map Prod.fst)
        (file.map Prod.snd)) ↔
      dns.servers ≠ [] ∧ ¬ (0 < dns.optimisticTimeout ∧ dns.disableCache = true) ∧
      (ResolversDeclared dns.servers ∧ ∀ i, ¬ TransGen (Resolves dns.servers) i i) ∧
      (∀ srv ∈ dns.servers, Succeeds (detourOf srv outbounds) ∧ Succeeds (serverKind env file srv)) ∧
      ∀ rule ∈ dns.rules, Compiles env.externals rule.inlineLines := by
  constructor
  · rintro ⟨r, h⟩
    obtain ⟨order, horder, hups, hcompiled, hdefault, hsome⟩ := DnsResolver.fromConfigFull_spec _ _ h
    obtain ⟨hdeclared, hperm, hsorted⟩ := toposortServers_ensures.of_ok horder
    have hmem := mem_upstreams hdeclared hperm hsorted hups
    refine ⟨fun hnil => ?_, fun hcache => ?_, ⟨hdeclared, fun i hcycle => ?_⟩, ?_, fun rule hrule => ?_⟩
    · -- without servers nothing is built, not even the default
      obtain rfl : order = [] := by
        have hlen := hperm.length_eq
        rw [hnil] at hlen
        exact List.length_eq_zero_iff.mp hlen
      have hempty : ∅ = r.upstreams := Except.ok.inj hups
      rw [← hempty] at hsome
      cases hsome
    · -- a stale window without a cache is refused
      rw [DnsResolver.fromConfigFull, if_pos hcache] at h
      cases h
    · obtain ⟨j, hij, -⟩ := TransGen.head'_iff.mp hcycle
      exact hsorted.acyclic (hperm.mem_iff.mpr (List.mem_range.mpr (lt_of_resolves hij).1)) hcycle
    · exact (succeeds_addUpstreams hdeclared hperm hsorted).mp ⟨_, hups⟩
    · exact (succeeds_compileDns (hmem _ (hrules rule hrule))).mp (succeeds_mapM.mp ⟨_, hcompiled⟩ rule hrule)
  · rintro ⟨hservers, hcache, ⟨hdeclared, hacyclic⟩, hbuild, hconditions⟩
    -- the order exists, as the table of dependencies has no cycle
    obtain ⟨order, horder⟩ : Succeeds (toposortServers dns.servers) := by
      cases hres : toposortServers dns.servers with
      | ok order => exact succeeds_ok
      | error e => exact absurd (toposortServers_ensures.of_error hres) (DnsError.not_unordered hdeclared hacyclic e)
    obtain ⟨-, hperm, hsorted⟩ := toposortServers_ensures.of_ok horder
    obtain ⟨upstreams, hups⟩ := (succeeds_addUpstreams hdeclared hperm hsorted).mpr hbuild
    have hmem := mem_upstreams hdeclared hperm hsorted hups
    obtain ⟨rules, hcompiled⟩ : Succeeds (dns.rules.mapM (CompiledDnsRule.compile env.externals upstreams rulesets)) :=
      succeeds_mapM.mpr fun rule hrule =>
        (succeeds_compileDns (hmem _ (hrules rule hrule))).mpr (hconditions rule hrule)
    obtain ⟨up, hup⟩ := Option.isSome_iff_exists.mp (AList.lookup_isSome.mpr (hmem _ (hfinal hservers)))
    rw [DnsResolver.fromConfigFull, if_neg hcache]
    refine succeeds_bind.mpr ⟨order, horder, succeeds_bind.mpr ⟨upstreams, hups, ?_⟩⟩
    refine succeeds_bind.mpr ⟨rules, hcompiled, ?_⟩
    simp only [hup]
    exact succeeds_ok

end Resolver

/-! ### The outbounds -/

section Outbounds

variable {env : Environment}

theorem succeeds_fromConfigFull_outbounds {configs : List (Provider.OutboundConfig Config.LeafSettings)}
    {map : Str → Option (Provider.Outbound Config.LeafSettings)}
    (hnodup : (configs.map (·.tag)).Nodup) (hfree : ∀ cfg ∈ configs, map cfg.tag = none)
    (hmembers : ∀ cfg ∈ configs, cfg.isGroup = true →
      cfg.childOutbounds ≠ [] ∨ (cfg.groupProviders.getD {}).tags ≠ []) :
    Succeeds (Provider.fromConfigFull env.construct env.loadSelected configs map) ↔
      ∀ cfg ∈ configs, env.construct cfg = .ok () := by
  induction configs generalizing map with
  | nil => exact iff_of_true succeeds_ok fun cfg hcfg => absurd hcfg List.not_mem_nil
  | cons cfg configs ih =>
    obtain ⟨hfresh, hnodup⟩ := List.nodup_cons.mp hnodup
    obtain ⟨hfirst, hfree⟩ := List.forall_mem_cons.mp hfree
    obtain ⟨hmember, hmembers⟩ := List.forall_mem_cons.mp hmembers
    -- what is checked behind the settings of a group holds of every valid one
    have hnew : Succeeds (Provider.Outbound.new env.construct env.loadSelected cfg) ↔ env.construct cfg = .ok () := by
      refine succeeds_bind.trans ⟨fun h => ?_, fun h => ⟨(), h, ?_⟩⟩
      · obtain ⟨_, h, -⟩ := h
        exact h
      · cases cfg with
        | leaf tag settings => exact succeeds_ok
        | selector c => exact succeeds_ok
        | urlTest c =>
          have hlists : c.outbounds ≠ [] ∨ (c.providers.getD {}).tags ≠ [] := hmember rfl
          refine succeeds_bind.mpr ⟨(), Config.provider_ensure_eq_ok.mpr ?_, succeeds_ok⟩
          simpa using hlists
    rw [Provider.fromConfigFull, hfirst, if_neg (by decide), succeeds_bind, List.forall_mem_cons, ← hnew]
    -- the tags differ, so the others are still free
    have hrest (ob : Provider.Outbound Config.LeafSettings) :
        Succeeds (Provider.fromConfigFull env.construct env.loadSelected configs
          (Function.update map cfg.tag (some ob))) ↔ ∀ cfg ∈ configs, env.construct cfg = .ok () := by
      refine ih hnodup (fun c hc => ?_) hmembers
      rw [Function.update_of_ne fun heq => hfresh (List.mem_map.mpr ⟨c, hc, heq⟩)]
      exact hfree c hc
    constructor
    · rintro ⟨ob, hob, h⟩
      exact ⟨⟨ob, hob⟩, (hrest ob).mp h⟩
    · rintro ⟨⟨ob, hob⟩, h⟩
      exact ⟨ob, hob, (hrest ob).mpr h⟩

/-- The outbounds of a valid configuration are built exactly if each of them can be constructed from its settings. -/
theorem succeeds_outbounds {config : Config} (hvalid : config.Valid) :
    Succeeds (Provider.State.start env.construct env.loadSelected config.groups) ↔
      ∀ ob ∈ config.outbounds, env.construct ob.base = .ok () := by
  have htags : (config.outbounds.map Config.OutboundConfig.base).map Provider.OutboundConfig.tag
      = config.outboundTags := List.map_map
  have hbuild : Succeeds (Provider.fromConfigFull env.construct env.loadSelected config.groups.outbounds
      fun _ => none) ↔ ∀ cfg ∈ config.groups.outbounds, env.construct cfg = .ok () :=
    succeeds_fromConfigFull_outbounds (htags ▸ hvalid.outboundTags) (fun _ _ => rfl)
      (List.forall_mem_map.mpr fun ob hob hgroup => (hvalid.groups ob hob hgroup).nonempty)
  refine Iff.trans ?_ (hbuild.trans List.forall_mem_map)
  refine succeeds_bind.trans ?_
  constructor
  · rintro ⟨_, -, h⟩
    obtain ⟨map, hmap, -⟩ := succeeds_bind.mp h
    exact ⟨map, hmap⟩
  · rintro ⟨map, hmap⟩
    exact ⟨(), hvalid.validate_groups, succeeds_bind.mpr ⟨map, hmap, succeeds_ok⟩⟩

end Outbounds

/-- **A valid configuration starts** exactly if what validation leaves open is right as well.  Of the tags that the
    parts look up, validation has checked those of rule sets, of outbounds and of the servers of DNS rules; the
    detour and the resolver of a DNS server are for the start to find out (`Startable.detours`,
    `Startable.resolvers`). -/
theorem starts_iff (env : Environment) {config : Config} (hvalid : config.Valid) :
    Succeeds (start env config) ↔ Startable env config := by
  have hrouter : Succeeds (Router.fromConfig env.externals env.load config.route) ↔ _ :=
    succeeds_fromConfig hvalid.rulesets
  have hresolver (file : Option (CacheFile × Database)) (rulesets : Str → Option RuleSet)
      (outbounds : Option (List Str)) :
      Succeeds (DnsResolver.fromConfigFull env.externals env.buildTls config.dns rulesets outbounds
        (file.map Prod.fst) (file.map Prod.snd)) ↔ _ :=
    succeeds_fromConfigFull (fun rule hrule => (hvalid.dnsRules rule hrule).1) hvalid.dnsFinal
  constructor
  · rintro ⟨st, h⟩
    -- a start that succeeds has gone through every part, and each part gives its conditions
    obtain ⟨file, hfile, h⟩ := bind_eq_ok.mp h
    obtain ⟨router, hbuilt, h⟩ := bind_eq_ok.mp h
    obtain ⟨rulesets, -, h⟩ := bind_eq_ok.mp h
    obtain ⟨_, -, h⟩ := bind_eq_ok.mp h
    obtain ⟨outbounds, hstarted, h⟩ := bind_eq_ok.mp h
    obtain ⟨resolver, hresolved, -⟩ := bind_eq_ok.mp h
    obtain ⟨hload, hhijacks, hconditions⟩ := hrouter.mp (succeeds_mapError.mp ⟨router, hbuilt⟩)
    obtain ⟨hservers, hcached, hresolvers, hservers', hdns⟩ :=
      (hresolver file rulesets (some config.outboundTags)).mp (succeeds_mapError.mp ⟨resolver, hresolved⟩)
    exact {
      cacheFile := succeeds_mapError.mp ⟨file, hfile⟩
      rulesets := hload
      hijacks := hhijacks
      conditions := hconditions
      outbounds := (succeeds_outbounds hvalid).mp (succeeds_mapError.mp ⟨outbounds, hstarted⟩)
      servers := hservers
      cached := hcached
      resolvers := hresolvers
      kinds := fun file' hfile' srv hsrv => by
        obtain rfl := Except.ok.inj (hfile'.symm.trans (Config.mapError_eq_ok.mp hfile))
        exact (hservers' srv hsrv).2
      detours := fun srv hsrv tag htag => succeeds_detourOf.mp (hservers' srv hsrv).1 _ rfl tag htag
      dnsConditions := hdns }
  · intro h
    -- the other way the parts succeed one after the other; the resolver is built twice, first without the
    -- outbounds
    obtain ⟨file, hfile⟩ := (succeeds_mapError (f := StartError.cacheFile)).mpr h.cacheFile
    obtain ⟨router, hbuilt⟩ := succeeds_mapError.mpr (hrouter.mpr ⟨h.rulesets, h.hijacks, h.conditions⟩)
    obtain ⟨rulesets, hloaded⟩ := succeeds_mapError.mpr (succeeds_loadRulesets.mpr h.rulesets)
    obtain ⟨outbounds, hstarted⟩ := succeeds_mapError.mpr ((succeeds_outbounds hvalid).mpr h.outbounds)
    have hdetours (tags : Option (List Str)) (htags : ∀ t ∈ tags, t = config.outboundTags) :
        Succeeds ((DnsResolver.fromConfigFull env.externals env.buildTls config.dns rulesets tags
          (file.map Prod.fst) (file.map Prod.snd)).mapError StartError.dns) := by
      refine succeeds_mapError.mpr ((hresolver file rulesets tags).mpr
        ⟨h.servers, h.cached, h.resolvers, ?_, h.dnsConditions⟩)
      exact fun srv hsrv => ⟨succeeds_detourOf.mpr fun t ht => htags t ht ▸ h.detours srv hsrv,
        h.kinds file (Config.mapError_eq_ok.mp hfile) srv hsrv⟩
    obtain ⟨first, hfirst⟩ := hdetours none fun t ht => absurd ht (Option.not_mem_none t)
    obtain ⟨second, hsecond⟩ := hdetours (some config.outboundTags) fun t ht => (Option.mem_some.mp ht).symm
    exact ⟨_, bind_eq_ok.mpr ⟨file, hfile, bind_eq_ok.mpr ⟨router, hbuilt, bind_eq_ok.mpr ⟨rulesets, hloaded,
      bind_eq_ok.mpr ⟨first, hfirst, bind_eq_ok.mpr ⟨outbounds, hstarted, bind_eq_ok.mpr ⟨second, hsecond,
        rfl⟩⟩⟩⟩⟩⟩⟩

/-- An outbound that connects directly, and a group of it. -/
def directOutbound : Config.OutboundConfig := .leaf "direct".toList .other
def proxyOutbound : Config.OutboundConfig :=
  .selector { tag := "proxy".toList, outbounds := ["direct".toList], default := some "direct".toList }

/-- Everything is sent to the group, and no query is answered. -/
def proxyConfig : Config where
  outbounds := [directOutbound, proxyOutbound]
  route := { final := "proxy".toList }
  dns := { servers := [{ tag := "main".toList, address := "rcode://refused".toList }], final := "main".toList }

theorem forall_proxyConfig {P : Config.OutboundConfig → Prop} (hdirect : P directOutbound)
    (hproxy : P proxyOutbound) : ∀ ob ∈ proxyConfig.outbounds, P ob :=
  List.forall_mem_cons.mpr ⟨hdirect, List.forall_mem_singleton.mpr hproxy⟩

theorem proxyConfig_valid : proxyConfig.Valid where
  providerTags := by decide
  providers := fun p hp => absurd hp List.not_mem_nil
  outboundTags := by decide
  outboundUuids := forall_proxyConfig (fun s hs => by cases hs) fun s hs => by cases hs
  groups := forall_proxyConfig (fun h => by cases h)
    fun _ => ⟨.inl (by decide), by decide, by decide, by decide⟩
  groupDurations := forall_proxyConfig (fun s hs => absurd hs List.not_mem_nil)
    fun s hs => absurd hs List.not_mem_nil
  acyclic := by
    intro tag hcycle
    -- the only group lists no group
    obtain ⟨b, ⟨g, hg, hgroup, -, hb, c, hc, hcgroup, rfl⟩, -⟩ := TransGen.head'_iff.mp hcycle
    have hall : ∀ g ∈ proxyConfig.outbounds.map Config.OutboundConfig.base, g.isGroup = true →
        ∀ c ∈ proxyConfig.outbounds.map Config.OutboundConfig.base, c.isGroup = true → c.tag ∉ g.childOutbounds := by
      decide
    exact hall g hg hgroup c hc hcgroup hb
  final := by decide
  outbounds := fun rule hrule => absurd hrule List.not_mem_nil
  rulesetTags := by decide
  rulesets := fun rule hrule => absurd hrule List.not_mem_nil
  inboundTags := by decide
  ports := fun ib hib => absurd hib List.not_mem_nil
  inboundUuids := fun ib hib => absurd hib List.not_mem_nil
  users := fun ib hib => absurd hib List.not_mem_nil
  inbounds := fun rule hrule => absurd hrule List.not_mem_nil
  dnsTags := by decide
  dnsFinal := fun _ => by decide
  dnsRules := fun rule hrule => absurd hrule List.not_mem_nil

/-- Outbounds that can be built, and no rule sets. -/
def plainEnvironment : Environment where
  externals := .plain
  load _ := .error []
  buildTls _ := .ok ()
  construct _ := .ok ()
  loadSelected _ := none
  openCacheFile := .ok none

theorem starts_iff_proxyConfig : Succeeds (start plainEnvironment proxyConfig) := by
  refine (starts_iff plainEnvironment proxyConfig_valid).mpr ?_
  exact {
    cacheFile := succeeds_ok
    rulesets := fun ref href => absurd href List.not_mem_nil
    hijacks := fun rule hrule => absurd hrule List.not_mem_nil
    conditions := fun rule hrule => absurd hrule List.not_mem_nil
    outbounds := fun ob hob => rfl
    servers := by decide
    cached := by decide
    resolvers := by
      have hdeclared : ResolversDeclared proxyConfig.dns.servers :=
        List.forall_mem_singleton.mpr fun tag htag => by cases htag
      refine ⟨hdeclared, fun i hcycle => ?_⟩
      obtain ⟨j, ⟨tag, htag, -⟩, -⟩ := TransGen.head'_iff.mp hcycle
      cases i with
      | zero => cases htag
      | succ i => cases htag
    kinds := fun file _ => List.forall_mem_singleton.mpr ⟨_, rfl⟩
    detours := List.forall_mem_singleton.mpr fun tag htag => by cases htag
    dnsConditions := fun rule hrule => absurd hrule List.not_mem_nil }

/-! ### Where connections end -/

section Dispatch

variable {rt : Router} {D : Dispatcher} {E : Externals} {κ : Type}

/-- An action that the router can decide for: the default, or that of a rule. -/
def Gives (rt : Router) (a : RouteAction) : Prop := a = rt.default ∨ ∃ r ∈ rt.rules, a = r.action

theorem gives_decide {m : Option CompiledRule} (h : ∀ r ∈ m, r ∈ rt.rules) : Gives rt (rt.decide m).1 := by
  cases m with
  | none => exact .inl rfl
  | some r => exact .inr ⟨r, h r rfl, rfl⟩

theorem gives_route (inboundTag : Str) (network : Option NetworkKind) (target : Target)
    (sniffedProtocol : Option Str) : Gives rt (rt.route E inboundTag network target sniffedProtocol).1 :=
  gives_decide fun _ hr => List.mem_of_find?_eq_some hr

theorem gives_routeIndexed (idx : List Nat) (inboundTag : Str) (network : Option NetworkKind) (target : Target)
    (sniffedProtocol : Option Str) : Gives rt (rt.routeIndexed E idx inboundTag network target sniffedProtocol).1 := by
  refine gives_decide fun r hr => ?_
  obtain ⟨i, -, hi⟩ := List.exists_of_findSome?_eq_some hr
  obtain ⟨hget, -⟩ := Option.filter_eq_some_iff.mp hi
  exact List.mem_of_getElem? hget

theorem gives_sniffStage {sniffed : Nat → Bool → List SniffType → κ → κ} {reroute : κ → RouteAction × Str × Str}
    {r : Routed κ} (hr : Gives rt r.action) (hreroute : ∀ item, Gives rt (reroute item).1) :
    Gives rt (Dispatcher.sniffStage sniffed reroute r).action := by
  unfold Dispatcher.sniffStage
  split
  · exact hreroute _
  · exact hr

theorem gives_resolveStage {target : κ → Target} {reroute : κ → Target → RouteAction × Str × Str}
    {r : Routed κ} (hr : Gives rt r.action) (hreroute : ∀ item tgt, Gives rt (reroute item tgt).1) :
    Gives rt (D.resolveStage target reroute r).action := by
  unfold Dispatcher.resolveStage
  split
  · exact hreroute _ _
  · exact hr

/-- Whatever pass decides last, the router has decided. -/
theorem gives_runTcp (conn : InboundTcpStream) : Gives D.router (D.runTcp E conn).action :=
  gives_resolveStage (gives_sniffStage (gives_route _ _ _ _) fun _ => gives_routeIndexed _ _ _ _ _)
    fun _ _ => gives_routeIndexed _ _ _ _ _

theorem gives_runUdp (packet : InboundUdpPacket) : Gives D.router (D.runUdp E packet).action :=
  gives_resolveStage (gives_sniffStage (gives_route _ _ _ _) fun _ => gives_routeIndexed _ _ _ _ _)
    fun _ _ => gives_routeIndexed _ _ _ _ _

theorem toAction_eq_outbound {outbound tag : Str} (h : toAction outbound = .outbound tag) :
    outbound = tag ∧ outbound ≠ "dns-out".toList := by
  unfold toAction at h
  split_ifs at h with hdns
  exact ⟨RouteAction.outbound.inj h, hdns⟩

theorem ruleAction_eq_outbound {rule : RouteRuleConfig} {tag : Str} (h : ruleAction rule = .outbound tag) :
    rule.outbound = tag ∧ Config.usesOutbound rule = true ∧ rule.outbound ≠ "dns-out".toList := by
  unfold ruleAction at h
  split_ifs at h with hsniff hresolve hhijack
  obtain ⟨houtbound, hdns⟩ := toAction_eq_outbound h
  refine ⟨houtbound, ?_, hdns⟩
  simp [Config.usesOutbound, hsniff, hresolve, hhijack]

/-- The outbounds of a router for a valid configuration are declared. -/
theorem outbound_declared {config : Config} {load : RuleSetRef → Except Str RuleSet} (hvalid : config.Valid)
    (h : Router.fromConfig E load config.route = .ok rt) {tag : Str} (ha : Gives rt (.outbound tag)) :
    tag ∈ config.outboundTags := by
  obtain ⟨rulesets, rules, rfl, hall⟩ := Router.fromConfig_ok h
  rcases ha with hdefault | ⟨cr, hcr, haction⟩
  · obtain ⟨rfl, -⟩ := toAction_eq_outbound hdefault.symm
    exact hvalid.final
  · -- the rule that was compiled to this one uses its outbound
    obtain ⟨⟨i, hi⟩, rfl⟩ := List.get_of_mem hcr
    have hi' : i < config.route.rules.length := hall.length_eq ▸ hi
    obtain ⟨_, _, _, -, -, -, hcompiled⟩ := CompiledRule.compile_ok (hall.get hi' hi)
    have hrule := List.get_mem config.route.rules ⟨i, hi'⟩
    generalize config.route.rules.get ⟨i, hi'⟩ = rule at hcompiled hrule
    have hrules : (Router.ofRules rules config.route.final).rules.get ⟨i, hi⟩ = rules.get ⟨i, hi⟩ := rfl
    rw [hrules, hcompiled] at haction
    obtain ⟨rfl, huses⟩ := ruleAction_eq_outbound haction.symm
    exact (hvalid.outbounds rule hrule huses.1).resolve_left huses.2

/-- An outbound that is found, and from which the groups lead to one that is no group. -/
def Reaches (s : Provider.State Config.LeafSettings) (tag : Str) : Prop :=
  (s.outbounds tag).isSome = true ∧ ∃ leaf, s.dial s.dialFuel tag = some (.ok leaf) ∧ s.IsLeaf leaf

section Runs

variable {env : Environment} {config : Config} {st : Started} {lower : Str → Str}
  {actions : List (Provider.State.Action Config.LeafSettings)} {s : Provider.State Config.LeafSettings}

/-- The invariant of the groups in every state that is reached, and the router that was built. -/
theorem started_run (hstart : start env config = .ok st)
    (hrun : Transition.run (Provider.State.step lower) st.outbounds actions = some s)
    (hgives : Transition.Guarded (Provider.State.step lower) Provider.State.GivesLeaves st.outbounds actions) :
    (s.Wired ∧ s.Picks ∧ s.configured = config.groups.outbounds) ∧
      Router.fromConfig env.externals env.load config.route = .ok st.router := by
  obtain ⟨_, -, hstart⟩ := bind_eq_ok.mp hstart
  obtain ⟨router, hrouter, hstart⟩ := bind_eq_ok.mp hstart
  obtain ⟨_, -, hstart⟩ := bind_eq_ok.mp hstart
  obtain ⟨_, -, hstart⟩ := bind_eq_ok.mp hstart
  obtain ⟨outbounds, hstarted, hstart⟩ := bind_eq_ok.mp hstart
  obtain ⟨_, -, hstart⟩ := bind_eq_ok.mp hstart
  obtain rfl := Except.ok.inj hstart
  have hstarted := Config.mapError_eq_ok.mp hstarted
  obtain ⟨hpicks, hconfig⟩ := Provider.State.picks_start hstarted
  obtain ⟨hs, hp, hconfigured⟩ :=
    Provider.State.picks_run (Provider.State.wired_start hstarted) hpicks hrun hgives
  exact ⟨⟨hs, hp, hconfigured.trans hconfig⟩, Config.mapError_eq_ok.mp hrouter⟩

/-- What the router sends to an outbound reaches one that is no group, however far the providers, the selections
    and the probes have got. -/
theorem reaches_of_gives (hvalid : config.Valid) (hstart : start env config = .ok st)
    (hrun : Transition.run (Provider.State.step lower) st.outbounds actions = some s)
    (hgives : Transition.Guarded (Provider.State.step lower) Provider.State.GivesLeaves st.outbounds actions)
    (hlists : s.Populated) {tag : Str} (ha : Gives st.router (.outbound tag)) : Reaches s tag := by
  obtain ⟨⟨hs, hp, hconfigured⟩, hrouter⟩ := started_run hstart hrun hgives
  have htag : ∃ cfg ∈ s.configured, cfg.tag = tag := by
    obtain ⟨ob, hob, rfl⟩ := List.mem_map.mp (outbound_declared hvalid hrouter ha)
    exact ⟨ob.base, hconfigured ▸ List.mem_map_of_mem hob, rfl⟩
  have hacyclic : ∀ t, ¬ TransGen (Provider.GroupEdge s.configured) t t := by
    rw [hconfigured]
    exact hvalid.acyclic
  refine ⟨?_, Provider.State.dial_leaf hs hp hlists hacyclic htag⟩
  obtain ⟨cfg, hcfg, rfl⟩ := htag
  obtain ⟨ob, hob, -⟩ := (hs.registry cfg.tag cfg).mpr ⟨hcfg, rfl⟩
  rw [hob]
  rfl

/-- **Where connections end.** When a valid configuration has started, in every state that the providers, the
    selections and the probes lead to, every connection is answered by the DNS handler or given to an outbound
    that there is, from which the groups lead to an outbound that is no group; and so is every packet. -/
theorem dispatch_leaf (hvalid : config.Valid) (hstart : start env config = .ok st)
    (hrun : Transition.run (Provider.State.step lower) st.outbounds actions = some s)
    (hgives : Transition.Guarded (Provider.State.step lower) Provider.State.GivesLeaves st.outbounds actions)
    (hlists : s.Populated) (D : Dispatcher) (hrouter : D.router = st.router)
    (hfound : ∀ tag, D.hasOutbound tag = (s.outbounds tag).isSome) :
    (∀ conn, dispatchTcp D (D.runTcp env.externals conn).action = .dns ∨
      ∃ tag, dispatchTcp D (D.runTcp env.externals conn).action = .outbound tag ∧ Reaches s tag) ∧
    ∀ packet, udpStep D (D.runUdp env.externals packet).action = .dispatch .dns ∨
      ∃ tag, udpStep D (D.runUdp env.externals packet).action = .session tag ∧ Reaches s tag := by
  have hreaches {tag : Str} (ha : Gives D.router (.outbound tag)) : Reaches s tag :=
    reaches_of_gives hvalid hstart hrun hgives hlists (hrouter ▸ ha)
  refine ⟨fun conn => ?_, fun packet => ?_⟩
  · have hgiven := gives_runTcp (D := D) (E := env.externals) conn
    rcases Dispatcher.isFinal_runTcp (D := D) (E := env.externals) conn with hdns | ⟨tag, htag⟩
    · exact .inl (by rw [hdns]; rfl)
    · rw [htag] at hgiven ⊢
      refine .inr ⟨tag, ?_, hreaches hgiven⟩
      rw [dispatchTcp, hfound, if_pos (hreaches hgiven).1]
  · have hgiven := gives_runUdp (D := D) (E := env.externals) packet
    rcases Dispatcher.isFinal_runUdp (D := D) (E := env.externals) packet with hdns | ⟨tag, htag⟩
    · exact .inl (by rw [hdns]; rfl)
    · rw [htag] at hgiven ⊢
      exact .inr ⟨tag, rfl, hreaches hgiven⟩

end Runs

/-- A dispatcher that finds the outbounds of a state, and knows no names. -/
def dispatcherOf (router : Router) (s : Provider.State Config.LeafSettings) : Dispatcher where
  router := router
  lookupFakeip _ := none
  sniff conn _ _ := (none, conn.peeked)
  resolveDomain _ := .error []
  resolveDomainVia _ _ := .error []
  hasOutbound tag := (s.outbounds tag).isSome

/-- The only member of the group has been selected. -/
theorem dispatch_leaf_proxyConfig : ∃ router s, ∀ conn,
    dispatchTcp (dispatcherOf router s) ((dispatcherOf router s).runTcp .plain conn).action = .dns ∨
      ∃ tag, dispatchTcp (dispatcherOf router s) ((dispatcherOf router s).runTcp .plain conn).action
        = .outbound tag ∧ Reaches s tag := by
  obtain ⟨st, hstart, hsome⟩ := exists_eq_ok_of_any (x := start plainEnvironment proxyConfig)
    (p := fun st => (Transition.run (Provider.State.step id) st.outbounds
      [.select "proxy".toList "direct".toList]).isSome) (by decide)
  obtain ⟨s, hrun⟩ := Option.isSome_iff_exists.mp hsome
  have hgives : Transition.Guarded (Provider.State.step id) Provider.State.GivesLeaves st.outbounds
      [.select "proxy".toList "direct".toList] := ⟨trivial, fun _ _ => trivial⟩
  have hlists : s.Populated := by
    obtain ⟨⟨hs, -, hconfigured⟩, -⟩ := started_run hstart hrun hgives
    exact Provider.State.populated_of_members hs (hconfigured ▸ by decide)
  exact ⟨st.router, s, (dispatch_leaf proxyConfig_valid hstart hrun hgives hlists (dispatcherOf st.router s) rfl
    fun _ => rfl).1⟩

end Dispatch

end Reflex.App
