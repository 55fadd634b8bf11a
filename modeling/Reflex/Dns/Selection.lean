import Reflex.Dns.Upstreams
import Reflex.Lib.FirstMatch

namespace Reflex.Dns

open RustStd Ruleset Experimental FirstMatch

/-!
# DNS — which upstream answers a question

The choice of the upstream in `DnsResolver::handle` and in `DnsResolver::resolve_domain` of
`dns/mod.rs`.  Both fall back to some upstream that is not FakeIP, in the order in which the hash
map of the upstreams happens to be walked; `resolve_domain` asks first whether `final` will do,
`handle` does not.

* `handleStable_iff` — when the choice of `handle` is the same in every order, and `final` where no
  rule has a better one;
* `resolveStable_iff` — the same for `resolve_domain`.
-/

namespace DnsResolver

/-- `matches!(upstream.kind, UpstreamKind::FakeIp { .. })` for a tag. -/
def isFakeIp (r : DnsResolver) (tag : Str) : Bool :=
  (r.upstreams.lookup tag).any fun up => up.kind.isFakeIp

/-- The first upstream that is not FakeIP; `values` is the order in which `upstreams.values()`
    yields them. -/
def anyReal (r : DnsResolver) (values : List Str) : Str :=
  (values.find? fun tag => !r.isFakeIp tag).getD r.default

/-- The first rule that matches. -/
def firstRule (r : DnsResolver) (inboundTag qname : Str) (qtype : UInt16) :
    Option CompiledDnsRule :=
  r.rules.find? fun rule => rule.matches inboundTag qname qtype

/-- The first rule that matches and does not point at a FakeIP server. -/
def realRule (r : DnsResolver) (inboundTag qname : Str) (qtype : UInt16) : Option CompiledDnsRule :=
  r.rules.find? fun rule => rule.matches inboundTag qname qtype && !r.isFakeIp rule.upstream

/-- The upstream `handle` chooses, and whether the cache is off. -/
def handleUpstream (r : DnsResolver) (values : List Str) (msg : Bytes) (inboundTag : Str) :
    Str × Bool :=
  let qname := (extractQname msg).getD []
  let qtype := (extractQtype msg).getD 1
  let (upstream, disableCache) :=
    match r.firstRule inboundTag qname qtype with
    | some rule => (rule.upstream, rule.disableCache)
    | none => (r.default, false)
  -- a FakeIP server answers questions for addresses only
  if qtype ≠ 1 ∧ qtype ≠ 28 ∧ r.isFakeIp upstream = true then
    match r.realRule inboundTag qname qtype with
    | some rule => (rule.upstream, rule.disableCache)
    | none => (r.anyReal values, false)
  else (upstream, disableCache)

/-- The upstream `resolve_domain` chooses. -/
def resolveDomainUpstream (r : DnsResolver) (values : List Str) (host : Str) : Str :=
  match r.realRule [] host 1 with
  | some rule => rule.upstream
  | none => if r.isFakeIp r.default then r.anyReal values else r.default

/-! ### Stable choices -/

/-- The orders in which the hash map may be walked. -/
def Order (r : DnsResolver) (values : List Str) : Prop := values.Perm r.upstreams.keys

/-- Every rule that matches points at a FakeIP server. -/
def OnlyFake (r : DnsResolver) (inboundTag qname : Str) (qtype : UInt16) : Prop :=
  ∀ rule ∈ r.rules, rule.matches inboundTag qname qtype = true → r.isFakeIp rule.upstream = true

/-- Some rule matches. -/
def SomeRule (r : DnsResolver) (inboundTag qname : Str) (qtype : UInt16) : Prop :=
  ∃ rule ∈ r.rules, rule.matches inboundTag qname qtype = true

/-- At most one upstream is not FakeIP. -/
def OneReal (r : DnsResolver) : Prop :=
  ∀ a ∈ r.upstreams.keys, ∀ b ∈ r.upstreams.keys,
    r.isFakeIp a = false → r.isFakeIp b = false → a = b

/-- A choice is stable: it is the same in every order, and it is `final` if `final` is not FakeIP
    and every rule that matches points at a FakeIP server. -/
structure Stable (r : DnsResolver) (choice : List Str → Str) (onlyFake : Prop) : Prop where
  order : ∀ values values', r.Order values → r.Order values' → choice values = choice values'
  final : onlyFake → r.isFakeIp r.default = false → ∀ values, r.Order values →
    choice values = r.default

theorem realRule_eq_none_iff {r : DnsResolver} {inboundTag qname : Str} {qtype : UInt16} :
    r.realRule inboundTag qname qtype = none ↔ r.OnlyFake inboundTag qname qtype := by
  rw [realRule, List.find?_eq_none]
  constructor
  · intro h rule hrule hmatch
    by_contra hfake
    exact h rule hrule (by rw [hmatch, Bool.eq_false_of_not_eq_true hfake]; rfl)
  · intro h rule hrule hboth
    obtain ⟨hmatch, hreal⟩ := Bool.and_eq_true_iff.mp hboth
    rw [h rule hrule hmatch] at hreal
    cases hreal

/-- **The fallback** is stable exactly when there is at most one upstream to fall back to. -/
theorem stable_anyReal_iff {r : DnsResolver} (hdefault : r.default ∈ r.upstreams.keys)
    (onlyFake : Prop) : r.Stable r.anyReal onlyFake ↔ r.OneReal := by
  constructor
  · intro h a ha b hb hreal hreal'
    obtain ⟨values, hperm, hfind⟩ := exists_perm_find? (p := fun tag => !r.isFakeIp tag) ha
      (by rw [hreal]; rfl)
    obtain ⟨values', hperm', hfind'⟩ := exists_perm_find? (p := fun tag => !r.isFakeIp tag) hb
      (by rw [hreal']; rfl)
    have heq := h.order values values' hperm hperm'
    rw [anyReal, anyReal, hfind, hfind'] at heq
    exact heq
  · intro hone
    have hunique : ∀ a ∈ r.upstreams.keys, ∀ b ∈ r.upstreams.keys,
        (!r.isFakeIp a) = true → (!r.isFakeIp b) = true → a = b := by
      intro a ha b hb hreal hreal'
      exact hone a ha b hb (by simpa using hreal) (by simpa using hreal')
    refine ⟨fun values values' h h' => ?_, fun _ hreal values h => ?_⟩
    · rw [anyReal, anyReal, find?_of_perm h hunique, find?_of_perm h' hunique]
    · -- `final` is not FakeIP, so it is the one that is found
      rw [anyReal, find?_of_perm h hunique]
      rcases hfind : r.upstreams.keys.find? fun tag => !r.isFakeIp tag with _ | a
      · rfl
      · have hfound := List.find?_some hfind
        exact hunique a (List.mem_of_find?_eq_some hfind) r.default hdefault hfound
          (by rw [hreal]; rfl)

/-- A choice that does not look at the order. -/
theorem stable_const {r : DnsResolver} {choice : List Str → Str} {onlyFake : Prop} (tag : Str)
    (h : ∀ values, choice values = tag)
    (hfinal : onlyFake → r.isFakeIp r.default = false → tag = r.default) :
    r.Stable choice onlyFake :=
  ⟨fun values values' _ _ => by rw [h, h],
    fun hfake hreal values _ => by rw [h]; exact hfinal hfake hreal⟩

/-- The keys of a resolver hold its `final`. -/
theorem default_mem_keys {E : Externals} {buildTls : DnsServerConfig → Except Str Unit}
    {config : DnsConfig} {rulesets : Str → Option RuleSet} {outbounds : Option (List Str)}
    {cacheWriter : Option CacheFile} {cacheReader : Option Database} {r : DnsResolver}
    (h : fromConfigFull E buildTls config rulesets outbounds cacheWriter cacheReader = .ok r) :
    r.default ∈ r.upstreams.keys := by
  obtain ⟨_, _, _, _, _, hsome⟩ := fromConfigFull_spec E buildTls h
  exact AList.mem_keys.mp (AList.lookup_isSome.mp hsome)

/-! ### `handle` -/

section Handle

variable {r : DnsResolver} {msg : Bytes} {inboundTag : Str}

/-- The name and the type `handle` reads from a message. -/
def qnameOf (msg : Bytes) : Str := (extractQname msg).getD []

/-- The type `handle` reads from a message: without one, it is a question for an address. -/
def qtypeOf (msg : Bytes) : UInt16 := (extractQtype msg).getD 1

/-- The upstream of the first rule that matches, or `final`. -/
def firstUpstream (r : DnsResolver) (msg : Bytes) (inboundTag : Str) : Str :=
  ((r.firstRule inboundTag (qnameOf msg) (qtypeOf msg)).map (·.upstream)).getD r.default

/-- The first rule that matches decides, or there is none. -/
theorem firstUpstream_cases (r : DnsResolver) (msg : Bytes) (inboundTag : Str) :
    (r.firstUpstream msg inboundTag = r.default ∧
        ¬ r.SomeRule inboundTag (qnameOf msg) (qtypeOf msg)) ∨
      ∃ rule ∈ r.rules, rule.matches inboundTag (qnameOf msg) (qtypeOf msg) = true ∧
        r.firstUpstream msg inboundTag = rule.upstream := by
  unfold firstUpstream
  rcases h : r.firstRule inboundTag (qnameOf msg) (qtypeOf msg) with _ | rule
  · refine .inl ⟨rfl, fun ⟨rule, hrule, hmatch⟩ => ?_⟩
    exact absurd hmatch (List.find?_eq_none.mp h rule hrule)
  · have hmatch := List.find?_some h
    exact .inr ⟨rule, List.mem_of_find?_eq_some h, hmatch, rfl⟩

/-- What `handle` does with its first choice. -/
theorem handleUpstream_eq (values : List Str) :
    (r.handleUpstream values msg inboundTag).1
      = if qtypeOf msg ≠ 1 ∧ qtypeOf msg ≠ 28 ∧ r.isFakeIp (r.firstUpstream msg inboundTag) = true
        then ((r.realRule inboundTag (qnameOf msg) (qtypeOf msg)).map (·.upstream)).getD
          (r.anyReal values)
        else r.firstUpstream msg inboundTag := by
  unfold firstUpstream handleUpstream
  rw [show (extractQname msg).getD [] = qnameOf msg from rfl,
    show (extractQtype msg).getD 1 = qtypeOf msg from rfl]
  dsimp only
  rcases r.firstRule inboundTag (qnameOf msg) (qtypeOf msg) with _ | first
  · rcases r.realRule inboundTag (qnameOf msg) (qtypeOf msg) with _ | rule
    · exact apply_ite Prod.fst _ _ _
    · exact apply_ite Prod.fst _ _ _
  · rcases r.realRule inboundTag (qnameOf msg) (qtypeOf msg) with _ | rule
    · exact apply_ite Prod.fst _ _ _
    · exact apply_ite Prod.fst _ _ _

/-- `handle` keeps the first choice for questions for addresses and for real upstreams. -/
theorem handleUpstream_of_first (values : List Str)
    (h : qtypeOf msg = 1 ∨ qtypeOf msg = 28 ∨ r.isFakeIp (r.firstUpstream msg inboundTag) = false) :
    (r.handleUpstream values msg inboundTag).1 = r.firstUpstream msg inboundTag := by
  rw [handleUpstream_eq, if_neg]
  rintro ⟨h1, h28, hfake⟩
  rcases h with h | h | h
  · exact h1 h
  · exact h28 h
  · rw [h] at hfake
    cases hfake

/-- A query for another type than an address, that the rules send to a FakeIP server, falls back to a real one. -/
theorem handleUpstream_of_fallback (values : List Str) (h1 : qtypeOf msg ≠ 1)
    (h28 : qtypeOf msg ≠ 28) (hfake : r.isFakeIp (r.firstUpstream msg inboundTag) = true) :
    (r.handleUpstream values msg inboundTag).1
      = ((r.realRule inboundTag (qnameOf msg) (qtypeOf msg)).map (·.upstream)).getD
          (r.anyReal values) := by
  rw [handleUpstream_eq, if_pos ⟨h1, h28, hfake⟩]

/-- When `handle` chooses well.  If every rule that matches points at a FakeIP server: a question
    for an address must not have such a rule unless `final` is FakeIP as well, and where any other
    question falls back, there is at most one upstream to fall back to. -/
def HandleCondition (r : DnsResolver) (msg : Bytes) (inboundTag : Str) : Prop :=
  r.OnlyFake inboundTag (qnameOf msg) (qtypeOf msg) →
    if qtypeOf msg = 1 ∨ qtypeOf msg = 28 then
      r.SomeRule inboundTag (qnameOf msg) (qtypeOf msg) → r.isFakeIp r.default = true
    else
      r.SomeRule inboundTag (qnameOf msg) (qtypeOf msg) ∨ r.isFakeIp r.default = true → r.OneReal

/-- The choice of `handle` for a message, over the orders. -/
def HandleStable (r : DnsResolver) (msg : Bytes) (inboundTag : Str) : Prop :=
  r.Stable (fun values => (r.handleUpstream values msg inboundTag).1)
    (r.OnlyFake inboundTag (qnameOf msg) (qtypeOf msg))

/-- A question for an address, when every rule that matches points at a FakeIP server. -/
theorem handleStable_iff_address (haddr : qtypeOf msg = 1 ∨ qtypeOf msg = 28)
    (honly : r.OnlyFake inboundTag (qnameOf msg) (qtypeOf msg)) :
    r.HandleStable msg inboundTag ↔
      (r.SomeRule inboundTag (qnameOf msg) (qtypeOf msg) → r.isFakeIp r.default = true) := by
  have hchoice : ∀ values, (r.handleUpstream values msg inboundTag).1
      = r.firstUpstream msg inboundTag := fun values =>
    handleUpstream_of_first values (haddr.imp id Or.inl)
  rcases firstUpstream_cases r msg inboundTag with ⟨hfirst, hnone⟩ | ⟨rule, hrule, hmatch, hfirst⟩
  · refine ⟨fun _ hsome => absurd hsome hnone, fun _ => ?_⟩
    exact stable_const _ hchoice fun _ _ => hfirst
  · -- the rule points at a FakeIP server, so it is not a real `final`
    have hfake := honly rule hrule hmatch
    constructor
    · intro h _
      by_contra hreal
      have hreal' := Bool.eq_false_of_not_eq_true hreal
      have hfinal := h.final honly hreal' r.upstreams.keys (List.Perm.refl _)
      rw [hchoice, hfirst] at hfinal
      rw [hfinal, hreal'] at hfake
      cases hfake
    · intro h
      refine stable_const _ hchoice fun _ hreal => ?_
      rw [h ⟨rule, hrule, hmatch⟩] at hreal
      cases hreal

/-- Any other question, when every rule that matches points at a FakeIP server. -/
theorem handleStable_iff_other (hdefault : r.default ∈ r.upstreams.keys) (h1 : qtypeOf msg ≠ 1)
    (h28 : qtypeOf msg ≠ 28) (honly : r.OnlyFake inboundTag (qnameOf msg) (qtypeOf msg)) :
    r.HandleStable msg inboundTag ↔
      (r.SomeRule inboundTag (qnameOf msg) (qtypeOf msg) ∨ r.isFakeIp r.default = true →
        r.OneReal) := by
  by_cases hfake : r.isFakeIp (r.firstUpstream msg inboundTag) = true
  · -- the first choice is a FakeIP server, which does not answer this type: any real one is taken
    have hchoice : (fun values => (r.handleUpstream values msg inboundTag).1) = r.anyReal := by
      funext values
      rw [handleUpstream_of_fallback values h1 h28 hfake, realRule_eq_none_iff.mpr honly]
      rfl
    have hreached : r.SomeRule inboundTag (qnameOf msg) (qtypeOf msg) ∨
        r.isFakeIp r.default = true := by
      rcases firstUpstream_cases r msg inboundTag with ⟨hfirst, -⟩ | ⟨rule, hrule, hmatch, -⟩
      · rw [hfirst] at hfake
        exact .inr hfake
      · exact .inl ⟨rule, hrule, hmatch⟩
    rw [HandleStable, hchoice, stable_anyReal_iff hdefault]
    exact ⟨fun h _ => h, fun h => h hreached⟩
  · have hreal := Bool.eq_false_of_not_eq_true hfake
    -- the first choice is a real server, and does not depend on the order
    have hchoice : ∀ values, (r.handleUpstream values msg inboundTag).1
        = r.firstUpstream msg inboundTag := fun values =>
      handleUpstream_of_first values (.inr (.inr hreal))
    rcases firstUpstream_cases r msg inboundTag with ⟨hfirst, hnone⟩ | ⟨rule, hrule, hmatch, hfirst⟩
    · refine ⟨fun _ hor => ?_, fun _ => stable_const _ hchoice fun _ _ => hfirst⟩
      rcases hor with hsome | hdef
      · exact absurd hsome hnone
      · rw [hfirst, hdef] at hreal
        cases hreal
    · rw [hfirst, honly rule hrule hmatch] at hreal
      cases hreal

/-- A question that a real rule matches: the choice is a rule's, and nothing is said about `final`. -/
theorem handleStable_of_real (honly : ¬ r.OnlyFake inboundTag (qnameOf msg) (qtypeOf msg)) :
    r.HandleStable msg inboundTag := by
  by_cases hkeep : qtypeOf msg = 1 ∨ qtypeOf msg = 28 ∨
      r.isFakeIp (r.firstUpstream msg inboundTag) = false
  · exact stable_const _ (fun values => handleUpstream_of_first values hkeep)
      fun hfake => absurd hfake honly
  · have hne := not_or.mp hkeep
    have hne' := not_or.mp hne.2
    obtain ⟨rule, hrule⟩ := Option.ne_none_iff_exists'.mp
      fun hnone => honly (realRule_eq_none_iff.mp hnone)
    refine stable_const rule.upstream (fun values => ?_) fun hfake => absurd hfake honly
    rw [handleUpstream_of_fallback values hne.1 hne'.1 (Bool.of_not_eq_false hne'.2), hrule]
    rfl

/-- **`handle`** chooses well exactly under its condition. -/
theorem handleStable_iff (hdefault : r.default ∈ r.upstreams.keys) :
    r.HandleStable msg inboundTag ↔ r.HandleCondition msg inboundTag := by
  by_cases honly : r.OnlyFake inboundTag (qnameOf msg) (qtypeOf msg)
  · rw [HandleCondition, forall_prop_of_true honly]
    split
    · rename_i haddr
      exact handleStable_iff_address haddr honly
    · rename_i haddr
      exact handleStable_iff_other hdefault (not_or.mp haddr).1 (not_or.mp haddr).2 honly
  · exact ⟨fun _ hfake => absurd hfake honly, fun _ => handleStable_of_real honly⟩

end Handle

/-! ### `resolve_domain` -/

/-- The choice of `resolve_domain` for a host, over the orders. -/
def ResolveStable (r : DnsResolver) (host : Str) : Prop :=
  r.Stable (fun values => r.resolveDomainUpstream values host) (r.OnlyFake [] host 1)

/-- When `resolve_domain` chooses well: if it falls back past a FakeIP `final`, there is at most one
    upstream to fall back to. -/
def ResolveCondition (r : DnsResolver) (host : Str) : Prop :=
  r.OnlyFake [] host 1 → r.isFakeIp r.default = true → r.OneReal

theorem resolveStable_iff {r : DnsResolver} (hdefault : r.default ∈ r.upstreams.keys) (host : Str) :
    r.ResolveStable host ↔ r.ResolveCondition host := by
  rcases hrule : r.realRule [] host 1 with _ | rule
  · have honly := realRule_eq_none_iff.mp hrule
    have hcond : r.ResolveCondition host ↔ (r.isFakeIp r.default = true → r.OneReal) :=
      ⟨fun h => h honly, fun h _ => h⟩
    rw [hcond]
    by_cases hfake : r.isFakeIp r.default = true
    · have hchoice : (fun values => r.resolveDomainUpstream values host) = r.anyReal := by
        funext values
        rw [resolveDomainUpstream, hrule]
        exact if_pos hfake
      rw [ResolveStable, hchoice, stable_anyReal_iff hdefault]
      exact ⟨fun h _ => h, fun h => h hfake⟩
    · refine ⟨fun _ h => absurd h hfake, fun _ => ?_⟩
      refine stable_const r.default (fun values => ?_) fun _ _ => rfl
      rw [resolveDomainUpstream, hrule]
      exact if_neg hfake
  · have hreal : ¬ r.OnlyFake [] host 1 := by
      intro hfake
      rw [realRule_eq_none_iff.mpr hfake] at hrule
      cases hrule
    refine ⟨fun _ hfake => absurd hfake hreal, fun _ => ?_⟩
    refine stable_const rule.upstream (fun values => ?_) fun hfake => absurd hfake hreal
    rw [resolveDomainUpstream, hrule]

end DnsResolver

/-- **Which upstream.** For every resolver that is built from a configuration, every question and
    every host: the choices of `handle` and of `resolve_domain` are stable exactly under their
    conditions. -/
theorem upstream_stable_iff (E : Externals) (buildTls : DnsServerConfig → Except Str Unit)
    (config : DnsConfig) (rulesets : Str → Option RuleSet) (outbounds : Option (List Str))
    (cacheWriter : Option CacheFile) (cacheReader : Option Database) (r : DnsResolver)
    (h : DnsResolver.fromConfigFull E buildTls config rulesets outbounds cacheWriter cacheReader
      = .ok r) (msg : Bytes) (inboundTag host : Str) :
    (r.HandleStable msg inboundTag ↔ r.HandleCondition msg inboundTag) ∧
      (r.ResolveStable host ↔ r.ResolveCondition host) := by
  have hdefault := DnsResolver.default_mem_keys h
  exact ⟨DnsResolver.handleStable_iff hdefault, DnsResolver.resolveStable_iff hdefault host⟩

/-- A FakeIP server for everything. -/
def fakeServer : DnsServerConfig :=
  { tag := "fake".toList, address := "fakeip://".toList, fakeip := some smallConfig }

/-- A plain server at an address. -/
def plainServer (tag address : Str) : DnsServerConfig := { tag, address }

/-- All questions go to the FakeIP server, what it does not answer to one of two servers. -/
def twoServers : DnsConfig where
  servers := [fakeServer, plainServer "a".toList "1.1.1.1".toList,
    plainServer "b".toList "8.8.8.8".toList]
  rules := [{ server := "fake".toList }]
  final := "a".toList

/-- With one server to fall back to. -/
def oneServer : DnsConfig where
  servers := [fakeServer, plainServer "a".toList "1.1.1.1".toList]
  rules := [{ server := "fake".toList }]
  final := "a".toList

/-- A question for the `HTTPS` record of `a`. -/
def queryHttps : Bytes := [0, 1, 1, 0, 0, 1, 0, 0, 0, 0, 0, 0, 1, 0x61, 0, 0, 65, 0, 1]

/-- In one order of the hash map the `HTTPS` question of `a` goes to `b`, although `final` is `a`. -/
theorem handle_unstable :
    ∃ r, DnsResolver.fromConfigFull Externals.plain (fun _ => .ok ()) twoServers (fun _ => none) none
        none none = .ok r ∧ ¬ r.HandleStable queryHttps [] := by
  obtain ⟨r, hr, hany⟩ := exists_eq_ok_of_any
    (x := DnsResolver.fromConfigFull Externals.plain (fun _ => .ok ()) twoServers (fun _ => none) none
      none none)
    (p := fun r => decide (["b".toList, "a".toList, "fake".toList].Perm r.upstreams.keys) &&
      decide (["a".toList, "b".toList, "fake".toList].Perm r.upstreams.keys) &&
      decide ((r.handleUpstream ["b".toList, "a".toList, "fake".toList] queryHttps []).1
        ≠ (r.handleUpstream ["a".toList, "b".toList, "fake".toList] queryHttps []).1))
    (by decide +kernel)
  simp only [Bool.and_eq_true, decide_eq_true_eq] at hany
  exact ⟨r, hr, fun hstable => hany.2 (hstable.order _ _ hany.1.1 hany.1.2)⟩

/-- With one server to fall back to, the choice is stable. -/
theorem upstream_stable_iff_oneServer :
    ∃ r, DnsResolver.fromConfigFull Externals.plain (fun _ => .ok ()) oneServer (fun _ => none) none
        none none = .ok r ∧ r.HandleStable queryHttps [] ∧ r.ResolveStable "a".toList := by
  obtain ⟨r, hr, hany⟩ := exists_eq_ok_of_any
    (x := DnsResolver.fromConfigFull Externals.plain (fun _ => .ok ()) oneServer (fun _ => none) none
      none none)
    (p := fun r => r.upstreams.keys.all fun a => r.upstreams.keys.all fun b =>
      r.isFakeIp a || r.isFakeIp b || decide (a = b))
    (by decide)
  have hone : r.OneReal := by
    intro a ha b hb hreal hreal'
    have hab := List.all_eq_true.mp (List.all_eq_true.mp hany a ha) b hb
    rw [hreal, hreal'] at hab
    exact of_decide_eq_true hab
  obtain ⟨hhandle, hresolve⟩ := upstream_stable_iff Externals.plain (fun _ => .ok ()) oneServer
    (fun _ => none) none none none r hr queryHttps [] "a".toList
  refine ⟨r, hr, hhandle.mpr fun _ => ?_, hresolve.mpr fun _ _ => hone⟩
  rw [if_neg (by decide +kernel)]
  exact fun _ => hone

end Reflex.Dns
