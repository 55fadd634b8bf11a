import Reflex.Ruleset.AddressMatch
import Reflex.Ruleset.SuffixMatch

namespace Reflex.Ruleset

open RustStd

/-!
# Rule sets — from the rule text to the answer

`RuleSet::from_text` compiles a text, serializes it, loads the bytes again and builds the
search structures.  Within the limits of the binary format (`CompiledRuleSet.Fits`) the result
answers what the compiled lists say:

* `accepted_of_fromText` — what `from_text` checks of every rule;
* `ofCompiled_eq`, `ofCompiled_spec` — addresses, ports and names, for every accepted rule set;
* `fromText_matches_iff_listed` — addresses and ports in terms of the rule lines;
* `not_fromText_matches_many` — `2 ^ 32` rule lines are lost.
-/

/-! ### Accepted rule sets -/

/-- What both front ends check of every rule before they store it. -/
structure CompiledRuleSet.Accepted (c : CompiledRuleSet) : Prop where
  domains : ∀ d ∈ c.domains, ShortStr d
  domainSuffixes : ∀ d ∈ c.domainSuffixes, ShortStr d
  ipv4Prefixes : ∀ e ∈ c.ipv4Cidrs, e.2.toNat ≤ 32
  ipv6Prefixes : ∀ e ∈ c.ipv6Cidrs, e.2.toNat ≤ 128

/-- **Spec of the CIDR parsers**: an address, a slash and a prefix length that fits, with the bits behind the prefix
    cleared. -/
theorem parseCidr_ok {w : Nat} {fromStr : Str → Option (BitVec w)}
    {mask : BitVec w → UInt8 → BitVec w} {addrMsg preMsg s : Str} {a : BitVec w} {p : UInt8} :
    parseCidr fromStr mask addrMsg preMsg s = .ok (a, p) ↔
      ∃ addrStr preStr addr, splitOnce '/' s = some (addrStr, preStr) ∧
        fromStr addrStr = some addr ∧ parseU8 preStr = some p ∧ p.toNat ≤ w ∧ a = mask addr p := by
  unfold parseCidr
  rcases splitOnce '/' s with _ | ⟨addrStr, preStr⟩
  · simp
  · rcases haddr : fromStr addrStr with _ | addr
    · simp [haddr]
    · rcases hpre : parseU8 preStr with _ | pre
      · simp [haddr, hpre]
      · by_cases hw : w < pre.toNat
        · simp [haddr, hpre, hw]
          rintro rfl
          omega
        · simp [haddr, hpre, hw]
          constructor
          · rintro ⟨rfl, rfl⟩
            exact ⟨rfl, by omega, rfl⟩
          · rintro ⟨rfl, -, rfl⟩
            exact ⟨rfl, rfl⟩

variable {E : Externals}

theorem accepted_of_fromText {src : Str} {c : CompiledRuleSet}
    (h : CompiledRuleSet.fromText E src = .ok c) : c.Accepted where
  domains d hd := by
    obtain ⟨e, -, hparse⟩ := (holds_iff_of_fromText h (.domain d)).mp hd
    cases hparse with
    | domain _ hlen => rwa [ShortStr, length_utf8_toAsciiLowercase]
  domainSuffixes d hd := by
    obtain ⟨e, -, hparse⟩ := (holds_iff_of_fromText h (.domainSuffix d)).mp hd
    cases hparse with
    | domainSuffix _ hlen => rwa [ShortStr, length_utf8_toAsciiLowercase]
  ipv4Prefixes e he := by
    obtain ⟨_, -, hparse⟩ := (holds_iff_of_fromText h (.ipCidr e.1 e.2)).mp he
    cases hparse with
    | ipCidr _ hcidr =>
      obtain ⟨_, _, _, _, _, _, hle, _⟩ := parseCidr_ok.mp hcidr
      exact hle
  ipv6Prefixes e he := by
    obtain ⟨_, -, hparse⟩ := (holds_iff_of_fromText h (.ipCidr6 e.1 e.2)).mp he
    cases hparse with
    | ipCidr6 _ hcidr =>
      obtain ⟨_, _, _, _, _, _, hle, _⟩ := parseCidr_ok.mp hcidr
      exact hle

/-! ### What the lists say -/

/-- Some CIDR of the lists contains the address; an IPv4-mapped address is also looked up as an
    IPv4 address. -/
def CompiledRuleSet.MatchesIp (c : CompiledRuleSet) : IpAddr → Prop
  | .v4 x => ∃ e ∈ c.ipv4Cidrs, CidrContains e.1 e.2 x
  | .v6 x => (∃ v4, x.toIpv4Mapped = some v4 ∧ ∃ e ∈ c.ipv4Cidrs, CidrContains e.1 e.2 v4) ∨
      ∃ e ∈ c.ipv6Cidrs, CidrContains e.1 e.2 x

/-- Some range of the list contains the port. -/
def CompiledRuleSet.MatchesPort (c : CompiledRuleSet) (p : UInt16) : Prop :=
  ∃ r ∈ c.ports, r.1 ≤ p ∧ p ≤ r.2

/-- The normalized name is listed, ends in the labels of a listed suffix, or contains a listed
    keyword. -/
def CompiledRuleSet.MatchesDomain (c : CompiledRuleSet) (host : Str) : Prop :=
  normalizeDomain host ∈ c.domains ∨
    (∃ s ∈ c.domainSuffixes, labels s <:+ labels (normalizeDomain host)) ∨
    ∃ k ∈ c.domainKeywords, k <:+: normalizeDomain host

theorem normalizeDomain_eq (host : Str) :
    normalizeDomain host = toAsciiLowercase (trimEndMatches '.' host) := by
  simp only [normalizeDomain]
  split
  · rfl
  · rename_i h
    rw [toAsciiLowercase_eq_self (by simpa using h)]

/-- Names can be read off their FST keys. -/
theorem domainToFstKey_injective : Function.Injective domainToFstKey := by
  intro a b h
  -- A key is the labels in reverse order; no label has a dot in it.
  have hsplit : ∀ d : Str, (domainToFstKey d).splitOn '.' = (d.splitOn '.').reverse := by
    intro d
    refine List.splitOn_intercalate '.' (fun l hl => ?_) (by simp)
    exact not_mem_of_mem_splitOn (List.mem_reverse.mp hl)
  have hab : a.splitOn '.' = b.splitOn '.' := by
    have := congrArg (fun k => k.splitOn '.') h
    simpa [hsplit] using this
  have ha : ['.'].intercalate (a.splitOn '.') = a := List.intercalate_splitOn '.'
  rw [← ha, hab, List.intercalate_splitOn]

/-- **The domain matcher** of the FSTs of a rule set. -/
theorem buildDomainMatcher_spec (hE : E.FstLawful) {c : CompiledRuleSet} (hc : c.Accepted)
    {l : LoadedRuleSet} (hdomain : buildDomainFst E c.domains = .ok l.domainFst)
    (hsuffix : buildSuffixFst E c.domainSuffixes = .ok l.domainSuffixFst)
    (hdomains : l.domains = []) (hsuffixes : l.domainSuffixes = []) :
    ∃ m, buildDomainMatcher E l = .ok m ∧
      (∀ d, m.matchesExact (utf8 (domainToFstKey d)) d = true ↔ d ∈ c.domains) ∧
      ∀ d, ((∀ r ∈ c.domainSuffixes, (labels r).length ≤ 127) ∨ (labels d).length ≤ 128) →
        (m.matchesSuffix d = true ↔ ∃ r ∈ c.domainSuffixes, labels r <:+ labels d) := by
  obtain ⟨bytes, hbuild, hempty, hopen⟩ := buildFst_spec E hE domainToFstKey c.domains
  obtain rfl : bytes = l.domainFst := Except.ok.inj (hbuild.symm.trans hdomain)
  obtain ⟨sbytes, suffix, hsbuild, hsopen, hmatch⟩ :=
    fstBackend_spec hE c.domainSuffixes hc.domainSuffixes
  obtain rfl : sbytes = l.domainSuffixFst := Except.ok.inj (hsbuild.symm.trans hsuffix)
  -- The exact set holds the keys of the names; keys determine names.
  have hexact : ∃ exact, openFst E l.domainFst = .ok exact ∧
      ∀ d, (exact.any fun s => s.contains (utf8 (domainToFstKey d))) = true ↔ d ∈ c.domains := by
    by_cases hnil : c.domains = []
    · exact ⟨none, by rw [openFst, if_pos (hempty.mpr hnil)], by simp [hnil]⟩
    · obtain ⟨set, hset, hmem⟩ := hopen hnil
      have hne : l.domainFst ≠ [] := fun h => hnil (hempty.mp h)
      refine ⟨some set, by rw [openFst, if_neg hne, hset], fun d => ?_⟩
      rw [Option.any_some, hmem]
      constructor
      · rintro ⟨n, hn, hkey⟩
        exact domainToFstKey_injective (utf8_injective hkey) ▸ hn
      · exact fun hd => ⟨d, hd, rfl⟩
  obtain ⟨exact, hexopen, hexmem⟩ := hexact
  unfold buildDomainMatcher
  split
  · refine ⟨.fst exact suffix, ?_, hexmem, hmatch exact⟩
    rw [hexopen, hsopen]
    rfl
  · -- no FSTs: there are no names, and the trie is empty
    rename_i hnone
    obtain ⟨hd, hs⟩ : l.domainFst = [] ∧ l.domainSuffixFst = [] := by simpa using hnone
    have hcd : c.domains = [] := hempty.mp hd
    have hcs : c.domainSuffixes = [] := by
      obtain ⟨b, hb, hbempty, -⟩ := buildFst_spec E hE suffixToFstKey c.domainSuffixes
      obtain rfl : b = l.domainSuffixFst := Except.ok.inj (hb.symm.trans hsuffix)
      exact hbempty.mp hs
    refine ⟨_, rfl, fun d => ?_, fun d _ => ?_⟩
    · simp [DomainMatcher.matchesExact, hdomains, hcd]
    · rw [DomainMatcher.matchesSuffix, hsuffixes, List.foldl_nil,
        SuffixTrie.represents_new.matches_iff]
      simp [hcs]

/-- **The whole path**, up to the patterns.  An accepted rule set that is within the limits of the format
    answers what its lists say; names are answered for hosts of at most 128 labels, or any host when the
    suffixes have at most 127 labels. -/
theorem ofCompiled_eq (hE : E.FstLawful) {c : CompiledRuleSet} (hc : c.Accepted) (hfits : c.Fits E) :
    ∃ rs : Option (Str → Bool) → RuleSet,
      RuleSet.ofCompiled E c = (buildRegexes E { domainRegexes := c.domainRegexes }).map rs ∧
      ∀ regexes,
        (∀ ip, (rs regexes).matches (.ip ip) = true ↔ c.MatchesIp ip) ∧
        (∀ p, (rs regexes).matches (.port p) = true ↔ c.MatchesPort p) ∧
        ∀ host, ((∀ r ∈ c.domainSuffixes, (labels r).length ≤ 127) ∨
            (labels (normalizeDomain host)).length ≤ 128) →
          ((rs regexes).matches (.domain host) = true ↔
            c.MatchesDomain host ∨ ∃ isMatch ∈ regexes, isMatch (normalizeDomain host) = true) := by
  -- What is loaded are the lists that were compiled, so each table can be built from them.
  obtain ⟨bytes, domainFst, suffixFst, hser, hdomain, hsuffix, hload⟩ := hfits.roundTrips hE
  obtain ⟨m, hm, hexact, hsuffixes⟩ := buildDomainMatcher_spec hE hc
    (l := { domainFst := domainFst, domainSuffixFst := suffixFst
            domainKeywords := c.domainKeywords, domainRegexes := c.domainRegexes
            ipv4Cidrs := c.ipv4Cidrs, ipv6Cidrs := c.ipv6Cidrs, ports := c.ports })
    hdomain hsuffix rfl rfl
  obtain ⟨r4, hr4, hmem4⟩ := buildRanges_spec c.ipv4Cidrs hc.ipv4Prefixes
  obtain ⟨r6, hr6, hmem6⟩ := buildRanges_spec c.ipv6Cidrs hc.ipv6Prefixes
  have hr4' : buildRanges ipv4CidrToRange c.ipv4Cidrs = .ok r4 := hr4
  have hr6' : buildRanges ipv6CidrToRange c.ipv6Cidrs = .ok r6 := hr6
  refine ⟨fun regexes => { domainMatcher := m, keywords := c.domainKeywords, regexes, ipv4Ranges := r4
                           ipv6Ranges := r6, portBitset := buildPorts c.ports }, ?_,
    fun regexes => ⟨?_, ?_, ?_⟩⟩
  · rw [RuleSet.ofCompiled, hser]
    simp only [hload, RuleSet.fromLoaded, hm, hr4', hr6', buildRegexes]
    split
    · rfl
    · split <;> rfl
  · rintro (x | x)
    · exact hmem4 x
    · -- An IPv6 address is looked up twice: as the IPv4 address embedded in it, and as itself.
      have hmapped : ∀ v4, RuleSet.matchIpv4
          { domainMatcher := m, keywords := c.domainKeywords, regexes, ipv4Ranges := r4
            ipv6Ranges := r6, portBitset := buildPorts c.ports } v4 = true ↔
          ∃ e ∈ c.ipv4Cidrs, CidrContains e.1 e.2 v4 := hmem4
      simp only [RuleSet.matches, RuleSet.matchIp, RuleSet.matchIpv6, Bool.or_eq_true,
        CompiledRuleSet.MatchesIp, hmem6, Option.any_eq_true, hmapped]
  · exact fun p => buildPorts_spec c.ports p
  · intro host hhost
    simp only [RuleSet.matches, RuleSet.matchDomain, Bool.or_eq_true, Option.any_eq_true,
      hexact, hsuffixes _ hhost, List.any_eq_true, decide_eq_true_eq, or_assoc,
      CompiledRuleSet.MatchesDomain, Option.mem_def]

/-- **The whole path** of a rule set without patterns. -/
theorem ofCompiled_spec (hE : E.FstLawful) {c : CompiledRuleSet} (hc : c.Accepted)
    (hfits : c.Fits E) (hregex : c.domainRegexes = []) :
    ∃ rs, RuleSet.ofCompiled E c = .ok rs ∧
      (∀ ip, rs.matches (.ip ip) = true ↔ c.MatchesIp ip) ∧
      (∀ p, rs.matches (.port p) = true ↔ c.MatchesPort p) ∧
      ∀ host, ((∀ r ∈ c.domainSuffixes, (labels r).length ≤ 127) ∨
          (labels (normalizeDomain host)).length ≤ 128) →
        (rs.matches (.domain host) = true ↔ c.MatchesDomain host) := by
  obtain ⟨rs, heq, hmatches⟩ := ofCompiled_eq hE hc hfits
  obtain ⟨hip, hport, hdomain⟩ := hmatches none
  have hnone : buildRegexes E { domainRegexes := c.domainRegexes } = .ok none := if_pos hregex
  rw [hnone] at heq
  exact ⟨rs none, heq, hip, hport, fun host hhost => by simpa using hdomain host hhost⟩

/-! ### Address and port lines -/

/-- The addresses a CIDR text contains. -/
def CidrTextContains {w : Nat} (fromStr : Str → Option (BitVec w)) (text : Str) (x : BitVec w) :
    Prop :=
  ∃ addrStr preStr addr pre, splitOnce '/' text = some (addrStr, preStr) ∧
    fromStr addrStr = some addr ∧ parseU8 preStr = some pre ∧ CidrContains addr pre x

/-- Some `ip-cidr` line contains the address. -/
def ListsIpv4 (src : Str) (x : Ipv4Addr) : Prop :=
  ∃ e ∈ entries src, e.1 = "ip-cidr".toList ∧ CidrTextContains Ipv4Addr.fromStr e.2 x

/-- Some `ip-cidr6` line contains the address. -/
def ListsIpv6 (src : Str) (x : Ipv6Addr) : Prop :=
  ∃ e ∈ entries src, e.1 = "ip-cidr6".toList ∧ CidrTextContains Ipv6Addr.fromStr e.2 x

/-- Some line contains the address, or the IPv4 address embedded in it. -/
def ListsIp (src : Str) : IpAddr → Prop
  | .v4 x => ListsIpv4 src x
  | .v6 x => (∃ v4, x.toIpv4Mapped = some v4 ∧ ListsIpv4 src v4) ∨ ListsIpv6 src x

/-- Some `port` line contains the port. -/
def ListsPort (src : Str) (p : UInt16) : Prop :=
  ∃ e ∈ entries src, e.1 = "port".toList ∧
    ∃ lo hi, parsePortRange e.2 = .ok (lo, hi) ∧ lo ≤ p ∧ p ≤ hi

/-- A parsed CIDR contains what its text contains. -/
theorem cidrTextContains_iff {w : Nat} {fromStr : Str → Option (BitVec w)} {addrMsg preMsg s : Str}
    {mask : BitVec w → UInt8 → BitVec w} (hmask : ∀ a p, mask a p = maskAddr a p) {a : BitVec w}
    {p : UInt8} (h : parseCidr fromStr mask addrMsg preMsg s = .ok (a, p)) (x : BitVec w) :
    CidrContains a p x ↔ CidrTextContains fromStr s x := by
  obtain ⟨addrStr, preStr, addr, hsplit, haddr, hpre, -, rfl⟩ := parseCidr_ok.mp h
  rw [hmask, cidrContains_maskAddr]
  constructor
  · exact fun hx => ⟨addrStr, preStr, addr, p, hsplit, haddr, hpre, hx⟩
  · rintro ⟨addrStr', preStr', addr', p', hsplit', haddr', hpre', hx⟩
    obtain ⟨rfl, rfl⟩ : addrStr = addrStr' ∧ preStr = preStr' := by simpa [hsplit] using hsplit'
    obtain rfl : addr = addr' := by simpa [haddr] using haddr'
    obtain rfl : p = p' := by simpa [hpre] using hpre'
    exact hx

theorem ipv4_iff_lists {src : Str} {c : CompiledRuleSet}
    (h : CompiledRuleSet.fromText E src = .ok c) (x : Ipv4Addr) :
    (∃ e ∈ c.ipv4Cidrs, CidrContains e.1 e.2 x) ↔ ListsIpv4 src x := by
  constructor
  · rintro ⟨⟨a, p⟩, he, hx⟩
    obtain ⟨e, hen, hparse⟩ := (holds_iff_of_fromText h (.ipCidr a p)).mp he
    cases hparse with
    | ipCidr hkey hcidr => exact ⟨e, hen, hkey, (cidrTextContains_iff (fun _ _ => rfl) hcidr x).mp hx⟩
  · rintro ⟨e, hen, hkey, hx⟩
    obtain ⟨r, hkind, hparse⟩ := exists_rule_of_entry h hen (k := .ipCidr) hkey
    cases hparse with
    | @ipCidr a p _ hcidr =>
      exact ⟨(a, p), (holds_iff_of_fromText h (.ipCidr a p)).mpr ⟨e, hen, .ipCidr hkey hcidr⟩,
        (cidrTextContains_iff (fun _ _ => rfl) hcidr x).mpr hx⟩
    | _ => exact absurd hkind (by simp [RuleLine.kind])

theorem ipv6_iff_lists {src : Str} {c : CompiledRuleSet}
    (h : CompiledRuleSet.fromText E src = .ok c) (x : Ipv6Addr) :
    (∃ e ∈ c.ipv6Cidrs, CidrContains e.1 e.2 x) ↔ ListsIpv6 src x := by
  constructor
  · rintro ⟨⟨a, p⟩, he, hx⟩
    obtain ⟨e, hen, hparse⟩ := (holds_iff_of_fromText h (.ipCidr6 a p)).mp he
    cases hparse with
    | ipCidr6 hkey hcidr => exact ⟨e, hen, hkey, (cidrTextContains_iff (fun _ _ => rfl) hcidr x).mp hx⟩
  · rintro ⟨e, hen, hkey, hx⟩
    obtain ⟨r, hkind, hparse⟩ := exists_rule_of_entry h hen (k := .ipCidr6) hkey
    cases hparse with
    | @ipCidr6 a p _ hcidr =>
      exact ⟨(a, p), (holds_iff_of_fromText h (.ipCidr6 a p)).mpr ⟨e, hen, .ipCidr6 hkey hcidr⟩,
        (cidrTextContains_iff (fun _ _ => rfl) hcidr x).mpr hx⟩
    | _ => exact absurd hkind (by simp [RuleLine.kind])

/-- **Addresses**: the lists of an accepted text contain what its lines contain. -/
theorem matchesIp_iff_lists {src : Str} {c : CompiledRuleSet}
    (h : CompiledRuleSet.fromText E src = .ok c) (ip : IpAddr) : c.MatchesIp ip ↔ ListsIp src ip := by
  cases ip with
  | v4 x => exact ipv4_iff_lists h x
  | v6 x => simp only [CompiledRuleSet.MatchesIp, ListsIp, ipv4_iff_lists h, ipv6_iff_lists h]

/-- **Ports**: the lists of an accepted text contain what its lines contain. -/
theorem matchesPort_iff_lists {src : Str} {c : CompiledRuleSet}
    (h : CompiledRuleSet.fromText E src = .ok c) (p : UInt16) :
    c.MatchesPort p ↔ ListsPort src p := by
  constructor
  · rintro ⟨⟨lo, hi⟩, hr, hp⟩
    obtain ⟨e, hen, hparse⟩ := (holds_iff_of_fromText h (.port lo hi)).mp hr
    cases hparse with
    | port hkey hrange => exact ⟨e, hen, hkey, lo, hi, hrange, hp⟩
  · rintro ⟨e, hen, hkey, lo, hi, hrange, hp⟩
    exact ⟨(lo, hi), (holds_iff_of_fromText h (.port lo hi)).mpr ⟨e, hen, .port hkey hrange⟩, hp⟩

/-- **No names.** A rule set of addresses and ports is within the limits when these fit their
    sections. -/
theorem CompiledRuleSet.fits_of_no_names {c : CompiledRuleSet}
    (hnames : ∀ k : RuleKind, k ≠ .ipCidr → k ≠ .ipCidr6 → k ≠ .port → c.count k = 0)
    (h4 : 5 * c.count .ipCidr < 2 ^ 32) (h6 : 17 * c.count .ipCidr6 < 2 ^ 32)
    (hp : 4 * c.count .port < 2 ^ 32) : c.Fits E ∧ c.domainRegexes = [] := by
  have hdomains : c.domains = [] := List.length_eq_zero_iff.mp (hnames .domain nofun nofun nofun)
  have hsuffixes : c.domainSuffixes = [] :=
    List.length_eq_zero_iff.mp (hnames .domainSuffix nofun nofun nofun)
  have hkeywords : c.domainKeywords = [] :=
    List.length_eq_zero_iff.mp (hnames .domainKeyword nofun nofun nofun)
  have hregexes : c.domainRegexes = [] :=
    List.length_eq_zero_iff.mp (hnames .domainRegex nofun nofun nofun)
  refine ⟨?_, hregexes⟩
  exact {
    -- The FSTs of no names are not written at all.
    domainFst := by
      intro fst hfst
      obtain rfl : [] = fst := by simpa [buildDomainFst, buildFst, hdomains] using hfst
      decide
    domainSuffixFst := by
      intro fst hfst
      obtain rfl : [] = fst := by simpa [buildSuffixFst, buildFst, hsuffixes] using hfst
      decide
    keywordBytes := by simp [hkeywords]
    regexBytes := by simp [hregexes]
    ipv4Bytes := h4
    ipv6Bytes := h6
    portBytes := hp
    keywords := by simp [hkeywords]
    regexes := by simp [hregexes] }

/-- A rule text of address and port lines only. -/
def OnlyAddressLines (src : Str) : Prop :=
  ∀ e ∈ entries src, e.1 ∈ ["ip-cidr".toList, "ip-cidr6".toList, "port".toList]

instance (src : Str) : Decidable (OnlyAddressLines src) :=
  inferInstanceAs (Decidable (∀ e ∈ entries src, _))

/-- A text with lines for addresses and ports only has no entry of another kind. -/
theorem count_eq_zero_of_onlyAddressLines {src : Str} (h : OnlyAddressLines src) {k : RuleKind}
    (hk : k.key ∉ ["ip-cidr".toList, "ip-cidr6".toList, "port".toList]) : countEntries src k = 0 := by
  rw [countEntries, List.countP_eq_zero]
  intro e he hkey
  exact hk (of_decide_eq_true hkey ▸ h e he)

/-- **Rule texts of address and port lines.** Where the sections fit `u32` lengths, the rule set
    matches an address exactly when some line contains it, and a port likewise. -/
theorem fromText_matches_iff_listed (hE : E.FstLawful) (src : Str) (c : CompiledRuleSet)
    (hsrc : CompiledRuleSet.fromText E src = .ok c) (hlines : OnlyAddressLines src)
    (h4 : 5 * countEntries src .ipCidr < 2 ^ 32) (h6 : 17 * countEntries src .ipCidr6 < 2 ^ 32)
    (hp : 4 * countEntries src .port < 2 ^ 32) :
    ∃ rs, RuleSet.fromText E src = .ok rs ∧
      (∀ ip, rs.matches (.ip ip) = true ↔ ListsIp src ip) ∧
      ∀ p, rs.matches (.port p) = true ↔ ListsPort src p := by
  have hcount := count_of_fromText hsrc
  rw [← hcount] at h4 h6 hp
  have hnames : ∀ k : RuleKind, k ≠ .ipCidr → k ≠ .ipCidr6 → k ≠ .port → c.count k = 0 := by
    intro k hk4 hk6 hkp
    refine (hcount k).trans (count_eq_zero_of_onlyAddressLines hlines ?_)
    cases k <;> first | contradiction | decide
  obtain ⟨hfits, hregexes⟩ := CompiledRuleSet.fits_of_no_names hnames h4 h6 hp
  obtain ⟨rs, hrs, hip, hport, -⟩ := ofCompiled_spec hE (accepted_of_fromText hsrc) hfits hregexes
  refine ⟨rs, by rw [RuleSet.fromText, hsrc]; exact hrs, fun ip => ?_, fun p => ?_⟩
  · rw [hip, matchesIp_iff_lists hsrc]
  · rw [hport, matchesPort_iff_lists hsrc]

theorem fromText_matches_iff_listed_private :
    OnlyAddressLines "ip-cidr: 10.1.2.3/8\nport: 80-443".toList ∧
    ∃ rs, RuleSet.fromText .plain "ip-cidr: 10.1.2.3/8\nport: 80-443".toList = .ok rs ∧
      (∀ ip, rs.matches (.ip ip) = true ↔
        ListsIp "ip-cidr: 10.1.2.3/8\nport: 80-443".toList ip) ∧
      ∀ p, rs.matches (.port p) = true ↔
        ListsPort "ip-cidr: 10.1.2.3/8\nport: 80-443".toList p :=
  ⟨by decide,
    fromText_matches_iff_listed Externals.fstLawful_plain _
      { ipv4Cidrs := [(0x0A000000#32, 8)], ports := [(80, 443)] }
      (by decide) (by decide) (by decide) (by decide)
      (by decide)⟩

/-! ### More rules than a section can count -/

/-- A text of `n` equal lines `ip-cidr: 1.2.3.4/32`. -/
def repeatedCidr (n : Nat) : Str := join ['\n'] (List.replicate n "ip-cidr: 1.2.3.4/32".toList)

theorem lines_repeatedCidr {n : Nat} (hn : n ≠ 0) :
    lines (repeatedCidr n) = List.replicate n "ip-cidr: 1.2.3.4/32".toList := by
  -- The lines are not empty and end in no carriage return, so `lines` gives them back.
  have hpieces : ∀ m, linesOfPieces (List.replicate m "ip-cidr: 1.2.3.4/32".toList)
      = List.replicate m "ip-cidr: 1.2.3.4/32".toList := by
    intro m
    induction m with
    | zero => rfl
    | succ m ih =>
      cases m with
      | zero => decide
      | succ m =>
        rw [List.replicate_succ, List.replicate_succ, linesOfPieces, ← List.replicate_succ, ih]
        · rw [show stripCr "ip-cidr: 1.2.3.4/32".toList = "ip-cidr: 1.2.3.4/32".toList by decide]
        · simp
  rw [lines, repeatedCidr, join, List.splitOn_intercalate, hpieces]
  · intro l hl
    rw [List.eq_of_mem_replicate hl]
    decide
  · simpa using hn

theorem fromText_repeatedCidr {n : Nat} (hn : n ≠ 0) :
    CompiledRuleSet.fromText E (repeatedCidr n)
      = .ok { ipv4Cidrs := List.replicate n (0x01020304#32, 32) } := by
  have hline : ∀ i, parseLine E i "ip-cidr: 1.2.3.4/32".toList
      = .ok (some (.ipCidr 0x01020304#32 32)) := by
    intro i
    have hrule : parseRule E i "ip-cidr".toList "1.2.3.4/32".toList = .ok (.ipCidr 0x01020304#32 32) :=
      (parseRule_eq_ok_iff i _ _ _).mpr (.ipCidr rfl (by decide))
    simp only [parseLine]
    rw [if_neg (by decide),
      show splitOnce ':' (trim "ip-cidr: 1.2.3.4/32".toList)
        = some ("ip-cidr".toList, " 1.2.3.4/32".toList) by decide]
    simp only [show trim "ip-cidr".toList = "ip-cidr".toList by decide,
      show trim " 1.2.3.4/32".toList = "1.2.3.4/32".toList by decide, hrule]
    rfl
  -- Every line pushes the same CIDR.
  have hgo : ∀ m i (out : CompiledRuleSet),
      fromTextGo E i (List.replicate m "ip-cidr: 1.2.3.4/32".toList) out
        = .ok { out with ipv4Cidrs := out.ipv4Cidrs ++ List.replicate m (0x01020304#32, 32) } := by
    intro m
    induction m with
    | zero => simp [fromTextGo]
    | succ m ih =>
      intro i out
      rw [List.replicate_succ, fromTextGo, hline]
      simp only [ih, CompiledRuleSet.push]
      rw [List.append_assoc, List.singleton_append, List.replicate_succ]
  rw [CompiledRuleSet.fromText, lines_repeatedCidr hn, hgo]
  rfl

/-- With a multiple of `2 ^ 32` lines both length fields of the section are written as `0`, and
    the loader returns an empty rule set. -/
theorem fromBytes_repeatedCidr {n : Nat} (hn : n ≠ 0) (hmod : n % 2 ^ 32 = 0) :
    ∃ bytes, CompiledRuleSet.serialize E { ipv4Cidrs := List.replicate n (0x01020304#32, 32) }
        = .ok bytes ∧ LoadedRuleSet.fromBytes bytes = .ok {} := by
  have hlen : (encodeIpv4Cidrs (List.replicate n (0x01020304#32, 32))).length = n * 5 := by
    rw [encodeIpv4Cidrs, length_flatMap_const 5 _ _ (by simp), List.length_replicate]
  -- The section is written, since its data is not empty.
  have hne : encodeIpv4Cidrs (List.replicate n (0x01020304#32, 32)) ≠ [] := by
    intro h
    rw [h, List.length_nil] at hlen
    omega
  have hsections : CompiledRuleSet.sections { ipv4Cidrs := List.replicate n (0x01020304#32, 32) } [] []
      = [(.ipCidrV4, encodeIpv4Cidrs (List.replicate n (0x01020304#32, 32)))] := by
    simp [CompiledRuleSet.sections, encodeStrings, encodeIpv6Cidrs, encodePorts, hne]
  refine ⟨_, serialize_eq (by simp [buildDomainFst, buildFst]; rfl)
    (by simp [buildSuffixFst, buildFst]; rfl), ?_⟩
  -- Both fields of its header are multiples of `2 ^ 32`.
  have hbytes : (encodeIpv4Cidrs (List.replicate n (0x01020304#32, 32))).length % 2 ^ 32 = 0 := by
    rw [hlen]
    omega
  have hcount : entryCountFor .ipCidrV4 (encodeIpv4Cidrs (List.replicate n (0x01020304#32, 32)))
      % 2 ^ 32 = 0 := by
    simp only [entryCountFor, ipv4EntryLen, hlen]
    omega
  rw [hsections, fromBytes_header (by simp), List.length_singleton, List.flatMap_singleton,
    readSections, ← List.append_nil (encodeSection _ _), readSection_encodeSection_mod, hbytes, hcount,
    List.take_zero]
  have hdecode : decodeIpv4Cidrs [] 0 = .ok [] := by
    rw [decodeIpv4Cidrs, decodeEntries, if_neg (by simp), chunksExact, if_pos (by simp), List.map_nil]
  simp only [bind, Except.bind, LoadedRuleSet.setSection, hdecode]
  rfl

theorem listsIp_repeatedCidr {n : Nat} (hn : n ≠ 0) :
    ListsIp (repeatedCidr n) (.v4 0x01020304#32) := by
  rw [← matchesIp_iff_lists (fromText_repeatedCidr (E := Externals.plain) hn)]
  exact ⟨(0x01020304#32, 32), List.mem_replicate.mpr ⟨hn, rfl⟩, rfl⟩

theorem not_matches_repeatedCidr {n : Nat} (hn : n ≠ 0) (hmod : n % 2 ^ 32 = 0) :
    ∃ rs, RuleSet.fromText E (repeatedCidr n) = .ok rs ∧
      rs.matches (.ip (.v4 0x01020304#32)) = false := by
  obtain ⟨bytes, hser, hload⟩ := fromBytes_repeatedCidr (E := E) hn hmod
  have hread : RuleSet.fromText E (repeatedCidr n) = RuleSet.fromLoaded E {} := by
    rw [RuleSet.fromText, fromText_repeatedCidr hn]
    simp only [RuleSet.ofCompiled, hser, hload]
  refine ⟨_, hread.trans rfl, ?_⟩
  simp [RuleSet.matches, RuleSet.matchIp, RuleSet.matchIpv4, IpRanges.contains, IpRanges.build,
    mergeRanges]

/-- **Lost lines.** A rule text of `2 ^ 32` lines `ip-cidr: 1.2.3.4/32` gives a rule set that
    does not match `1.2.3.4`. -/
theorem not_fromText_matches_many :
    (∃ c, CompiledRuleSet.fromText .plain (repeatedCidr (2 ^ 32)) = .ok c) ∧
      ListsIp (repeatedCidr (2 ^ 32)) (.v4 0x01020304#32) ∧
      ∃ rs, RuleSet.fromText .plain (repeatedCidr (2 ^ 32)) = .ok rs ∧
        rs.matches (.ip (.v4 0x01020304#32)) = false :=
  have hn : 2 ^ 32 ≠ 0 := by decide
  ⟨⟨_, fromText_repeatedCidr hn⟩, listsIp_repeatedCidr hn, not_matches_repeatedCidr hn (by decide)⟩

end Reflex.Ruleset
