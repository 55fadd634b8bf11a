import Mathlib.Data.List.Forall2
import Reflex.Router.Basic
import Reflex.Ruleset.Spelling

namespace Reflex.Routing

open RustStd Ruleset FirstMatch

/-!
# Router — the declared meaning of the rules

What a route configuration says, read off the configuration itself: a rule qualifies when its
inbound, network and protocol conditions hold and one of its target conditions matches, and the
first qualifying rule decides (`declaredAction`).  An entry and a host are compared as names, which
are the same with and without the dot of the root.

The router instead prints the target conditions as rule texts, compiles them to the binary
format and searches the result:

* `entries_addrLines`, `entries_portLines` — what the printed texts say;
* `domainEntryMatches_iff`, `suffixEntryMatches_iff`, `keywordEntryMatches_iff` — the dot of the root
  is taken off the host and not off the entry, so an entry written with it is not found;
* `matches_iff_qualifies` — a compiled rule matches exactly when the rule qualifies;
* `route_eq_declared` — the router decides as declared, within the limits of the binary format and
  for entries that are not written with the dot of the root;
* `not_route_eq_declared` — a keyword of 256 bytes is beyond the limits, and a rule for `example.com.`
  does not match `example.com.`.
-/

/-! ### The declared meaning -/

/-- A `domain` entry names the host.  Either may be written with the dot of the root. -/
def DomainEntryMatches (entry host : Str) : Prop :=
  toAsciiLowercase (trimEndMatches '.' (trim entry)) = toAsciiLowercase (trimEndMatches '.' host)

/-- The host ends in the labels of a `domain_suffix` entry, whose leading dots do not count.  Either
    may be written with the dot of the root. -/
def SuffixEntryMatches (entry host : Str) : Prop :=
  labels (toAsciiLowercase (trimEndMatches '.' (trimStartMatches '.' (trim entry))))
    <:+ labels (toAsciiLowercase (trimEndMatches '.' host))

/-- The host, as it is written, contains a `domain_keyword` entry. -/
def KeywordEntryMatches (entry host : Str) : Prop :=
  toAsciiLowercase (trim entry) <:+: toAsciiLowercase host

/-- An `ip_cidr` entry without a colon contains an IPv4 address. -/
def Cidr4EntryMatches (entry : Str) (x : Ipv4Addr) : Prop :=
  ':' ∉ entry ∧ CidrTextContains Ipv4Addr.fromStr (trim entry) x

/-- An `ip_cidr` entry with a colon contains an IPv6 address. -/
def Cidr6EntryMatches (entry : Str) (x : Ipv6Addr) : Prop :=
  ':' ∈ entry ∧ CidrTextContains Ipv6Addr.fromStr (trim entry) x

/-- An `ip_cidr` entry contains an address, or the IPv4 address embedded in it. -/
def CidrEntryMatches (entry : Str) : IpAddr → Prop
  | .v4 x => Cidr4EntryMatches entry x
  | .v6 x => (∃ v4, x.toIpv4Mapped = some v4 ∧ Cidr4EntryMatches entry v4) ∨
      Cidr6EntryMatches entry x

/-- A `port_range` entry contains a port. -/
def PortRangeEntryMatches (entry : Str) (p : UInt16) : Prop :=
  ∃ lo hi, parsePortRange (trim entry) = .ok (lo, hi) ∧ lo ≤ p ∧ p ≤ hi

namespace RouteRuleConfig

variable (rule : RouteRuleConfig)

/-- Does the rule have conditions on the target? -/
def HasTargetCondition : Prop :=
  rule.domain ≠ [] ∨ rule.domainSuffix ≠ [] ∨ rule.domainKeyword ≠ [] ∨ rule.ipCidr ≠ [] ∨
    rule.port ≠ [] ∨ rule.portRange ≠ []

/-- Some entry matches the host of the target. -/
def HostMatches : Target → Prop
  | .domain host _ => (∃ d ∈ rule.domain, DomainEntryMatches d host) ∨
      (∃ d ∈ rule.domainSuffix, SuffixEntryMatches d host) ∨
      ∃ k ∈ rule.domainKeyword, KeywordEntryMatches k host
  | .socket addr => ∃ c ∈ rule.ipCidr, CidrEntryMatches c addr.ip

/-- Some entry matches the port. -/
def PortMatches (p : UInt16) : Prop :=
  (∃ f ∈ rule.port, f.contains p = true) ∨ ∃ r ∈ rule.portRange, PortRangeEntryMatches r p

/-- **The rule qualifies**: the conditions of each kind are empty or one of them holds, where
    host and port conditions are one kind. -/
structure Qualifies (E : Externals) (inboundTag : Str) (network : Option NetworkKind)
    (target : Target) (sniffedProtocol : Option Str) : Prop where
  inbound : rule.inbound = [] ∨ inboundTag ∈ rule.inbound
  network : rule.network = none ∨ (rule.network = some .tcp ∧ network = some .tcp) ∨
    (rule.network = some .udp ∧ network = some .udp)
  protocol : rule.protocol = [] ∨ ∃ proto, sniffedProtocol = some proto ∧
    E.toLowercase proto ∈ rule.protocol.map E.toLowercase
  target : ¬ rule.HasTargetCondition ∨ rule.HostMatches target ∨ rule.PortMatches target.port

end RouteRuleConfig

open Classical in
/-- The action of the first rule that qualifies, or the `final` action. -/
noncomputable def declaredAction (E : Externals) (config : RouteConfig) (inboundTag : Str)
    (network : Option NetworkKind) (target : Target) (sniffedProtocol : Option Str) : RouteAction :=
  firstMatch (fun rule => decide (rule.Qualifies E inboundTag network target sniffedProtocol))
    ruleAction (toAction config.final) config.rules

/-! ### The limits -/

/-- An entry that is not written with the dot of the root. -/
def NoFinalDot (entry : Str) : Prop := (trim entry).getLast? ≠ some '.'

/-- No entry about the name of the target is written with the dot of the root. -/
def RouteRuleConfig.Undotted (rule : RouteRuleConfig) : Target → Prop
  | .domain _ _ => ∀ d ∈ rule.domain ++ rule.domainSuffix ++ rule.domainKeyword, NoFinalDot d
  | .socket _ => True

/-- The name that the compiler stores for a `domain_suffix` entry. -/
def suffixEntry (entry : Str) : Str := toAsciiLowercase (trimStartMatches '.' (trim entry))

/-- No condition text has a line feed. -/
def RouteRuleConfig.SingleLine (rule : RouteRuleConfig) : Prop :=
  ∀ s ∈ rule.domain ++ rule.domainSuffix ++ rule.domainKeyword ++ rule.ipCidr ++ rule.portRange,
    '\n' ∉ s

/-- The conditions of a rule are within the limits of the binary format. -/
structure RouteRuleConfig.Fits (E : Externals) (rule : RouteRuleConfig) : Prop where
  domainFst : ∀ fst, buildDomainFst E (rule.domain.map fun d => toAsciiLowercase (trim d)) = .ok fst →
    fst.length < 2 ^ 32
  domainSuffixFst : ∀ fst, buildSuffixFst E (rule.domainSuffix.map suffixEntry) = .ok fst →
    fst.length < 2 ^ 32
  keywords : ∀ k ∈ rule.domainKeyword, (utf8 (trim k)).length ≤ 255
  keywordBytes : (rule.domainKeyword.map fun k => (utf8 (trim k)).length + 1).sum < 2 ^ 32
  ipv4Bytes : 5 * (rule.ipCidr.countP fun c => ':' ∉ c) < 2 ^ 32
  ipv6Bytes : 17 * (rule.ipCidr.countP fun c => ':' ∈ c) < 2 ^ 32
  portBytes : 4 * (rule.port.length + rule.portRange.length) < 2 ^ 32

/-- The suffix search looks at up to 128 labels of the host. -/
def RouteRuleConfig.LabelsFit (rule : RouteRuleConfig) : Target → Prop
  | .domain host _ => (∀ d ∈ rule.domainSuffix, (labels (suffixEntry d)).length ≤ 127) ∨
      (labels (toAsciiLowercase (trimEndMatches '.' host))).length ≤ 128
  | .socket _ => True

/-! ### The dot of the root -/

theorem trimEndMatches_trimEndMatches (c : Char) (s : Str) :
    trimEndMatches c (trimEndMatches c s) = trimEndMatches c s := List.rdropWhile_idempotent _ s

/-- A text that does not end in a character is found in front of what is trimmed. -/
theorem infix_trimEndMatches {c : Char} {k s : Str} (hk : k.getLast? ≠ some c) (h : k <:+: s) :
    k <:+: trimEndMatches c s := by
  induction s using List.reverseRecOn with
  | nil => exact h
  | append_singleton s x ih =>
    by_cases hx : x = c
    · subst hx
      have htrim : trimEndMatches x (s ++ [x]) = trimEndMatches x s :=
        List.rdropWhile_concat_pos _ _ _ (by simp)
      rw [htrim]
      rcases List.infix_concat_iff.mp h with hsuffix | hinfix
      · -- a suffix that does not end in the last character is empty
        rcases List.eq_nil_or_concat k with rfl | ⟨k', y, rfl⟩
        · exact List.nil_infix
        · have hy : y = x := by
            obtain ⟨front, heq⟩ := hsuffix
            rw [List.concat_eq_append, ← List.append_assoc] at heq
            simpa using (List.append_inj' heq rfl).2
          simp [hy] at hk
      · exact ih hinfix
    · have htrim : trimEndMatches c (s ++ [x]) = s ++ [x] :=
        List.rdropWhile_concat_neg _ _ _ (by simpa using hx)
      rwa [htrim]

/-- What the compiled entry finds is what the entry names. -/
theorem DomainEntryMatches.of_found {d host : Str}
    (h : toAsciiLowercase (trim d) = toAsciiLowercase (trimEndMatches '.' host)) :
    DomainEntryMatches d host := by
  rw [DomainEntryMatches, ← trimEndMatches_toAsciiLowercase, h, trimEndMatches_toAsciiLowercase,
    trimEndMatches_trimEndMatches]

theorem domainEntryMatches_iff {d : Str} (hd : NoFinalDot d) (host : Str) :
    DomainEntryMatches d host ↔ toAsciiLowercase (trim d) = toAsciiLowercase (trimEndMatches '.' host) := by
  rw [DomainEntryMatches, trimEndMatches_of_getLast hd]

theorem suffixEntryMatches_of_getLast {d : Str} (hlast : (suffixEntry d).getLast? ≠ some '.') (host : Str) :
    SuffixEntryMatches d host ↔
      labels (suffixEntry d) <:+ labels (toAsciiLowercase (trimEndMatches '.' host)) := by
  rw [SuffixEntryMatches, ← trimEndMatches_toAsciiLowercase, ← suffixEntry, trimEndMatches_of_getLast hlast]

theorem suffixEntryMatches_iff {d : Str} (hd : NoFinalDot d) (host : Str) :
    SuffixEntryMatches d host ↔
      labels (suffixEntry d) <:+ labels (toAsciiLowercase (trimEndMatches '.' host)) := by
  refine suffixEntryMatches_of_getLast (fun hdot => hd ?_) host
  obtain ⟨dots, heq⟩ := List.dropWhile_suffix (l := trim d) (· == '.')
  have hlast : (trimStartMatches '.' (trim d)).getLast? = some '.' := getLast?_toAsciiLowercase.mp hdot
  rw [← heq, List.getLast?_append, ← trimStartMatches, hlast]
  rfl

/-- A name without the dot of the root has no label behind its last dot. -/
theorem getLast?_of_labels_suffix {s q : Str} (hq : q.getLast? ≠ some '.') (h : labels s <:+ labels q) :
    s.getLast? ≠ some '.' := by
  intro hdot
  obtain ⟨init, rfl⟩ := List.getLast?_eq_some_iff.mp hdot
  rw [labels_concat_dot] at h
  obtain ⟨front, heq⟩ := h
  have hne : front ++ labels init ≠ [] := List.append_ne_nil_of_right_ne_nil _ (labels_ne_nil init)
  have hjoin : q = join ['.'] (front ++ labels init) ++ ['.'] ++ [] := by
    rw [← join_append_singleton _ hne, List.append_assoc, heq]
    exact (List.intercalate_splitOn '.').symm
  refine hq ?_
  rw [hjoin, List.append_nil, List.getLast?_append]
  rfl

/-- What the compiled suffix finds ends in the labels of the entry. -/
theorem SuffixEntryMatches.of_found {d host : Str}
    (h : labels (suffixEntry d) <:+ labels (toAsciiLowercase (trimEndMatches '.' host))) :
    SuffixEntryMatches d host := by
  have hhost : (toAsciiLowercase (trimEndMatches '.' host)).getLast? ≠ some '.' := by
    intro hdot
    have hne : trimEndMatches '.' host ≠ [] := by
      intro hnil
      simp [hnil, toAsciiLowercase] at hdot
    refine List.rdropWhile_last_not (· == '.') host hne ?_
    have hlast := getLast?_toAsciiLowercase.mp hdot
    rw [List.getLast?_eq_some_getLast hne] at hlast
    exact beq_iff_eq.mpr (Option.some.inj hlast)
  exact (suffixEntryMatches_of_getLast (getLast?_of_labels_suffix hhost h) host).mpr h

theorem KeywordEntryMatches.of_found {d host : Str}
    (h : toAsciiLowercase (trim d) <:+: toAsciiLowercase (trimEndMatches '.' host)) :
    KeywordEntryMatches d host :=
  h.trans ((List.rdropWhile_prefix _ _).map Char.toLower).isInfix

theorem keywordEntryMatches_iff {d : Str} (hd : NoFinalDot d) (host : Str) :
    KeywordEntryMatches d host ↔
      toAsciiLowercase (trim d) <:+: toAsciiLowercase (trimEndMatches '.' host) := by
  refine ⟨fun h => ?_, .of_found⟩
  rw [← trimEndMatches_toAsciiLowercase]
  exact infix_trimEndMatches (mt getLast?_toAsciiLowercase.mp hd) h

/-! ### What the printed texts say -/

private theorem filterMap_map_some {α β γ : Type} {f : α → β} {g : β → Option γ} {h : α → γ}
    (l : List α) (hfg : ∀ a ∈ l, g (f a) = some (h a)) : (l.map f).filterMap g = l.map h := by
  rw [List.filterMap_map, ← List.filterMap_eq_map]
  exact List.filterMap_congr fun a ha => hfg a ha

private theorem lineEntry_domain (d : Str) :
    lineEntry ("domain: ".toList ++ d) = some ("domain".toList, trim d) :=
  lineEntry_key "domain".toList (by decide) d

private theorem lineEntry_domainSuffix (d : Str) :
    lineEntry ("domain-suffix: ".toList ++ d) = some ("domain-suffix".toList, trim d) :=
  lineEntry_key "domain-suffix".toList (by decide) d

private theorem lineEntry_domainKeyword (d : Str) :
    lineEntry ("domain-keyword: ".toList ++ d) = some ("domain-keyword".toList, trim d) :=
  lineEntry_key "domain-keyword".toList (by decide) d

private theorem lineEntry_port (p : Str) :
    lineEntry ("port: ".toList ++ p) = some ("port".toList, trim p) :=
  lineEntry_key "port".toList (by decide) p

/-- The key an `ip_cidr` entry is printed with. -/
def cidrKey (c : Str) : Str := if ':' ∈ c then "ip-cidr6".toList else "ip-cidr".toList

private theorem lineEntry_cidr (c : Str) :
    lineEntry (if ':' ∈ c then "ip-cidr6: ".toList ++ c else "ip-cidr: ".toList ++ c)
      = some (cidrKey c, trim c) := by
  unfold cidrKey
  split
  · exact lineEntry_key "ip-cidr6".toList (by decide) c
  · exact lineEntry_key "ip-cidr".toList (by decide) c

/-- The text a `PortFilter` is printed as. -/
def portText (f : PortFilter) : Str :=
  if f.lo = f.hi then display f.lo.toNat
  else display f.lo.toNat ++ "-".toList ++ display f.hi.toNat

private theorem digit_of_mem_portText {f : PortFilter} {c : Char} (h : c ∈ portText f) :
    c.isDigit = true ∨ c = '-' := by
  unfold portText at h
  split at h
  · exact .inl (isDigit_of_mem_display h)
  · rcases List.mem_append.mp h with h | h
    · rcases List.mem_append.mp h with h | h
      · exact .inl (isDigit_of_mem_display h)
      · exact .inr (by simpa using h)
    · exact .inl (isDigit_of_mem_display h)

/-- A printed port filter has neither white space nor line feeds. -/
private theorem trim_portText (f : PortFilter) : trim (portText f) = portText f := by
  refine trim_eq_self fun c hc => ?_
  rcases digit_of_mem_portText hc with h | rfl
  · exact isWhitespace_of_isDigit h
  · decide

private theorem newline_notMem_portText (f : PortFilter) : '\n' ∉ portText f := by
  intro h
  rcases digit_of_mem_portText h with h | h
  · exact absurd h (by decide)
  · exact absurd h (by decide)

/-- A printed port filter is read back, unless its ends are in the wrong order. -/
private theorem parsePortRange_portText (f : PortFilter) (p : UInt16) :
    (∃ lo hi, parsePortRange (portText f) = .ok (lo, hi) ∧ lo ≤ p ∧ p ≤ hi) ↔
      f.contains p = true := by
  -- The only dash of the text is the one between the two numbers.
  have hdash : ∀ n, '-' ∉ display n := fun n h => absurd (isDigit_of_mem_display h) (by decide)
  have htrim : ∀ n, trim (display n) = display n := fun n =>
    trim_eq_self fun c hc => isWhitespace_of_isDigit (isDigit_of_mem_display hc)
  have hcontains : f.contains p = true ↔ f.lo ≤ p ∧ p ≤ f.hi := by simp [PortFilter.contains]
  rw [hcontains]
  -- A single port is printed without a dash and read back as a range of one.
  by_cases heq : f.lo = f.hi
  · have hparse : parsePortRange (portText f) = .ok (f.lo, f.lo) := by
      rw [portText, if_pos heq, parsePortRange, splitOnce_of_notMem (hdash _)]
      simp only [htrim, parseU16_display]
    rw [hparse, ← heq]
    constructor
    · rintro ⟨lo, hi, h, hp⟩
      obtain ⟨rfl, rfl⟩ : f.lo = lo ∧ f.lo = hi := by simpa using h
      exact hp
    · exact fun hp => ⟨_, _, rfl, hp⟩
  · have htext : portText f = display f.lo.toNat ++ '-' :: display f.hi.toNat := by
      rw [portText, if_neg heq, List.append_assoc]
      rfl
    have hparse : parsePortRange (portText f)
        = if f.hi < f.lo then .error (.invalidPort (portText f)) else .ok (f.lo, f.hi) := by
      rw [parsePortRange, htext, splitOnce_append (hdash _)]
      simp only [parsePortEnds, htrim, parseU16_display]
    rw [hparse]
    by_cases hlt : f.hi < f.lo
    · -- A filter with its ends in the wrong order contains nothing, and its text is refused.
      rw [if_pos hlt]
      constructor
      · rintro ⟨lo, hi, h, -⟩
        cases h
      · rintro ⟨h1, h2⟩
        exact absurd (UInt16.le_trans h1 h2) (UInt16.not_le.mpr hlt)
    · rw [if_neg hlt]
      constructor
      · rintro ⟨lo, hi, h, hp⟩
        obtain ⟨rfl, rfl⟩ : f.lo = lo ∧ f.hi = hi := by simpa using h
        exact hp
      · exact fun hp => ⟨_, _, rfl, hp⟩

/-- The entries of the address text of a rule. -/
def addrEntries (rule : RouteRuleConfig) : List (Str × Str) :=
  rule.domain.map (fun d => ("domain".toList, trim d))
    ++ rule.domainSuffix.map (fun d => ("domain-suffix".toList, trim d))
    ++ rule.domainKeyword.map (fun d => ("domain-keyword".toList, trim d))
    ++ rule.ipCidr.map fun c => (cidrKey c, trim c)

/-- The entries of the port text of a rule. -/
def portEntries (rule : RouteRuleConfig) : List (Str × Str) :=
  rule.port.map (fun f => ("port".toList, portText f))
    ++ rule.portRange.map fun p => ("port".toList, trim p)

theorem entries_addrLines {rule : RouteRuleConfig} (h : rule.SingleLine) :
    entries (join ['\n'] (addrLines rule)) = addrEntries rule := by
  -- The keys have no line feed, so a line has one only if its condition has.
  have hlines : ∀ l ∈ addrLines rule, '\n' ∉ l := by
    intro l hl
    simp only [addrLines, List.mem_append, List.mem_map] at hl
    simp only [RouteRuleConfig.SingleLine, List.mem_append] at h
    rcases hl with ((⟨d, hd, rfl⟩ | ⟨d, hd, rfl⟩) | ⟨d, hd, rfl⟩) | ⟨c, hc, rfl⟩
    · simpa using h d (by simp [hd])
    · simpa using h d (by simp [hd])
    · simpa using h d (by simp [hd])
    · split <;> simpa using h c (by simp [hc])
  rw [entries_join hlines]
  simp only [addrLines, addrEntries, List.filterMap_append]
  rw [filterMap_map_some _ fun d _ => lineEntry_domain d,
    filterMap_map_some _ fun d _ => lineEntry_domainSuffix d,
    filterMap_map_some _ fun d _ => lineEntry_domainKeyword d,
    filterMap_map_some _ fun c _ => lineEntry_cidr c]

theorem entries_portLines {rule : RouteRuleConfig} (h : rule.SingleLine) :
    entries (join ['\n'] (portLines rule)) = portEntries rule := by
  have htext : portLines rule = rule.port.map (fun f => "port: ".toList ++ portText f)
      ++ rule.portRange.map fun p => "port: ".toList ++ p := by
    simp only [portLines]
    congr 1
    refine List.map_congr_left fun f _ => ?_
    unfold portText
    split
    · rfl
    · simp only [List.append_assoc]
  have hlines : ∀ l ∈ portLines rule, '\n' ∉ l := by
    intro l hl
    simp only [htext, List.mem_append, List.mem_map] at hl
    rcases hl with ⟨f, -, rfl⟩ | ⟨p, hp, rfl⟩
    · simpa using newline_notMem_portText f
    · simpa using h p (by simp [hp])
  rw [entries_join hlines, htext, List.filterMap_append, portEntries,
    filterMap_map_some _ fun f _ => (lineEntry_port (portText f)).trans (by rw [trim_portText]),
    filterMap_map_some _ fun p _ => lineEntry_port p]

/-! ### The compiled address conditions -/

private theorem valuesOf_append (key : Str) (es es' : List (Str × Str)) :
    valuesOf key (es ++ es') = valuesOf key es ++ valuesOf key es' := List.filterMap_append

private theorem valuesOf_map_self {α : Type} (key : Str) (f : α → Str) (l : List α) :
    valuesOf key (l.map fun a => (key, f a)) = l.map f :=
  filterMap_map_some l fun _ _ => if_pos rfl

private theorem valuesOf_map_of_ne {α : Type} {key : Str} {k f : α → Str} {l : List α}
    (h : ∀ a ∈ l, k a ≠ key) : valuesOf key (l.map fun a => (k a, f a)) = [] := by
  rw [valuesOf, List.filterMap_map, List.filterMap_eq_nil_iff]
  exact fun a ha => if_neg (h a ha)

private theorem cidrKey_ne (c : Str) {key : Str} (h4 : "ip-cidr".toList ≠ key)
    (h6 : "ip-cidr6".toList ≠ key) : cidrKey c ≠ key := by
  unfold cidrKey
  split
  · exact h6
  · exact h4

theorem cidrKey_eq_ipCidr (c : Str) : cidrKey c = "ip-cidr".toList ↔ ':' ∉ c := by
  unfold cidrKey
  split <;> simp_all

theorem cidrKey_eq_ipCidr6 (c : Str) : cidrKey c = "ip-cidr6".toList ↔ ':' ∈ c := by
  unfold cidrKey
  split <;> simp_all

private theorem countP_map_of_ne {α : Type} {key : Str} {k f : α → Str} {l : List α}
    (h : ∀ a ∈ l, k a ≠ key) :
    ((l.map fun a => (k a, f a)).countP fun e => e.1 = key) = 0 := by
  rw [List.countP_map, List.countP_eq_zero]
  intro a ha
  simpa using h a ha

private theorem countP_addrEntries (rule : RouteRuleConfig) {key : Str}
    (hd : "domain".toList ≠ key) (hs : "domain-suffix".toList ≠ key)
    (hk : "domain-keyword".toList ≠ key) :
    ((addrEntries rule).countP fun e => e.1 = key) = rule.ipCidr.countP fun c => cidrKey c = key := by
  simp only [addrEntries, List.countP_append]
  rw [countP_map_of_ne (k := fun _ => "domain".toList) fun _ _ => hd,
    countP_map_of_ne (k := fun _ => "domain-suffix".toList) fun _ _ => hs,
    countP_map_of_ne (k := fun _ => "domain-keyword".toList) fun _ _ => hk, List.countP_map]
  simp [Function.comp_def]

section Compiled

variable {E : Externals} {rule : RouteRuleConfig} {c : CompiledRuleSet}

/-- The lists that the address text of a rule is compiled to. -/
theorem lists_of_addrLines (hline : rule.SingleLine)
    (h : CompiledRuleSet.fromText E (join ['\n'] (addrLines rule)) = .ok c) :
    c.domains = (rule.domain.map fun d => toAsciiLowercase (trim d)) ∧
      c.domainSuffixes = rule.domainSuffix.map suffixEntry ∧
      c.domainKeywords = (rule.domainKeyword.map fun d => toAsciiLowercase (trim d)) ∧
      c.domainRegexes = [] := by
  have hentries := entries_addrLines hline
  refine ⟨?_, ?_, ?_, ?_⟩
  · rw [domains_of_fromText h, hentries]
    simp only [addrEntries, valuesOf_append]
    rw [valuesOf_map_self, valuesOf_map_of_ne (k := fun _ => "domain-suffix".toList) fun _ _ => by decide,
      valuesOf_map_of_ne (k := fun _ => "domain-keyword".toList) fun _ _ => by decide,
      valuesOf_map_of_ne fun c _ => cidrKey_ne c (by decide) (by decide)]
    simp
  · rw [domainSuffixes_of_fromText h, hentries]
    simp only [addrEntries, valuesOf_append]
    rw [valuesOf_map_self, valuesOf_map_of_ne (k := fun _ => "domain".toList) fun _ _ => by decide,
      valuesOf_map_of_ne (k := fun _ => "domain-keyword".toList) fun _ _ => by decide,
      valuesOf_map_of_ne fun c _ => cidrKey_ne c (by decide) (by decide)]
    simp [suffixEntry, Function.comp_def]
  · rw [domainKeywords_of_fromText h, hentries]
    simp only [addrEntries, valuesOf_append]
    rw [valuesOf_map_self, valuesOf_map_of_ne (k := fun _ => "domain".toList) fun _ _ => by decide,
      valuesOf_map_of_ne (k := fun _ => "domain-suffix".toList) fun _ _ => by decide,
      valuesOf_map_of_ne fun c _ => cidrKey_ne c (by decide) (by decide)]
    simp
  · -- A route rule has no condition that is printed as a regular expression.
    have hzero : countEntries (join ['\n'] (addrLines rule)) .domainRegex = 0 := by
      rw [countEntries, hentries]
      refine (countP_addrEntries rule (by decide) (by decide) (by decide)).trans ?_
      exact List.countP_eq_zero.mpr fun c _ h =>
        cidrKey_ne c (by decide) (by decide) (of_decide_eq_true h)
    exact List.length_eq_zero_iff.mp ((count_of_fromText h .domainRegex).trans hzero)

theorem count_addrLines (hline : rule.SingleLine)
    (h : CompiledRuleSet.fromText E (join ['\n'] (addrLines rule)) = .ok c) :
    c.ipv4Cidrs.length = (rule.ipCidr.countP fun c => ':' ∉ c) ∧
      c.ipv6Cidrs.length = (rule.ipCidr.countP fun c => ':' ∈ c) ∧ c.ports = [] := by
  -- Under a key other than those of names, the entries are the `ip_cidr` ones.
  have hcount : ∀ k : RuleKind, "domain".toList ≠ k.key → "domain-suffix".toList ≠ k.key →
      "domain-keyword".toList ≠ k.key → c.count k = rule.ipCidr.countP fun c => cidrKey c = k.key := by
    intro k hd hs hk
    rw [count_of_fromText h k, countEntries, entries_addrLines hline]
    exact countP_addrEntries rule hd hs hk
  refine ⟨?_, ?_, ?_⟩
  · refine (hcount .ipCidr (by decide) (by decide) (by decide)).trans ?_
    exact List.countP_congr fun c _ => by
      rw [decide_eq_true_eq, decide_eq_true_eq]
      exact cidrKey_eq_ipCidr c
  · refine (hcount .ipCidr6 (by decide) (by decide) (by decide)).trans ?_
    exact List.countP_congr fun c _ => by
      rw [decide_eq_true_eq, decide_eq_true_eq]
      exact cidrKey_eq_ipCidr6 c
  · refine List.length_eq_zero_iff.mp ((hcount .port (by decide) (by decide) (by decide)).trans ?_)
    exact List.countP_eq_zero.mpr fun c _ h =>
      cidrKey_ne c (by decide) (by decide) (of_decide_eq_true h)

/-- The limits on the rule are those of the format on its compiled conditions. -/
theorem RouteRuleConfig.Fits.addrLines (hfits : rule.Fits E) (hline : rule.SingleLine)
    (h : CompiledRuleSet.fromText E (join ['\n'] (addrLines rule)) = .ok c) : c.Fits E := by
  obtain ⟨hdomains, hsuffixes, hkeywords, hregexes⟩ := lists_of_addrLines hline h
  obtain ⟨h4, h6, hports⟩ := count_addrLines hline h
  exact {
    -- The lists are those of the rule, trimmed and in lower case; lowering keeps byte lengths.
    domainFst := by rw [hdomains]; exact hfits.domainFst
    domainSuffixFst := by rw [hsuffixes]; exact hfits.domainSuffixFst
    keywordBytes := by
      simpa [hkeywords, Function.comp_def] using hfits.keywordBytes
    regexBytes := by simp [hregexes]
    ipv4Bytes := by rw [h4]; exact hfits.ipv4Bytes
    ipv6Bytes := by rw [h6]; exact hfits.ipv6Bytes
    portBytes := by simp [hports]
    keywords := by
      intro k hk
      rw [hkeywords] at hk
      obtain ⟨d, hd, rfl⟩ := List.mem_map.mp hk
      rw [ShortStr, length_utf8_toAsciiLowercase]
      exact hfits.keywords d hd
    regexes := by simp [hregexes] }

/-- The address entries with another key than those of names are the `ip_cidr` ones. -/
private theorem exists_addrEntries_iff {key : Str} (hd : "domain".toList ≠ key)
    (hs : "domain-suffix".toList ≠ key) (hk : "domain-keyword".toList ≠ key) (P : Str → Prop) :
    (∃ e ∈ addrEntries rule, e.1 = key ∧ P e.2) ↔
      ∃ c ∈ rule.ipCidr, cidrKey c = key ∧ P (trim c) := by
  constructor
  · rintro ⟨e, he, hkey, hP⟩
    simp only [addrEntries, List.mem_append, List.mem_map] at he
    rcases he with ((⟨d, -, rfl⟩ | ⟨d, -, rfl⟩) | ⟨d, -, rfl⟩) | ⟨c, hc, rfl⟩
    · exact absurd hkey hd
    · exact absurd hkey hs
    · exact absurd hkey hk
    · exact ⟨c, hc, hkey, hP⟩
  · rintro ⟨c, hc, hkey, hP⟩
    exact ⟨(cidrKey c, trim c), List.mem_append_right _ (List.mem_map_of_mem hc), hkey, hP⟩

theorem listsIpv4_addrLines (hline : rule.SingleLine) (x : Ipv4Addr) :
    ListsIpv4 (join ['\n'] (addrLines rule)) x ↔ ∃ c ∈ rule.ipCidr, Cidr4EntryMatches c x := by
  rw [ListsIpv4, entries_addrLines hline,
    exists_addrEntries_iff (by decide) (by decide) (by decide) fun v =>
      CidrTextContains Ipv4Addr.fromStr v x]
  simp only [cidrKey_eq_ipCidr, Cidr4EntryMatches]

theorem listsIpv6_addrLines (hline : rule.SingleLine) (x : Ipv6Addr) :
    ListsIpv6 (join ['\n'] (addrLines rule)) x ↔ ∃ c ∈ rule.ipCidr, Cidr6EntryMatches c x := by
  rw [ListsIpv6, entries_addrLines hline,
    exists_addrEntries_iff (by decide) (by decide) (by decide) fun v =>
      CidrTextContains Ipv6Addr.fromStr v x]
  simp only [cidrKey_eq_ipCidr6, Cidr6EntryMatches]

/-- The address text lists the addresses of the `ip_cidr` entries. -/
theorem listsIp_addrLines (hline : rule.SingleLine) (ip : IpAddr) :
    ListsIp (join ['\n'] (addrLines rule)) ip ↔ ∃ c ∈ rule.ipCidr, CidrEntryMatches c ip := by
  cases ip with
  | v4 x => exact listsIpv4_addrLines hline x
  | v6 x =>
    simp only [ListsIp, CidrEntryMatches, listsIpv4_addrLines hline, listsIpv6_addrLines hline]
    constructor
    · rintro (⟨v4, hv4, c, hc, hx⟩ | ⟨c, hc, hx⟩)
      · exact ⟨c, hc, .inl ⟨v4, hv4, hx⟩⟩
      · exact ⟨c, hc, .inr hx⟩
    · rintro ⟨c, hc, ⟨v4, hv4, hx⟩ | hx⟩
      · exact .inl ⟨v4, hv4, c, hc, hx⟩
      · exact .inr ⟨c, hc, hx⟩

/-- The port text lists the ports of the `port` and `port_range` entries. -/
theorem listsPort_portLines (hline : rule.SingleLine) (p : UInt16) :
    ListsPort (join ['\n'] (portLines rule)) p ↔ rule.PortMatches p := by
  rw [ListsPort, entries_portLines hline]
  constructor
  · rintro ⟨e, he, -, lo, hi, hparse, hp⟩
    simp only [portEntries, List.mem_append, List.mem_map] at he
    rcases he with ⟨f, hf, rfl⟩ | ⟨r, hr, rfl⟩
    · exact .inl ⟨f, hf, (parsePortRange_portText f p).mp ⟨lo, hi, hparse, hp⟩⟩
    · exact .inr ⟨r, hr, lo, hi, hparse, hp⟩
  · rintro (⟨f, hf, hp⟩ | ⟨r, hr, lo, hi, hparse, hp⟩)
    · obtain ⟨lo, hi, hparse, hp⟩ := (parsePortRange_portText f p).mpr hp
      exact ⟨_, List.mem_append_left _ (List.mem_map_of_mem hf), rfl, lo, hi, hparse, hp⟩
    · exact ⟨_, List.mem_append_right _ (List.mem_map_of_mem hr), rfl, lo, hi, hparse, hp⟩

/-- The compiled names are those of the entries. -/
theorem matchesDomain_addrLines (hline : rule.SingleLine)
    (h : CompiledRuleSet.fromText E (join ['\n'] (addrLines rule)) = .ok c) {host : Str}
    {port : UInt16} (hdots : rule.Undotted (.domain host port)) :
    c.MatchesDomain host ↔ rule.HostMatches (.domain host port) := by
  obtain ⟨hdomains, hsuffixes, hkeywords, -⟩ := lists_of_addrLines hline h
  have hdot : ∀ d, d ∈ rule.domain ∨ d ∈ rule.domainSuffix ∨ d ∈ rule.domainKeyword → NoFinalDot d :=
    fun d hd => hdots d (by simpa using hd)
  simp only [CompiledRuleSet.MatchesDomain, RouteRuleConfig.HostMatches, hdomains, hsuffixes, hkeywords,
    normalizeDomain_eq, List.mem_map, exists_exists_and_eq_and]
  refine or_congr ?_ (or_congr ?_ ?_)
  · exact exists_congr fun d => and_congr_right fun hd => (domainEntryMatches_iff (hdot d (.inl hd)) host).symm
  · exact exists_congr fun d => and_congr_right fun hd =>
      (suffixEntryMatches_iff (hdot d (.inr (.inl hd))) host).symm
  · exact exists_congr fun d => and_congr_right fun hd =>
      (keywordEntryMatches_iff (hdot d (.inr (.inr hd))) host).symm

private theorem countP_map_const {α : Type} (key k : Str) (f : α → Str) (l : List α) :
    ((l.map fun a => (key, f a)).countP fun e => e.1 = k) = if key = k then l.length else 0 := by
  by_cases hk : key = k
  · rw [if_pos hk, List.countP_map]
    exact List.countP_eq_length.mpr fun _ _ => decide_eq_true hk
  · rw [if_neg hk, countP_map_of_ne (k := fun _ => key) fun _ _ => hk]

theorem count_portLines (hline : rule.SingleLine)
    (h : CompiledRuleSet.fromText E (join ['\n'] (portLines rule)) = .ok c) (k : RuleKind) :
    c.count k = if k = .port then rule.port.length + rule.portRange.length else 0 := by
  have hkey : "port".toList = k.key ↔ k = .port := by
    rw [show "port".toList = RuleKind.key .port from rfl, RuleKind.key_injective.eq_iff]
    exact eq_comm
  rw [count_of_fromText h k, countEntries, entries_portLines hline, portEntries,
    List.countP_append, countP_map_const, countP_map_const]
  by_cases hk : k = .port
  · rw [if_pos (hkey.mpr hk), if_pos (hkey.mpr hk), if_pos hk]
  · rw [if_neg (mt hkey.mp hk), if_neg (mt hkey.mp hk), if_neg hk]

theorem RouteRuleConfig.Fits.portLines (hfits : rule.Fits E) (hline : rule.SingleLine)
    (h : CompiledRuleSet.fromText E (join ['\n'] (portLines rule)) = .ok c) :
    c.Fits E ∧ c.domainRegexes = [] := by
  have hcount := count_portLines hline h
  refine CompiledRuleSet.fits_of_no_names (fun k _ _ hk => ?_) ?_ ?_ ?_
  · rw [hcount, if_neg hk]
  · rw [hcount, if_neg (by decide)]
    decide
  · rw [hcount, if_neg (by decide)]
    decide
  · rw [hcount, if_pos rfl]
    exact hfits.portBytes

/-! ### A compiled rule -/

/-- What compiling lines succeeds with: nothing for no lines, else the set of the text that they make up. -/
theorem compileLines_ok {ls : List Str} {rs : Option RuleSet} (h : compileLines E ls = .ok rs) :
    (ls = [] ∧ rs = none) ∨
      ∃ c r, ls ≠ [] ∧ rs = some r ∧ CompiledRuleSet.fromText E (join ['\n'] ls) = .ok c ∧
        RuleSet.ofCompiled E c = .ok r := by
  unfold compileLines at h
  split at h
  · rename_i hnil
    exact .inl ⟨hnil, (Except.ok.inj h).symm⟩
  · rename_i hne
    rcases hc : CompiledRuleSet.fromText E (join ['\n'] ls) with e | c
    · simp [RuleSet.fromText, hc] at h
    · rw [RuleSet.fromText, hc] at h
      rcases hr : RuleSet.ofCompiled E c with e | r
      · simp [hr] at h
      · simp only [hr] at h
        exact .inr ⟨c, r, hne, (Except.ok.inj h).symm, rfl, hr⟩

theorem addrLines_eq_nil : addrLines rule = [] ↔ rule.domain = [] ∧ rule.domainSuffix = [] ∧
    rule.domainKeyword = [] ∧ rule.ipCidr = [] := by
  simp only [addrLines, List.append_eq_nil_iff, List.map_eq_nil_iff, and_assoc]

theorem portLines_eq_nil : portLines rule = [] ↔ rule.port = [] ∧ rule.portRange = [] := by
  simp only [portLines, List.append_eq_nil_iff, List.map_eq_nil_iff]

/-- The compiled address conditions of a rule answer as declared. -/
theorem compileLines_addrLines (hE : E.FstLawful) (hline : rule.SingleLine) (hfits : rule.Fits E)
    {rs : Option RuleSet} (h : compileLines E (addrLines rule) = .ok rs) (target : Target)
    (hlabels : rule.LabelsFit target) (hdots : rule.Undotted target) :
    (rs.any (fun r => r.matches (targetToAddrMatch target)) = true ↔ rule.HostMatches target) ∧
      (rs.isSome = true ↔ addrLines rule ≠ []) := by
  rcases compileLines_ok h with ⟨hnil, rfl⟩ | ⟨c, r, hne, rfl, hc, hr⟩
  · obtain ⟨h1, h2, h3, h4⟩ := addrLines_eq_nil.mp hnil
    refine ⟨?_, by simp [hnil]⟩
    cases target <;> simp [RouteRuleConfig.HostMatches, h1, h2, h3, h4]
  · refine ⟨?_, by simp [hne]⟩
    obtain ⟨-, hsuffixes, -, hregexes⟩ := lists_of_addrLines hline hc
    obtain ⟨r', hr', hip, -, hdomain⟩ :=
      ofCompiled_spec hE (accepted_of_fromText hc) (hfits.addrLines hline hc) hregexes
    -- Compiling and loading again gives the set at hand.
    obtain rfl : r = r' := Except.ok.inj (hr.symm.trans hr')
    cases target with
    | socket addr =>
      refine (hip addr.ip).trans ((matchesIp_iff_lists hc addr.ip).trans ?_)
      exact listsIp_addrLines hline addr.ip
    | domain host port =>
      refine (hdomain host ?_).trans (matchesDomain_addrLines hline hc hdots)
      rw [hsuffixes, normalizeDomain_eq]
      simpa [RouteRuleConfig.LabelsFit] using hlabels

/-- The compiled port conditions of a rule answer as declared. -/
theorem compileLines_portLines (hE : E.FstLawful) (hline : rule.SingleLine) (hfits : rule.Fits E)
    {rs : Option RuleSet} (h : compileLines E (portLines rule) = .ok rs) (p : UInt16) :
    (rs.any (fun r => r.matches (.port p)) = true ↔ rule.PortMatches p) ∧
      (rs.isSome = true ↔ portLines rule ≠ []) := by
  rcases compileLines_ok h with ⟨hnil, rfl⟩ | ⟨c, r, hne, rfl, hc, hr⟩
  · obtain ⟨h1, h2⟩ := portLines_eq_nil.mp hnil
    exact ⟨by simp [RouteRuleConfig.PortMatches, h1, h2], by simp [hnil]⟩
  · refine ⟨?_, by simp [hne]⟩
    obtain ⟨hcfits, hregexes⟩ := hfits.portLines hline hc
    obtain ⟨r', hr', -, hport, -⟩ := ofCompiled_spec hE (accepted_of_fromText hc) hcfits hregexes
    obtain rfl : r = r' := Except.ok.inj (hr.symm.trans hr')
    exact (hport p).trans ((matchesPort_iff_lists hc p).trans (listsPort_portLines hline p))

theorem hasTargetCondition_iff :
    rule.HasTargetCondition ↔ addrLines rule ≠ [] ∨ portLines rule ≠ [] := by
  rw [Ne, addrLines_eq_nil, Ne, portLines_eq_nil]
  simp only [RouteRuleConfig.HasTargetCondition]
  tauto

theorem networkMatches_iff (filter : Option NetworkFilter) (network : Option NetworkKind) :
    networkMatches filter network = true ↔
      (filter = none ∨ (filter = some .tcp ∧ network = some .tcp) ∨
        (filter = some .udp ∧ network = some .udp)) := by
  rcases filter with _ | _ | _ <;> rcases network with _ | _ | _ <;> simp [networkMatches]

/-- The four conditions of a compiled rule. -/
theorem CompiledRule.matches_iff (cr : CompiledRule) (inboundTag : Str)
    (network : Option NetworkKind) (target : Target) (sniffedProtocol : Option Str) :
    cr.matches E inboundTag network target sniffedProtocol = true ↔
      (cr.inboundTags = [] ∨ inboundTag ∈ cr.inboundTags) ∧
      networkMatches cr.network network = true ∧
      (cr.protocols = [] ∨ ∃ proto, sniffedProtocol = some proto ∧
        E.toLowercase proto ∈ cr.protocols) ∧
      (¬ (cr.rulesets ≠ [] ∨ cr.addrRs.isSome = true ∨ cr.portRs.isSome = true) ∨
        cr.matchTarget target = true) := by
  have hproto : (sniffedProtocol.any fun proto => decide (E.toLowercase proto ∈ cr.protocols))
      = true ↔ ∃ proto, sniffedProtocol = some proto ∧ E.toLowercase proto ∈ cr.protocols := by
    rcases sniffedProtocol with _ | proto <;> simp
  rw [CompiledRule.matches]
  -- The source returns early from the first condition that fails.
  split_ifs with h1 h2 h3
  · simp only [false_iff]
    rintro ⟨h | h, -⟩
    · exact h1.1 h
    · exact h1.2 h
  · simp only [false_iff]
    rintro ⟨-, h, -⟩
    simp [h] at h2
  · simp only [false_iff]
    rintro ⟨-, -, h | h, -⟩
    · exact h3.1 h
    · simp [hproto.mpr h] at h3
  · have hin : cr.inboundTags = [] ∨ inboundTag ∈ cr.inboundTags := by tauto
    have hnet : networkMatches cr.network network = true := by simpa using h2
    have hprot : cr.protocols = [] ∨ ∃ proto, sniffedProtocol = some proto ∧
        E.toLowercase proto ∈ cr.protocols := by
      rw [← hproto]
      by_cases hnil : cr.protocols = []
      · exact .inl hnil
      · exact .inr (by simpa [hnil] using h3)
    simp only [hin, hnet, hprot, true_and]
    -- What is left is the last line: no condition on the target, or it matches.
    rcases cr.matchTarget target <;> simp [and_assoc]

/-- A rule that compiles has found its rule sets, and its inline conditions have compiled to sets of their own. -/
theorem CompiledRule.compile_ok {rulesets : Str → Option RuleSet} {cr : CompiledRule}
    (h : CompiledRule.compile E rulesets rule = .ok cr) :
    ∃ sets addrRs portRs, findRulesets rulesets rule.ruleset = .ok sets ∧
      compileLines E (addrLines rule) = .ok addrRs ∧
      compileLines E (portLines rule) = .ok portRs ∧
      cr = { inboundTags := rule.inbound, network := rule.network
             protocols := rule.protocol.map E.toLowercase, rulesets := sets, addrRs, portRs
             action := ruleAction rule, ruleDisplay := ruleDisplayOf rule } := by
  obtain ⟨sets, hsets, h⟩ := bind_eq_ok.mp h
  obtain ⟨addrRs, haddr, h⟩ := bind_eq_ok.mp h
  obtain ⟨portRs, hport, h⟩ := bind_eq_ok.mp h
  exact ⟨sets, addrRs, portRs, hsets, haddr, hport, (Except.ok.inj h).symm⟩

/-- **A compiled rule** matches exactly when the rule qualifies. -/
theorem matches_iff_qualifies (hE : E.FstLawful) (hline : rule.SingleLine) (hfits : rule.Fits E)
    (hrulesets : rule.ruleset = []) {rulesets : Str → Option RuleSet} {cr : CompiledRule}
    (h : CompiledRule.compile E rulesets rule = .ok cr) (inboundTag : Str)
    (network : Option NetworkKind) (target : Target) (sniffedProtocol : Option Str)
    (hlabels : rule.LabelsFit target) (hdots : rule.Undotted target) :
    cr.matches E inboundTag network target sniffedProtocol = true ↔
      rule.Qualifies E inboundTag network target sniffedProtocol := by
  obtain ⟨sets, addrRs, portRs, hsets, haddr, hport, rfl⟩ := CompiledRule.compile_ok h
  obtain rfl : [] = sets := by
    rw [hrulesets] at hsets
    exact Except.ok.inj hsets
  obtain ⟨hhost, haddrSome⟩ := compileLines_addrLines hE hline hfits haddr target hlabels hdots
  obtain ⟨hportMatch, hportSome⟩ := compileLines_portLines hE hline hfits hport target.port
  have hcond : (([] : List RuleSet) ≠ [] ∨ addrRs.isSome = true ∨ portRs.isSome = true) ↔
      rule.HasTargetCondition := by
    rw [hasTargetCondition_iff, haddrSome, hportSome, or_iff_right (not_not.mpr rfl)]
  have hmatch : CompiledRule.matchTarget
      { inboundTags := rule.inbound, network := rule.network
        protocols := rule.protocol.map E.toLowercase, rulesets := [], addrRs, portRs
        action := ruleAction rule, ruleDisplay := ruleDisplayOf rule } target = true ↔
      rule.HostMatches target ∨ rule.PortMatches target.port := by
    rw [← hhost, ← hportMatch]
    simp only [CompiledRule.matchTarget, List.any_nil, Bool.false_or, Bool.or_eq_true]
  rw [CompiledRule.matches_iff, networkMatches_iff, hcond, hmatch, List.map_eq_nil_iff]
  exact ⟨fun ⟨h1, h2, h3, h4⟩ => ⟨h1, h2, h3, h4⟩, fun ⟨h1, h2, h3, h4⟩ => ⟨h1, h2, h3, h4⟩⟩

/-! ### The router -/

/-- A router that was built has the compiled rules of the configuration, in their order, and its final outbound. -/
theorem Router.fromConfig_ok {load : RuleSetRef → Except Str RuleSet} {config : RouteConfig}
    {rt : Router} (h : Router.fromConfig E load config = .ok rt) :
    ∃ rulesets rules, rt = .ofRules rules config.final ∧
      List.Forall₂ (fun rule cr => CompiledRule.compile E rulesets rule = .ok cr)
        config.rules rules := by
  obtain ⟨rulesets, -, h⟩ := bind_eq_ok.mp h
  split at h
  · cases h
  · obtain ⟨rules, hrules, h⟩ := bind_eq_ok.mp h
    exact ⟨rulesets, rules, (Except.ok.inj h).symm, forall₂_of_mapM_eq_ok hrules⟩

/-- **The router decides as declared**, when the conditions have no references to rule sets, are
    single lines and within the limits of the binary format, and no name is written with the dot of
    the root. -/
theorem route_eq_declared (hE : E.FstLawful) (load : RuleSetRef → Except Str RuleSet)
    (config : RouteConfig) (rt : Router) (hrt : Router.fromConfig E load config = .ok rt)
    (hrefs : ∀ rule ∈ config.rules, rule.ruleset = [])
    (hline : ∀ rule ∈ config.rules, rule.SingleLine)
    (hfits : ∀ rule ∈ config.rules, rule.Fits E) (inboundTag : Str)
    (network : Option NetworkKind) (target : Target) (sniffedProtocol : Option Str)
    (hlabels : ∀ rule ∈ config.rules, rule.LabelsFit target)
    (hdots : ∀ rule ∈ config.rules, rule.Undotted target) :
    (rt.route E inboundTag network target sniffedProtocol).1
      = declaredAction E config inboundTag network target sniffedProtocol := by
  classical
  obtain ⟨rulesets, rules, rfl, hall⟩ := Router.fromConfig_ok hrt
  rw [Router.route_fst, declaredAction]
  symm
  -- The router searches the compiled rules, which pair up with the declared ones in order.
  have hall' := (List.forall₂_and_left _ _).mpr ⟨fun _ hrule => hrule, hall⟩
  refine firstMatch_forall₂ _ (List.Forall₂.imp ?_ hall')
  rintro rule cr ⟨hrule, hcompile⟩
  constructor
  · refine Bool.eq_iff_iff.mpr (decide_eq_true_iff.trans ?_)
    exact (matches_iff_qualifies hE (hline _ hrule) (hfits _ hrule) (hrefs _ hrule) hcompile
      inboundTag network target sniffedProtocol (hlabels _ hrule) (hdots _ hrule)).symm
  · obtain ⟨_, _, _, -, -, -, rfl⟩ := CompiledRule.compile_ok hcompile
    rfl

end Compiled

/-- A rule with an address block, a port range and a keyword. -/
def lanRule : RouteRuleConfig :=
  { ipCidr := ["10.0.0.0/8".toList], port := [⟨80, 443⟩], domainKeyword := ["lan".toList]
    outbound := "direct".toList }

private theorem lanRule_fits : lanRule.Fits .plain where
  domainFst := by
    intro fst hfst
    obtain rfl : [] = fst := by simpa [buildDomainFst, buildFst, lanRule] using hfst
    decide
  domainSuffixFst := by
    intro fst hfst
    obtain rfl : [] = fst := by simpa [buildSuffixFst, buildFst, lanRule] using hfst
    decide
  keywords := by decide
  keywordBytes := by decide
  ipv4Bytes := by decide
  ipv6Bytes := by decide
  portBytes := by decide

private theorem lanRule_singleLine : lanRule.SingleLine := by
  unfold RouteRuleConfig.SingleLine
  decide

private theorem lanRule_undotted (target : Target) : lanRule.Undotted target := by
  cases target with
  | domain host port =>
    intro d hd
    rw [List.mem_singleton.mp hd]
    unfold NoFinalDot
    decide
  | socket addr => trivial

/-- The router decides as declared on a small configuration, for a name and for an address. -/
theorem route_eq_declared_lan :
    ∃ rt, Router.fromConfig .plain (fun _ => .error [])
        { rules := [lanRule], final := "proxy".toList } = .ok rt ∧
      ∀ target ∈ [.domain "printer.lan".toList 22, .socket ⟨.v4 0x0A000001, 22⟩],
        (rt.route .plain [] none target none).1
          = declaredAction .plain { rules := [lanRule], final := "proxy".toList } [] none target none := by
  obtain ⟨rt, hrt, -⟩ := exists_eq_ok_of_any (x := Router.fromConfig .plain (fun _ => .error [])
    { rules := [lanRule], final := "proxy".toList }) (p := fun _ => true) (by decide +kernel)
  refine ⟨rt, hrt, fun target htarget => ?_⟩
  have hlabels : lanRule.LabelsFit target := by
    cases target with
    | domain host port => exact .inl fun d hd => absurd hd List.not_mem_nil
    | socket addr => trivial
  exact route_eq_declared Externals.fstLawful_plain _ _ _ hrt (List.forall_mem_singleton.mpr rfl)
    (List.forall_mem_singleton.mpr lanRule_singleLine) (List.forall_mem_singleton.mpr lanRule_fits) _ _ _ _
    (List.forall_mem_singleton.mpr hlabels) (List.forall_mem_singleton.mpr (lanRule_undotted target))

/-- With one rule, a router is built that does not decide as declared for a host. -/
def Misroutes (rule : RouteRuleConfig) (host : Str) : Prop :=
  rule.SingleLine ∧ ∃ rt, Router.fromConfig .plain (fun _ => .error [])
      { rules := [rule], final := "direct".toList } = .ok rt ∧
    (rt.route .plain [] none (.domain host 443) none).1
      ≠ declaredAction .plain { rules := [rule], final := "direct".toList } [] none (.domain host 443) none

/-- A keyword of 256 question marks. -/
def longKeyword : Str := List.replicate 256 '?'

/-- A rule with that keyword. -/
def longKeywordRule : RouteRuleConfig :=
  { domainKeyword := [longKeyword], outbound := "block".toList }

/-- A rule for a name that is written with the dot of the root. -/
def dottedRule : RouteRuleConfig :=
  { domain := ["example.com.".toList], outbound := "block".toList }

private theorem not_qualifies_longKeywordRule :
    ¬ longKeywordRule.Qualifies .plain [] none (.domain "example.com".toList 443) none := by
  rintro ⟨-, -, -, hcond | hhost | hport⟩
  · -- The rule has a target condition, its keyword.
    exact hcond (.inr (.inr (.inl (List.cons_ne_nil _ _))))
  · rcases hhost with ⟨d, hd, -⟩ | ⟨d, hd, -⟩ | ⟨k, hk, hinfix⟩
    · exact absurd hd List.not_mem_nil
    · exact absurd hd List.not_mem_nil
    · -- `example.com` is too short to contain the keyword.
      rw [List.mem_singleton.mp hk] at hinfix
      exact absurd hinfix.length_le (by decide +kernel)
  · rcases hport with ⟨f, hf, -⟩ | ⟨r, hr, -⟩
    · exact absurd hf List.not_mem_nil
    · exact absurd hr List.not_mem_nil

private theorem qualifies_dottedRule :
    dottedRule.Qualifies .plain [] none (.domain "example.com.".toList 443) none where
  inbound := .inl rfl
  network := .inl rfl
  protocol := .inl rfl
  target := .inr (.inl (.inl ⟨_, List.mem_singleton_self _, by unfold DomainEntryMatches; decide⟩))

/-- A router that decides otherwise than the rule says. -/
private theorem misroutes_of_route {rule : RouteRuleConfig} {host : Str} (declared : RouteAction)
    (hline : rule.SingleLine)
    (hdeclared : declaredAction .plain { rules := [rule], final := "direct".toList } [] none
      (.domain host 443) none = declared)
    (hroute : (Router.fromConfig .plain (fun _ => .error [])
      { rules := [rule], final := "direct".toList }).toOption.any (fun rt =>
        decide ((rt.route .plain [] none (.domain host 443) none).1 ≠ declared)) = true) :
    Misroutes rule host := by
  obtain ⟨rt, hrt, hne⟩ := exists_eq_ok_of_any hroute
  exact ⟨hline, rt, hrt, hdeclared ▸ of_decide_eq_true hne⟩

/-- **Two slips.** A long keyword is written with length `0`, is read back as an empty keyword among
    others, and so matches every domain: `example.com` is blocked by a rule that does not mention it.
    And the rule for `example.com.` does not block `example.com.`, as only the host loses its dot. -/
theorem not_route_eq_declared :
    Misroutes longKeywordRule "example.com".toList ∧ Misroutes dottedRule "example.com.".toList := by
  constructor
  · refine misroutes_of_route (.outbound "direct".toList) ?_ ?_ (by decide +kernel)
    · unfold RouteRuleConfig.SingleLine
      decide
    · classical
      rw [declaredAction, firstMatch_cons, if_neg fun h => not_qualifies_longKeywordRule
        (of_decide_eq_true h)]
      rfl
  · refine misroutes_of_route (.outbound "block".toList) ?_ ?_ (by decide +kernel)
    · unfold RouteRuleConfig.SingleLine
      decide
    · classical
      rw [declaredAction, firstMatch_cons, if_pos (decide_eq_true qualifies_dottedRule)]
      rfl

end Reflex.Routing
