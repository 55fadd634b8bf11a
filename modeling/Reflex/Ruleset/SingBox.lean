import Reflex.Router.Declared

namespace Reflex.Ruleset

open RustStd Routing

/-!
# Rule sets — the meaning of a sing-box source rule set

A source rule set is a list of rules, and a rule is a tree: a default rule has conditions on the
address and on the port of a target, a logical rule joins its sub-rules by `and` or `or`, and
`invert` negates either (`SourceRule.Matches`).  A rule may have fields about other things, the
process or the network for instance; it is then not given a meaning here (`SourceRule.ofValue`).

The compiler reads neither `mode` nor `invert`, skips the fields it does not know, and pours the
conditions of the whole tree into one union of lists:

* `matchesTarget_iff_covers` — a compiled rule set matches what one of its rules covers;
* `stores_ingestSingboxRule` — one source rule adds the conditions of all its parts;
* `SourceCondition.Found.holds`, `SourceCondition.found_iff` — what a stored condition finds, it holds
  for, and the other way round if no name is written with the dot of the root;
* `fromSingboxJson_matches` — so the compiled rule set matches only where some condition of some part
  holds, and for rules without negation and without conjunction only what the source matches;
* `fromSingboxJson_overmatches` — the three ways in which it matches more.
-/

/-! ### What a rule set covers -/

/-- A pattern matches a text: the set of this one pattern does. -/
def Externals.RegexMatches (E : Externals) (re text : Str) : Prop :=
  ∃ isMatch, E.regexSetNew [re] = .ok isMatch ∧ isMatch text = true

/-- The `regex` crate: a set of patterns matches a text if one of its patterns does. -/
def Externals.RegexLawful (E : Externals) : Prop :=
  ∀ res isMatch, E.regexSetNew res = .ok isMatch →
    ∀ text, isMatch text = true ↔ ∃ re ∈ res, E.RegexMatches re text

theorem Externals.regexLawful_plain : Externals.plain.RegexLawful := by
  intro res isMatch hset text
  simp only [Externals.plain] at hset
  split at hset
  · rename_i hall
    obtain rfl := Except.ok.inj hset
    simp only [List.any_eq_true, decide_eq_true_eq]
    -- every pattern of a set that was built makes up a set of its own
    refine exists_congr fun re => and_congr_right fun hre => ?_
    have hone : Externals.plain.regexSetNew [re]
        = .ok fun s => [re].any fun re => decide (re <:+: s) :=
      if_pos (by simpa using List.all_eq_true.mp hall re hre)
    simp [Externals.RegexMatches, hone]
  · cases hset

/-- What `match_target` asks of a rule set: the address and the port of the target, each for
    itself. -/
def RuleSet.matchesTarget (rs : RuleSet) (t : Target) : Bool :=
  rs.matches (targetToAddrMatch t) || rs.matches (.port t.port)

/-- The targets a stored rule stands for. -/
def RuleLine.Covers (E : Externals) : RuleLine → Target → Prop
  | .domain d, .domain host _ => normalizeDomain host = d
  | .domainSuffix s, .domain host _ => labels s <:+ labels (normalizeDomain host)
  | .domainKeyword k, .domain host _ => k <:+: normalizeDomain host
  | .domainRegex re, .domain host _ => E.RegexMatches re (normalizeDomain host)
  | .ipCidr a p, .socket ⟨.v4 x, _⟩ => CidrContains a p x
  | .ipCidr a p, .socket ⟨.v6 x, _⟩ => ∃ v4, x.toIpv4Mapped = some v4 ∧ CidrContains a p v4
  | .ipCidr6 a p, .socket ⟨.v6 x, _⟩ => CidrContains a p x
  | .port lo hi, t => lo ≤ t.port ∧ t.port ≤ hi
  | _, _ => False

/-- Some rule of the lists covers the target. -/
def CompiledRuleSet.Covers (E : Externals) (c : CompiledRuleSet) (t : Target) : Prop :=
  ∃ q, c.Holds q ∧ q.Covers E t

section Covers

variable {E : Externals} {c : CompiledRuleSet}

@[simp] theorem CompiledRuleSet.not_covers_empty (t : Target) : ¬ ({} : CompiledRuleSet).Covers E t := by
  simp [Covers]

theorem CompiledRuleSet.covers_foldl_push (rules : List RuleLine) (c : CompiledRuleSet) (t : Target) :
    (rules.foldl push c).Covers E t ↔ c.Covers E t ∨ ∃ q ∈ rules, q.Covers E t := by
  simp only [Covers, holds_foldl_push, or_and_right, exists_or]

/-- The rules of the lists, kind by kind. -/
theorem RuleLine.exists_holds_iff {P : RuleLine → Prop} : (∃ q, c.Holds q ∧ P q) ↔
    (∃ d ∈ c.domains, P (.domain d)) ∨ (∃ s ∈ c.domainSuffixes, P (.domainSuffix s)) ∨
      (∃ k ∈ c.domainKeywords, P (.domainKeyword k)) ∨ (∃ re ∈ c.domainRegexes, P (.domainRegex re)) ∨
      (∃ e ∈ c.ipv4Cidrs, P (.ipCidr e.1 e.2)) ∨ (∃ e ∈ c.ipv6Cidrs, P (.ipCidr6 e.1 e.2)) ∨
      ∃ r ∈ c.ports, P (.port r.1 r.2) := by
  constructor
  · rintro ⟨q, hq, hP⟩
    rcases q with d | s | k | re | ⟨a, p⟩ | ⟨a, p⟩ | ⟨lo, hi⟩
    · exact .inl ⟨d, hq, hP⟩
    · exact .inr (.inl ⟨s, hq, hP⟩)
    · exact .inr (.inr (.inl ⟨k, hq, hP⟩))
    · exact .inr (.inr (.inr (.inl ⟨re, hq, hP⟩)))
    · exact .inr (.inr (.inr (.inr (.inl ⟨(a, p), hq, hP⟩))))
    · exact .inr (.inr (.inr (.inr (.inr (.inl ⟨(a, p), hq, hP⟩)))))
    · exact .inr (.inr (.inr (.inr (.inr (.inr ⟨(lo, hi), hq, hP⟩)))))
  · rintro (⟨d, hd, hP⟩ | ⟨s, hs, hP⟩ | ⟨k, hk, hP⟩ | ⟨re, hre, hP⟩ | ⟨e, he, hP⟩ | ⟨e, he, hP⟩ |
      ⟨r, hr, hP⟩)
    · exact ⟨.domain d, hd, hP⟩
    · exact ⟨.domainSuffix s, hs, hP⟩
    · exact ⟨.domainKeyword k, hk, hP⟩
    · exact ⟨.domainRegex re, hre, hP⟩
    · exact ⟨.ipCidr e.1 e.2, he, hP⟩
    · exact ⟨.ipCidr6 e.1 e.2, he, hP⟩
    · exact ⟨.port r.1 r.2, hr, hP⟩

/-- The set of regular expressions that is built matches a text exactly if one of the expressions does. -/
theorem exists_isMatch_iff (hregex : E.RegexLawful) {l : LoadedRuleSet} {regexes : Option (Str → Bool)}
    (h : buildRegexes E l = .ok regexes) (text : Str) :
    (∃ isMatch ∈ regexes, isMatch text = true) ↔ ∃ re ∈ l.domainRegexes, E.RegexMatches re text := by
  unfold buildRegexes at h
  split at h
  · rename_i hnil
    obtain rfl := Except.ok.inj h
    simp [hnil]
  · split at h
    · rename_i isMatch hset
      obtain rfl := Except.ok.inj h
      simp [hregex _ _ hset text]
    · cases h

/-- **A compiled rule set** matches the targets that one of its rules covers, for hosts of at most
    128 labels. -/
theorem matchesTarget_iff_covers (hE : E.FstLawful) (hregex : E.RegexLawful) (hc : c.Accepted)
    (hfits : c.Fits E) {rs : RuleSet} (hrs : RuleSet.ofCompiled E c = .ok rs) (t : Target)
    (ht : ∀ host port, t = .domain host port → (labels (normalizeDomain host)).length ≤ 128) :
    rs.matchesTarget t = true ↔ c.Covers E t := by
  obtain ⟨build, heq, hmatches⟩ := ofCompiled_eq hE hc hfits
  rw [hrs] at heq
  rcases hregexes : buildRegexes E { domainRegexes := c.domainRegexes } with e | regexes
  · simp [hregexes, Except.map] at heq
  · rw [hregexes] at heq
    obtain rfl : rs = build regexes := Except.ok.inj heq
    obtain ⟨hip, hport, hdomain⟩ := hmatches regexes
    rw [RuleSet.matchesTarget, Bool.or_eq_true, hport, CompiledRuleSet.Covers,
      RuleLine.exists_holds_iff]
    rcases t with ⟨host, port⟩ | ⟨x | x, port⟩
    · rw [targetToAddrMatch, hdomain host (.inr (ht host port rfl)),
        exists_isMatch_iff hregex hregexes]
      simp [RuleLine.Covers, CompiledRuleSet.MatchesDomain, CompiledRuleSet.MatchesPort, or_assoc]
    · rw [targetToAddrMatch, hip]
      simp [RuleLine.Covers, CompiledRuleSet.MatchesIp, CompiledRuleSet.MatchesPort]
    · rw [targetToAddrMatch, hip]
      rcases hx : x.toIpv4Mapped with _ | v4
      · simp [RuleLine.Covers, CompiledRuleSet.MatchesIp, CompiledRuleSet.MatchesPort, hx]
      · simp [RuleLine.Covers, CompiledRuleSet.MatchesIp, CompiledRuleSet.MatchesPort, hx, or_assoc]

end Covers

/-! ### Conditions -/

/-- One condition of a source rule, with its value as it stands in the JSON text. -/
inductive SourceCondition where
  | domain (d : Str)
  | domainSuffix (s : Str)
  | domainKeyword (k : Str)
  | domainRegex (re : Str)
  | ipCidr (cidr : Str)
  | port (p : UInt16)
  | portRange (r : Str)

namespace SourceCondition

/-- A condition on the address of a target, and not on its port. -/
def isAddress : SourceCondition → Bool
  | .port _ | .portRange _ => false
  | _ => true

/-- **The meaning** of a condition. -/
def Holds (E : Externals) : SourceCondition → Target → Prop
  | .domain d, .domain host _ => DomainEntryMatches d host
  | .domainSuffix s, .domain host _ => SuffixEntryMatches s host
  | .domainKeyword k, .domain host _ => KeywordEntryMatches k host
  | .domainRegex re, .domain host _ => E.RegexMatches re (toAsciiLowercase (trimEndMatches '.' host))
  | .ipCidr cidr, .socket addr => CidrEntryMatches cidr addr.ip
  | .port p, t => p = t.port
  | .portRange r, t => ∃ lo hi, parseSingboxPortRange r = .ok (lo, hi) ∧ lo ≤ t.port ∧ t.port ≤ hi
  | _, _ => False

/-- What is found with the condition once it is stored: the dot of the root is taken off the host, and
    not off the name in the condition. -/
def Found (E : Externals) : SourceCondition → Target → Prop
  | .domain d, .domain host _ => toAsciiLowercase (trim d) = toAsciiLowercase (trimEndMatches '.' host)
  | .domainSuffix s, .domain host _ =>
      labels (suffixEntry s) <:+ labels (toAsciiLowercase (trimEndMatches '.' host))
  | .domainKeyword k, .domain host _ =>
      toAsciiLowercase (trim k) <:+: toAsciiLowercase (trimEndMatches '.' host)
  | cond, t => cond.Holds E t

/-- The condition is not about a name that is written with the dot of the root. -/
def Undotted : SourceCondition → Prop
  | .domain d | .domainSuffix d | .domainKeyword d => NoFinalDot d
  | _ => True

/-- A condition finds only targets for which it holds. -/
theorem Found.holds {E : Externals} {cond : SourceCondition} {t : Target} (h : cond.Found E t) :
    cond.Holds E t := by
  rcases cond with d | s | k | re | cidr | p | r
  · cases t with
    | domain host port => exact DomainEntryMatches.of_found h
    | socket addr => exact h
  · cases t with
    | domain host port => exact SuffixEntryMatches.of_found h
    | socket addr => exact h
  · cases t with
    | domain host port => exact KeywordEntryMatches.of_found h
    | socket addr => exact h
  · exact h
  · exact h
  · exact h
  · exact h

theorem found_iff {E : Externals} {cond : SourceCondition} (hdot : cond.Undotted) (t : Target) :
    cond.Found E t ↔ cond.Holds E t := by
  rcases cond with d | s | k | re | cidr | p | r
  · cases t with
    | domain host port => exact (domainEntryMatches_iff hdot host).symm
    | socket addr => exact Iff.rfl
  · cases t with
    | domain host port => exact (suffixEntryMatches_iff hdot host).symm
    | socket addr => exact Iff.rfl
  · cases t with
    | domain host port => exact (keywordEntryMatches_iff hdot host).symm
    | socket addr => exact Iff.rfl
  · exact Iff.rfl
  · exact Iff.rfl
  · exact Iff.rfl
  · exact Iff.rfl

/-- The rule a condition is stored as. -/
def toLine (E : Externals) : SourceCondition → Except RuleSetError RuleLine
  | .domain d => do
      validateDomainLen (toAsciiLowercase (trim d)) 0
      return .domain (toAsciiLowercase (trim d))
  | .domainSuffix s => do
      validateDomainLen (suffixEntry s) 0
      return .domainSuffix (suffixEntry s)
  | .domainKeyword k => return .domainKeyword (toAsciiLowercase (trim k))
  | .domainRegex re =>
      match E.regexNew re with
      | .ok _ => .ok (.domainRegex re)
      | .error e => .error (.invalidRegex re e)
  | .ipCidr cidr =>
      if ':' ∈ trim cidr then do
        let (addr, pre) ← parseIpv6Cidr (trim cidr)
        return .ipCidr6 addr pre
      else do
        let (addr, pre) ← parseIpv4Cidr (trim cidr)
        return .ipCidr addr pre
  | .port p => return .port p p
  | .portRange r => do
      let (lo, hi) ← parseSingboxPortRange r
      return .port lo hi

end SourceCondition

/-- The conditions of a rule, without those of its sub-rules. -/
def SingBoxRule.conditions (rule : SingBoxRule) : List SourceCondition :=
  rule.domain.map .domain ++ rule.domainSuffix.map .domainSuffix
    ++ rule.domainKeyword.map .domainKeyword ++ rule.domainRegex.map .domainRegex
    ++ rule.ipCidr.map .ipCidr ++ rule.port.map .port ++ rule.portRange.map .portRange

/-- The rules a source rule is stored as are those of its conditions, in order. -/
theorem ruleLines_eq (E : Externals) (rule : SingBoxRule) :
    rule.ruleLines E = rule.conditions.mapM (SourceCondition.toLine E) := by
  simp only [SingBoxRule.ruleLines, SingBoxRule.conditions, List.mapM_append, List.mapM_map,
    Function.comp_def, SourceCondition.toLine, List.mapM_pure, bind_assoc, pure_bind]
  rfl

/-! ### Source rules -/

/-- The fields of a JSON object. -/
def JsonValue.fields? : JsonValue → Option (List (Str × JsonValue))
  | .object fields => some fields
  | _ => none

/-- How a logical rule joins its sub-rules. -/
inductive LogicalMode where
  | and | or
  deriving DecidableEq, Repr

/-- A rule of a source rule set. -/
inductive SourceRule where
  | default (conditions : List SourceCondition) (invert : Bool)
  | logical (mode : LogicalMode) (rules : List SourceRule) (invert : Bool)

namespace SourceRule

/-- `type` and `mode`: a default rule, or a logical one with its mode. -/
def kindOf (fields : List (Str × JsonValue)) : Option (Option LogicalMode) :=
  match fields.lookup "type".toList with
  | none => some none
  | some (.string type) =>
      if type = "default".toList then some none
      else if type = "logical".toList then
        match fields.lookup "mode".toList with
        | some (.string mode) =>
            if mode = "and".toList then some (some .and)
            else if mode = "or".toList then some (some .or)
            else none
        | _ => none
      else none
  | some _ => none

/-- `invert`: not, if it is missing. -/
def invertOf (fields : List (Str × JsonValue)) : Option Bool :=
  match fields.lookup "invert".toList with
  | none => some false
  | some (.bool invert) => some invert
  | some _ => none

/-- The fields that are given a meaning here. -/
def sourceFieldNames : List Str :=
  "type".toList :: "mode".toList :: "invert".toList :: singBoxFieldNames

/-- The fields are all of those that the format of source rules has here. -/
def knownOf (fields : List (Str × JsonValue)) : Option Unit :=
  if fields.all fun f => f.1 ∈ sourceFieldNames then some () else none

/-- The rule a JSON object stands for: a default rule has no sub-rules, a logical rule no conditions
    of its own, and neither has other fields, such as `network` or `process_name`, which would be
    further conditions. -/
def ofValue (v : JsonValue) : Option SourceRule :=
  match _h : SingBoxRule.fromValue v with
  | none => none
  | some rule => do
      let fields ← v.fields?
      let _ ← knownOf fields
      let kind ← kindOf fields
      let invert ← invertOf fields
      match kind with
      | none => if rule.subRules.isEmpty then some (.default rule.conditions invert) else none
      | some mode =>
          if rule.conditions.isEmpty then
            (rule.subRules.attach.mapM fun sub => ofValue sub.1).map fun rules => .logical mode rules invert
          else none
termination_by sizeOf v
decreasing_by exact SingBoxRule.sizeOf_subRules_lt ‹_› sub.2

/-- A proposition, or its negation. -/
def negated (invert : Bool) (p : Prop) : Prop :=
  match invert with
  | true => ¬ p
  | false => p

/-- There are conditions of this kind, on the address or on the port, and none of them holds. -/
def Fails (E : Externals) (conditions : List SourceCondition) (t : Target) (address : Bool) : Prop :=
  (∃ c ∈ conditions, c.isAddress = address) ∧ ∀ c ∈ conditions, c.isAddress = address → ¬ c.Holds E t

/-- **The meaning** of a source rule. -/
def Matches (E : Externals) (t : Target) : SourceRule → Prop
  | .default conditions invert =>
      negated invert (¬ Fails E conditions t true ∧ ¬ Fails E conditions t false)
  | .logical .and rules invert => negated invert (∀ r, (_h : r ∈ rules) → r.Matches E t)
  | .logical .or rules invert => negated invert (∃ r, ∃ _h : r ∈ rules, r.Matches E t)
termination_by r => sizeOf r
decreasing_by
  all_goals
    have := List.sizeOf_lt_of_mem _h
    simp only [SourceRule.logical.sizeOf_spec]
    omega

/-- A rule without negation and without conjunction: neither of sub-rules, nor of conditions on the
    address with conditions on the port. -/
inductive Plain : SourceRule → Prop
  | default {conditions : List SourceCondition}
      (h : ∀ c ∈ conditions, ∀ c' ∈ conditions, c.isAddress = c'.isAddress) :
      Plain (.default conditions false)
  | logical {mode : LogicalMode} {rules : List SourceRule} (hmode : mode = .or ∨ rules.length ≤ 1)
      (hrules : ∀ r ∈ rules, Plain r) : Plain (.logical mode rules false)

end SourceRule

/-- Some rule of the source matches the target. -/
def SourceMatches (E : Externals) (rules : List JsonValue) (t : Target) : Prop :=
  ∃ v ∈ rules, ∃ r, SourceRule.ofValue v = some r ∧ r.Matches E t

/-! ### What the compiler makes of a source rule -/

/-- A part of a source rule: the rule, or a part of one of its sub-rules. -/
inductive IsPart : SingBoxRule → JsonValue → Prop
  | here {v : JsonValue} {rule : SingBoxRule} (h : SingBoxRule.fromValue v = some rule) : IsPart rule v
  | sub {v sub : JsonValue} {rule part : SingBoxRule} (h : SingBoxRule.fromValue v = some rule)
      (hsub : sub ∈ rule.subRules) (hpart : IsPart part sub) : IsPart part v

/-- What the compiler checks of a rule before it stores it. -/
def RuleLine.Accepted : RuleLine → Prop
  | .domain d => ShortStr d
  | .domainSuffix d => ShortStr d
  | .ipCidr _ p => p.toNat ≤ 32
  | .ipCidr6 _ p => p.toNat ≤ 128
  | _ => True

theorem CompiledRuleSet.accepted_of_holds {c : CompiledRuleSet} (h : ∀ q, c.Holds q → q.Accepted) :
    c.Accepted where
  domains d hd := h (.domain d) hd
  domainSuffixes d hd := h (.domainSuffix d) hd
  ipv4Prefixes e he := h (.ipCidr e.1 e.2) he
  ipv6Prefixes e he := h (.ipCidr6 e.1 e.2) he

section Compiled

variable {E : Externals}

/-- **One condition** is stored as an accepted rule that covers the targets that it finds. -/
theorem toLine_ok {cond : SourceCondition} {q : RuleLine} (h : cond.toLine E = .ok q) :
    q.Accepted ∧ ∀ t, q.Covers E t ↔ cond.Found E t := by
  rcases cond with d | s | k | re | cidr | p | r
  · -- a name: the length that was checked is the limit of the line
    obtain ⟨_, hlen, h⟩ := bind_eq_ok.mp h
    obtain rfl := Except.ok.inj h
    refine ⟨(validateDomainLen_eq _ _).mp hlen, fun t => ?_⟩
    rcases t with ⟨host, port⟩ | addr
    · simp only [RuleLine.Covers, SourceCondition.Found, normalizeDomain_eq, eq_comm]
    · rfl
  · -- a suffix, in the same way
    obtain ⟨_, hlen, h⟩ := bind_eq_ok.mp h
    obtain rfl := Except.ok.inj h
    refine ⟨(validateDomainLen_eq _ _).mp hlen, fun t => ?_⟩
    rcases t with ⟨host, port⟩ | addr
    · simp only [RuleLine.Covers, SourceCondition.Found, normalizeDomain_eq]
    · rfl
  · obtain rfl := Except.ok.inj h
    refine ⟨trivial, fun t => ?_⟩
    rcases t with ⟨host, port⟩ | addr
    · simp only [RuleLine.Covers, SourceCondition.Found, normalizeDomain_eq]
    · rfl
  · -- a regular expression is accepted if it compiles
    simp only [SourceCondition.toLine] at h
    split at h
    · obtain rfl := Except.ok.inj h
      refine ⟨trivial, fun t => ?_⟩
      rcases t with ⟨host, port⟩ | addr
      · simp only [RuleLine.Covers, SourceCondition.Found, SourceCondition.Holds, normalizeDomain_eq]
      · rfl
    · cases h
  · -- the colon that tells the families apart is no white space
    have hcolon : ':' ∈ trim cidr ↔ ':' ∈ cidr := mem_trim_iff (by decide)
    simp only [SourceCondition.toLine, hcolon] at h
    split at h
    · -- with a colon it is a network of IPv6
      rename_i hmem
      obtain ⟨⟨a, p⟩, hparse, h⟩ := bind_eq_ok.mp h
      obtain rfl := Except.ok.inj h
      obtain ⟨_, _, _, _, _, _, hle, _⟩ := parseCidr_ok.mp hparse
      refine ⟨hle, fun t => ?_⟩
      rcases t with ⟨host, port⟩ | ⟨x | x, port⟩
      · rfl
      · simp [RuleLine.Covers, SourceCondition.Found, SourceCondition.Holds, CidrEntryMatches, Cidr4EntryMatches, hmem]
      · simp [RuleLine.Covers, SourceCondition.Found, SourceCondition.Holds, CidrEntryMatches, Cidr4EntryMatches,
          Cidr6EntryMatches, hmem, cidrTextContains_iff (fun _ _ => rfl) hparse]
    · -- and without one of IPv4
      rename_i hmem
      obtain ⟨⟨a, p⟩, hparse, h⟩ := bind_eq_ok.mp h
      obtain rfl := Except.ok.inj h
      obtain ⟨_, _, _, _, _, _, hle, _⟩ := parseCidr_ok.mp hparse
      refine ⟨hle, fun t => ?_⟩
      rcases t with ⟨host, port⟩ | ⟨x | x, port⟩
      · rfl
      · simp [RuleLine.Covers, SourceCondition.Found, SourceCondition.Holds, CidrEntryMatches, Cidr4EntryMatches, hmem,
          cidrTextContains_iff (fun _ _ => rfl) hparse]
      · simp [RuleLine.Covers, SourceCondition.Found, SourceCondition.Holds, CidrEntryMatches, Cidr4EntryMatches,
          Cidr6EntryMatches, hmem, cidrTextContains_iff (fun _ _ => rfl) hparse]
  · obtain rfl := Except.ok.inj h
    refine ⟨trivial, fun t => ?_⟩
    -- one port is the range from it to itself
    refine ⟨fun hp => UInt16.le_antisymm hp.1 hp.2, fun hp => ?_⟩
    obtain rfl : p = t.port := hp
    exact ⟨UInt16.le_refl _, UInt16.le_refl _⟩
  · obtain ⟨⟨lo, hi⟩, hparse, h⟩ := bind_eq_ok.mp h
    obtain rfl := Except.ok.inj h
    refine ⟨trivial, fun t => ?_⟩
    simp [RuleLine.Covers, SourceCondition.Found, SourceCondition.Holds, hparse]

/-- Accepted rules were appended, and they cover the targets in `P`. -/
def Stores (E : Externals) (out out' : CompiledRuleSet) (P : Target → Prop) : Prop :=
  ∃ lines : List RuleLine, out' = lines.foldl CompiledRuleSet.push out ∧ (∀ q ∈ lines, q.Accepted) ∧
    ∀ t, (∃ q ∈ lines, q.Covers E t) ↔ P t

theorem Stores.trans {out mid out' : CompiledRuleSet} {P Q : Target → Prop} (h : Stores E out mid P)
    (h' : Stores E mid out' Q) : Stores E out out' fun t => P t ∨ Q t := by
  obtain ⟨lines, rfl, haccepted, hcovers⟩ := h
  obtain ⟨lines', rfl, haccepted', hcovers'⟩ := h'
  refine ⟨lines ++ lines', List.foldl_append.symm, fun q hq => ?_, fun t => ?_⟩
  · exact (List.mem_append.mp hq).elim (haccepted q) (haccepted' q)
  · simp only [List.mem_append, or_and_right, exists_or, hcovers, hcovers']

/-- A loop appends what its rounds append. -/
theorem Stores.foldlM {α : Type} {f : CompiledRuleSet → α → Except RuleSetError CompiledRuleSet}
    {P : α → Target → Prop} {l : List α}
    (hf : ∀ a ∈ l, ∀ out out', f out a = .ok out' → Stores E out out' (P a)) {out out' : CompiledRuleSet}
    (h : l.foldlM f out = .ok out') : Stores E out out' fun t => ∃ a ∈ l, P a t := by
  induction l generalizing out with
  | nil =>
    obtain rfl : out = out' := Except.ok.inj h
    exact ⟨[], rfl, by simp, by simp⟩
  | cons a l ih =>
    rw [List.foldlM_cons] at h
    obtain ⟨mid, hmid, hl⟩ := bind_eq_ok.mp h
    have hrest := ih (fun a' ha' => hf a' (List.mem_cons_of_mem _ ha')) hl
    simpa using (hf a List.mem_cons_self out mid hmid).trans hrest

/-- The lines that one rule is turned into store exactly its conditions, beside what was there before. -/
theorem stores_conditions {rule : SingBoxRule} {lines : List RuleLine} (h : rule.ruleLines E = .ok lines)
    (out : CompiledRuleSet) :
    Stores E out (lines.foldl CompiledRuleSet.push out) fun t => ∃ c ∈ rule.conditions, c.Found E t := by
  rw [ruleLines_eq] at h
  have hall := forall₂_of_mapM_eq_ok h
  clear h
  generalize rule.conditions = conditions at hall ⊢
  refine ⟨lines, rfl, ?_, fun t => ?_⟩
  · induction hall with
    | nil => simp
    | cons hq _ ih => simpa using ⟨(toLine_ok hq).1, ih⟩
  · induction hall with
    | nil => simp
    | cons hq _ ih => simp only [List.mem_cons, exists_eq_or_imp, (toLine_ok hq).2, ih]

theorem ingestSingboxRule_eq {v : JsonValue} {rule : SingBoxRule} (h : SingBoxRule.fromValue v = some rule)
    (what : Str) (out : CompiledRuleSet) :
    ingestSingboxRule E what v out = (do
      let out ← rule.subRules.foldlM
        (fun out sub => ingestSingboxRule E "sing-box sub-rule 解析失败: ".toList sub out) out
      let lines ← rule.ruleLines E
      return lines.foldl CompiledRuleSet.push out) := by
  rw [ingestSingboxRule]
  split
  · simp_all
  · rename_i rule' h'
    obtain rfl : rule = rule' := Option.some.inj (h.symm.trans h')
    simp

/-- **One source rule** is stored as accepted rules that cover the targets that some condition
    of one of its parts finds. -/
theorem stores_ingestSingboxRule {what : Str} {v : JsonValue} {out out' : CompiledRuleSet}
    (h : ingestSingboxRule E what v out = .ok out') :
    Stores E out out' fun t => ∃ part, IsPart part v ∧ ∃ c ∈ part.conditions, c.Found E t := by
  -- over the size of the rule, as the compiler recurses
  induction hn : sizeOf v using Nat.strong_induction_on generalizing what v out out' with
  | _ n ih =>
    subst hn
    rcases hrule : SingBoxRule.fromValue v with _ | rule
    · rw [ingestSingboxRule] at h
      split at h
      · cases h
      · simp_all
    · rw [ingestSingboxRule_eq hrule] at h
      obtain ⟨mid, hmid, h⟩ := bind_eq_ok.mp h
      obtain ⟨lines, hlines, h⟩ := bind_eq_ok.mp h
      obtain rfl := Except.ok.inj h
      have hsubs := Stores.foldlM (fun sub hsub _ _ hstep =>
        ih _ (SingBoxRule.sizeOf_subRules_lt hrule hsub) hstep rfl) hmid
      obtain ⟨added, heq, haccepted, hcovers⟩ := hsubs.trans (stores_conditions hlines mid)
      refine ⟨added, heq, haccepted, fun t => (hcovers t).trans ?_⟩
      constructor
      · rintro (⟨sub, hsub, part, hpart, hc⟩ | hc)
        · exact ⟨part, .sub hrule hsub hpart, hc⟩
        · exact ⟨rule, .here hrule, hc⟩
      · rintro ⟨part, hpart, hc⟩
        rcases hpart with h | ⟨h, hsub, hpart⟩
        · obtain rfl : part = rule := Option.some.inj (h.symm.trans hrule)
          exact .inr hc
        · obtain rfl := Option.some.inj (h.symm.trans hrule)
          exact .inl ⟨_, hsub, part, hpart, hc⟩

/-- **A source rule set** is compiled to an accepted rule set that covers the targets that some
    condition of some part finds. -/
theorem covers_fromSingboxJson {src : Str} {rules : List JsonValue} {c : CompiledRuleSet}
    (hrules : E.singBoxEnvelope src = .ok rules) (hsrc : CompiledRuleSet.fromSingboxJson E src = .ok c) :
    c.Accepted ∧ ∀ t, c.Covers E t ↔
      ∃ v ∈ rules, ∃ part, IsPart part v ∧ ∃ cond ∈ part.conditions, cond.Found E t := by
  rw [CompiledRuleSet.fromSingboxJson, hrules] at hsrc
  obtain ⟨lines, rfl, haccepted, hcovers⟩ :=
    Stores.foldlM (fun _ _ _ _ hstep => stores_ingestSingboxRule hstep) hsrc
  refine ⟨CompiledRuleSet.accepted_of_holds fun q hq => haccepted q ?_, fun t => ?_⟩
  · simpa [CompiledRuleSet.holds_foldl_push] using hq
  · simpa [CompiledRuleSet.covers_foldl_push] using hcovers t

/-! ### What the flattening keeps -/

/-- What reading a default or a logical rule says. -/
theorem ofValue_ok {v : JsonValue} {r : SourceRule} (h : SourceRule.ofValue v = some r) :
    ∃ rule, SingBoxRule.fromValue v = some rule ∧
      ((rule.subRules = [] ∧ ∃ invert, r = .default rule.conditions invert) ∨
        rule.conditions = [] ∧ ∃ mode rules invert,
          rule.subRules.mapM SourceRule.ofValue = some rules ∧ r = .logical mode rules invert) := by
  rw [SourceRule.ofValue] at h
  split at h
  · cases h
  · rename_i rule hrule
    refine ⟨rule, hrule, ?_⟩
    simp only [Option.bind_eq_bind, Option.bind_eq_some_iff] at h
    obtain ⟨fields, -, _, -, kind, -, invert, -, h⟩ := h
    split at h
    · split at h
      · rename_i hnil
        exact .inl ⟨List.isEmpty_iff.mp hnil, invert, (Option.some.inj h).symm⟩
      · cases h
    · rename_i mode
      split at h
      · rename_i hnil
        obtain ⟨rules, hrules, rfl⟩ := Option.map_eq_some_iff.mp h
        exact .inr ⟨List.isEmpty_iff.mp hnil, mode, rules, invert, by simpa using hrules, rfl⟩
      · cases h

private theorem exists_mem_of_forall₂ {α β : Type} {R : α → β → Prop} {l : List α} {l' : List β}
    (h : List.Forall₂ R l l') {a : α} (ha : a ∈ l) : ∃ b ∈ l', R a b := by
  induction h with
  | nil => cases ha
  | cons hab _ ih =>
    rcases List.mem_cons.mp ha with rfl | ha
    · exact ⟨_, List.mem_cons_self, hab⟩
    · obtain ⟨b, hb, hrel⟩ := ih ha
      exact ⟨b, List.mem_cons_of_mem _ hb, hrel⟩

/-- A plain rule matches where some condition of some part of it holds. -/
theorem SourceRule.Plain.matches {v : JsonValue} {part : SingBoxRule} (hpart : IsPart part v)
    {r : SourceRule} (hr : SourceRule.ofValue v = some r) (hplain : r.Plain) {t : Target}
    {c : SourceCondition} (hc : c ∈ part.conditions) (hholds : c.Holds E t) : r.Matches E t := by
  induction hpart generalizing r with
  | here hrule =>
    obtain ⟨rule', hrule', ⟨-, invert, rfl⟩ | ⟨hnil, -⟩⟩ := ofValue_ok hr
    · obtain rfl := Option.some.inj (hrule'.symm.trans hrule)
      obtain ⟨hkind⟩ := hplain
      -- a condition holds of the only kind that there are conditions of
      have hfails : ∀ address, ¬ SourceRule.Fails E rule'.conditions t address := by
        rintro address ⟨⟨c', hc', rfl⟩, hnone⟩
        exact hnone c hc (hkind c hc c' hc') hholds
      rw [SourceRule.Matches]
      exact ⟨hfails true, hfails false⟩
    · obtain rfl := Option.some.inj (hrule'.symm.trans hrule)
      simp [hnil] at hc
  | sub hrule hsub hpart ih =>
    obtain ⟨rule', hrule', ⟨hnil, -⟩ | ⟨-, mode, rules, invert, hrules, rfl⟩⟩ := ofValue_ok hr
    · obtain rfl := Option.some.inj (hrule'.symm.trans hrule)
      simp [hnil] at hsub
    · obtain rfl := Option.some.inj (hrule'.symm.trans hrule)
      obtain _ | ⟨hmode, hplains⟩ := hplain
      obtain ⟨r', hr', hread⟩ := exists_mem_of_forall₂ (forall₂_of_mapM_eq_some hrules) hsub
      have hmatch : r'.Matches E t := ih hread (hplains r' hr') hc
      rcases mode with _ | _
      · -- with `and` there is no other sub-rule
        rw [SourceRule.Matches]
        intro r'' hr''
        have hlength : rules.length ≤ 1 := hmode.resolve_left nofun
        obtain ⟨r₀, rfl⟩ := List.length_eq_one_iff.mp
          (le_antisymm hlength (List.length_pos_of_mem hr'))
        rw [List.mem_singleton.mp hr'', ← List.mem_singleton.mp hr']
        exact hmatch
      · rw [SourceRule.Matches]
        exact ⟨r', hr', hmatch⟩

end Compiled

/-! ### A small network -/

/-- The compiled rule set of an accepted source matches a target that the source does not match. -/
def Overmatches (E : Externals) (src : Str) (t : Target) : Prop :=
  ∃ rules c rs, E.singBoxEnvelope src = .ok rules ∧ (∀ v ∈ rules, (SourceRule.ofValue v).isSome = true) ∧
    CompiledRuleSet.fromSingboxJson E src = .ok c ∧ RuleSet.ofCompiled E c = .ok rs ∧
    rs.matchesTarget t = true ∧ ¬ SourceMatches E rules t

/-- `10.1.2.3:80`. -/
def lanHttp : Target := .socket ⟨.v4 0x0A010203#32, 80⟩

/-- The field `"ip_cidr":"10.0.0.0/8"`. -/
def lanField : Str × JsonValue := ("ip_cidr".toList, .string "10.0.0.0/8".toList)

/-- The field `"port":[443]`. -/
def httpsField : Str × JsonValue := ("port".toList, .array [.number (.posInt 443)])

/-- A logical rule of a rule for the network and one for the port. -/
def logicalRule (mode : Str) : JsonValue :=
  .object [("type".toList, .string "logical".toList), ("mode".toList, .string mode),
    ("rules".toList, .array [.object [lanField], .object [httpsField]])]

def invertText : Str :=
  "\x7b\"rules\":[\x7b\"ip_cidr\":\"10.0.0.0/8\",\"invert\":true\x7d]\x7d".toList

def bothText : Str :=
  "\x7b\"rules\":[\x7b\"ip_cidr\":\"10.0.0.0/8\",\"port\":[443]\x7d]\x7d".toList

def logicalText (mode : Str) : Str :=
  "\x7b\"rules\":[\x7b\"type\":\"logical\",\"mode\":\"".toList ++ mode ++
    "\",\"rules\":[\x7b\"ip_cidr\":\"10.0.0.0/8\"\x7d,\x7b\"port\":[443]\x7d]\x7d]\x7d".toList

/-- The plain instance, with the JSON texts above. -/
def Externals.lan : Externals :=
  { Externals.plain with
    singBoxEnvelope := fun src =>
      if src = invertText then .ok [.object [lanField, ("invert".toList, .bool true)]]
      else if src = bothText then .ok [.object [lanField, httpsField]]
      else if src = logicalText "and".toList then .ok [logicalRule "and".toList]
      else if src = logicalText "or".toList then .ok [logicalRule "or".toList]
      else .error "expected value at line 1 column 1".toList }

theorem ofValue_default {v : JsonValue} {rule : SingBoxRule} {fields : List (Str × JsonValue)}
    {invert : Bool} (hrule : SingBoxRule.fromValue v = some rule) (hfields : v.fields? = some fields)
    (hknown : SourceRule.knownOf fields = some ())
    (hkind : SourceRule.kindOf fields = some none) (hinvert : SourceRule.invertOf fields = some invert)
    (hnil : rule.subRules = []) : SourceRule.ofValue v = some (.default rule.conditions invert) := by
  rw [SourceRule.ofValue]
  split
  · simp_all
  · rename_i rule' hrule'
    obtain rfl : rule = rule' := Option.some.inj (hrule.symm.trans hrule')
    simp [hfields, hknown, hkind, hinvert, hnil]

theorem ofValue_logical {v : JsonValue} {rule : SingBoxRule} {fields : List (Str × JsonValue)}
    {mode : LogicalMode} {invert : Bool} {rules : List SourceRule}
    (hrule : SingBoxRule.fromValue v = some rule) (hfields : v.fields? = some fields)
    (hknown : SourceRule.knownOf fields = some ()) (hkind : SourceRule.kindOf fields = some (some mode))
    (hinvert : SourceRule.invertOf fields = some invert) (hnil : rule.conditions = [])
    (hrules : rule.subRules.mapM SourceRule.ofValue = some rules) :
    SourceRule.ofValue v = some (.logical mode rules invert) := by
  rw [SourceRule.ofValue]
  split
  · simp_all
  · rename_i rule' hrule'
    obtain rfl : rule = rule' := Option.some.inj (hrule.symm.trans hrule')
    simp [hfields, hknown, hkind, hinvert, hnil, hrules]

/-- The address of the example meets the condition on the network of the example. -/
theorem holds_lan : (SourceCondition.ipCidr "10.0.0.0/8".toList).Holds .lan lanHttp := by
  have hline : (SourceCondition.ipCidr "10.0.0.0/8".toList).toLine .lan = .ok (.ipCidr 0x0A000000#32 8) := by
    decide
  exact (((toLine_ok hline).2 lanHttp).mp (show CidrContains _ _ _ by decide)).holds

theorem not_holds_https : ¬ (SourceCondition.port 443).Holds .lan lanHttp :=
  show ¬ (443 : UInt16) = 80 by decide

theorem ofValue_lanRule : SourceRule.ofValue (.object [lanField])
    = some (.default [.ipCidr "10.0.0.0/8".toList] false) :=
  (ofValue_default rfl rfl (by decide) rfl rfl rfl).trans rfl

theorem ofValue_httpsRule : SourceRule.ofValue (.object [httpsField])
    = some (.default [.port 443] false) :=
  (ofValue_default rfl rfl (by decide) rfl rfl rfl).trans rfl

theorem ofValue_logicalRule {m : Str} (mode : LogicalMode)
    (hmode : SourceRule.kindOf [("type".toList, .string "logical".toList), ("mode".toList, .string m),
      ("rules".toList, .array [.object [lanField], .object [httpsField]])] = some (some mode)) :
    SourceRule.ofValue (logicalRule m) = some (.logical mode
      [.default [.ipCidr "10.0.0.0/8".toList] false, .default [.port 443] false] false) := by
  refine ofValue_logical rfl rfl rfl hmode rfl rfl ?_
  show [JsonValue.object [lanField], .object [httpsField]].mapM SourceRule.ofValue = _
  simp [ofValue_lanRule, ofValue_httpsRule]

/-- A rule without sub-rules is stored as its conditions. -/
theorem ingest_of_ruleLines {E : Externals} {what : Str} {v : JsonValue} {rule : SingBoxRule}
    (lines : List RuleLine) (hrule : SingBoxRule.fromValue v = some rule) (hnil : rule.subRules = [])
    (hlines : rule.ruleLines E = .ok lines) (out : CompiledRuleSet) :
    ingestSingboxRule E what v out = .ok (lines.foldl CompiledRuleSet.push out) := by
  rw [ingestSingboxRule_eq hrule, hnil, hlines]
  rfl

/-- The rule set of the network and the port. -/
def lanOrHttps : CompiledRuleSet := { ipv4Cidrs := [(0x0A000000#32, 8)], ports := [(443, 443)] }

theorem ingest_logicalRule (what m : Str) :
    ingestSingboxRule .lan what (logicalRule m) {} = .ok lanOrHttps := by
  have hlan : ∀ what out, ingestSingboxRule .lan what (.object [lanField]) out
      = .ok (out.push (.ipCidr 0x0A000000#32 8)) := fun _ out =>
    ingest_of_ruleLines [.ipCidr 0x0A000000#32 8] rfl rfl (by decide) out
  have hhttps : ∀ what out, ingestSingboxRule .lan what (.object [httpsField]) out
      = .ok (out.push (.port 443 443)) := fun _ out =>
    ingest_of_ruleLines [.port 443 443] rfl rfl (by decide) out
  rw [ingestSingboxRule_eq (v := logicalRule m) rfl]
  show (List.foldlM _ _ [JsonValue.object [lanField], .object [httpsField]] >>= _) = _
  simp only [List.foldlM_cons, List.foldlM_nil, hlan, hhttps]
  rfl

theorem fromSingboxJson_lan {src : Str} {v : JsonValue} {c : CompiledRuleSet}
    (hsrc : Externals.lan.singBoxEnvelope src = .ok [v])
    (hv : ∀ what, ingestSingboxRule .lan what v {} = .ok c) :
    CompiledRuleSet.fromSingboxJson .lan src = .ok c := by
  rw [CompiledRuleSet.fromSingboxJson, hsrc]
  simp [hv]

/-- A source of one rule that the network covers and the rule does not match. -/
theorem overmatches_lan {src : Str} {v : JsonValue} {r : SourceRule} {c : CompiledRuleSet}
    (hsrc : Externals.lan.singBoxEnvelope src = .ok [v]) (hread : SourceRule.ofValue v = some r)
    (hv : ∀ what, ingestSingboxRule .lan what v {} = .ok c)
    (hmatch : (RuleSet.ofCompiled .lan c).toOption.any (fun rs => rs.matchesTarget lanHttp) = true)
    (hr : ¬ r.Matches .lan lanHttp) : Overmatches .lan src lanHttp := by
  obtain ⟨rs, hrs, hmatch⟩ := exists_eq_ok_of_any hmatch
  refine ⟨[v], c, rs, hsrc, by simp [hread], fromSingboxJson_lan hsrc hv, hrs, hmatch, ?_⟩
  rintro ⟨v', hv', r', hr', hmatches⟩
  rw [List.mem_singleton.mp hv', hread] at hr'
  exact hr (Option.some.inj hr' ▸ hmatches)

/-- Conditions on the port fail as soon as `443` is the only one. -/
theorem fails_https {conditions : List SourceCondition} (hmem : .port 443 ∈ conditions)
    (honly : ∀ c ∈ conditions, c.isAddress = false → c = .port 443) :
    SourceRule.Fails .lan conditions lanHttp false :=
  ⟨⟨_, hmem, rfl⟩, fun c hc hkind => honly c hc hkind ▸ not_holds_https⟩

end Reflex.Ruleset
