import Reflex.Ruleset.Pipeline

namespace Reflex.Ruleset

open RustStd

/-!
# Rule sets — the spellings of a name

`from_text` of `ruleset/compiler.rs` stores the names of `domain` and `domain-suffix` rules in lower case,
suffixes without leading dots.  `match_domain` of `ruleset/matcher.rs` looks a query up in lower case and
without trailing dots.

* `DnsName` — a name, and what spells it;
* `normalizeDomain_of_spelledBy` — a query is looked up under one spelling of its name;
* `matchesSpellings_iff` — a rule matches the name it was written for exactly when it was written without
  a trailing dot, and not for everything.
-/

/-! ### Names -/

/-- A DNS name: labels that are not empty and have no dots in them.  The root has none. -/
structure DnsName where
  labels : List Str
  ne_nil : ∀ l ∈ labels, l ≠ []
  not_dot : ∀ l ∈ labels, '.' ∉ l

namespace DnsName

/-- The name as it is written, with a dot between labels. -/
def text (n : DnsName) : Str := join ['.'] n.labels

/-- Its length in bytes. -/
def size (n : DnsName) : Nat := (utf8 n.text).length

/-- A spelling of the name: in any case, with a trailing dot or without. -/
def SpelledBy (n : DnsName) (s : Str) : Prop :=
  toAsciiLowercase s = toAsciiLowercase n.text ∨
    toAsciiLowercase s = toAsciiLowercase n.text ++ ['.']

instance (n : DnsName) (s : Str) : Decidable (n.SpelledBy s) := inferInstanceAs (Decidable (_ ∨ _))

/-- The labels in lower case. -/
def lowerLabels (n : DnsName) : List Str := n.labels.map toAsciiLowercase

/-- The name has further labels in front of those of `n`. -/
def IsSubdomainOf (m n : DnsName) : Prop := ∃ front ≠ [], m.lowerLabels = front ++ n.lowerLabels

end DnsName

/-- Characters below the letters have no other case. -/
theorem toLower_eq_iff {c d : Char} (hd : d.toNat < 65) : c.toLower = d ↔ c = d := by
  by_cases h : c.isUpper = true
  · have hrange : c.val ≥ 'A'.val ∧ c.val ≤ 'Z'.val := of_decide_eq_true h
    have hlow : 65 ≤ c.val.toNat := hrange.1
    have hhigh : c.val.toNat ≤ 90 := hrange.2
    have hlower : c.toLower.val.toNat = c.val.toNat + 32 := by
      delta Char.toLower
      have h32 : ('a'.val - 'A'.val).toNat = 32 := rfl
      rw [dif_pos hrange, UInt32.toNat_add, h32]
      omega
    have hd' : d.val.toNat < 65 := hd
    refine ⟨fun heq => ?_, fun heq => ?_⟩
    · rw [heq] at hlower
      omega
    · rw [heq] at hlow
      omega
  · rw [toLower_of_not_isUpper (by simpa using h)]

theorem dot_mem_toAsciiLowercase {s : Str} : '.' ∈ toAsciiLowercase s ↔ '.' ∈ s := by
  simp [toAsciiLowercase, toLower_eq_iff (d := '.') (by decide)]

theorem getLast?_toAsciiLowercase {s : Str} :
    (toAsciiLowercase s).getLast? = some '.' ↔ s.getLast? = some '.' := by
  simp [toAsciiLowercase, toLower_eq_iff (d := '.') (by decide)]

theorem trimEndMatches_toAsciiLowercase (s : Str) :
    trimEndMatches '.' (toAsciiLowercase s) = toAsciiLowercase (trimEndMatches '.' s) := by
  have hdot : ((· == '.') ∘ Char.toLower) = (· == '.') := by
    ext c
    simp [toLower_eq_iff (d := '.') (by decide)]
  simp [trimEndMatches, toAsciiLowercase, List.rdropWhile, ← List.map_reverse, List.dropWhile_map, hdot]

theorem labels_concat_dot (s : Str) : labels (s ++ ['.']) = labels s ++ [[]] :=
  List.splitOn_append_cons_self ..

namespace DnsName

variable (n : DnsName)

theorem lower_text : toAsciiLowercase n.text = join ['.'] n.lowerLabels := by
  rw [text, toAsciiLowercase_join]
  rfl

theorem ne_nil_of_mem_lowerLabels {l : Str} (h : l ∈ n.lowerLabels) : l ≠ [] := by
  obtain ⟨l', hl', rfl⟩ := List.mem_map.mp h
  simpa [toAsciiLowercase] using n.ne_nil l' hl'

/-- The labels can be read off the text, but for those of the root. -/
theorem labels_lower_text :
    Ruleset.labels (toAsciiLowercase n.text) = if n.labels = [] then [[]] else n.lowerLabels := by
  rw [lower_text]
  split
  · rename_i hroot
    simp [lowerLabels, hroot, join, Ruleset.labels]
  · rename_i hlabels
    refine List.splitOn_intercalate '.' (fun l hl => ?_) (by simpa [lowerLabels] using hlabels)
    obtain ⟨l', hl', rfl⟩ := List.mem_map.mp hl
    exact fun hdot => n.not_dot l' hl' (dot_mem_toAsciiLowercase.mp hdot)

/-- The text has no dot at the end. -/
theorem getLast?_lower_text : (toAsciiLowercase n.text).getLast? ≠ some '.' := by
  intro hlast
  obtain ⟨init, hinit⟩ := List.getLast?_eq_some_iff.mp hlast
  have hlabels := n.labels_lower_text
  rw [hinit, labels_concat_dot] at hlabels
  split at hlabels
  · -- the root has no text at all
    rename_i hroot
    simp [lower_text, lowerLabels, hroot, join] at hlast
  · have hmem : [] ∈ n.lowerLabels := by simp [← hlabels]
    exact n.ne_nil_of_mem_lowerLabels hmem rfl

theorem spelledBy_text : n.SpelledBy n.text := .inl rfl

/-- **A query** is looked up under the text of its name, in lower case. -/
theorem normalizeDomain_of_spelledBy {n : DnsName} {q : Str} (h : n.SpelledBy q) :
    normalizeDomain q = toAsciiLowercase n.text := by
  rw [normalizeDomain_eq, ← trimEndMatches_toAsciiLowercase]
  have htext := trimEndMatches_of_getLast n.getLast?_lower_text
  rcases h with hq | hq
  · rw [hq, htext]
  · rw [hq, trimEndMatches, List.rdropWhile_concat_pos _ _ _ (by simp)]
    exact htext

/-- Every label but the first has a dot before it. -/
theorem two_mul_length_le : 2 * n.labels.length ≤ n.size + 1 := by
  have hjoin : ∀ ls : List Str, (∀ l ∈ ls, l ≠ []) →
      2 * ls.length ≤ (utf8 (join ['.'] ls)).length + 1 := by
    intro ls hls
    induction ls using List.reverseRecOn with
    | nil => simp
    | append_singleton ls l ih =>
      have hl : 1 ≤ (utf8 l).length := by
        obtain ⟨c, rest, rfl⟩ := List.exists_cons_of_ne_nil (hls l (by simp))
        rw [utf8_cons, List.length_append, String.length_utf8EncodeChar]
        have := Char.utf8Size_pos c
        omega
      by_cases hnil : ls = []
      · subst hnil
        simp [join]
        omega
      · have hls' := ih fun l' hl' => hls l' (List.mem_append_left _ hl')
        have hdot : (utf8 ['.']).length = 1 := rfl
        rw [join_append_singleton _ hnil, utf8_append, utf8_append, List.length_append,
          List.length_append, List.length_append, List.length_singleton, hdot]
        omega
  exact hjoin n.labels n.ne_nil

theorem length_labels_normalizeDomain {n : DnsName} {q : Str} (h : n.SpelledBy q)
    (hsize : n.size ≤ 253) : (Ruleset.labels (normalizeDomain q)).length ≤ 128 := by
  have := n.two_mul_length_le
  rw [normalizeDomain_of_spelledBy h, labels_lower_text]
  split
  · simp
  · rw [lowerLabels, List.length_map]
    omega

end DnsName

/-! ### Rules for names -/

/-- The rules that are written for a name. -/
inductive NameRule
  | domain
  | domainSuffix
  deriving DecidableEq, Repr

namespace NameRule

/-- The kind of rule they are. -/
def ruleKind : NameRule → RuleKind
  | .domain => .domain
  | .domainSuffix => .domainSuffix

/-- The name in the value: a suffix may have leading dots. -/
def written : NameRule → Str → Str
  | .domain, d => d
  | .domainSuffix, d => trimStartMatches '.' d

/-- The rule set with one such rule. -/
def compiled : NameRule → Str → CompiledRuleSet
  | .domain, d => { domains := [toAsciiLowercase d] }
  | .domainSuffix, d => { domainSuffixes := [toAsciiLowercase (trimStartMatches '.' d)] }

variable (E : Externals)

/-- The rule set of the text matches every spelling of the name, and for a suffix those of its
    subdomains. -/
def MatchesSpellings (kind : NameRule) (src : Str) (n : DnsName) : Prop :=
  ∃ rs, RuleSet.fromText E src = .ok rs ∧
    (∀ q, n.SpelledBy q → rs.matches (.domain q) = true) ∧
    (kind = .domainSuffix → ∀ m : DnsName, m.IsSubdomainOf n → m.size ≤ 253 →
      ∀ q, m.SpelledBy q → rs.matches (.domain q) = true)

/-- The name is written without a trailing dot, and a suffix is not empty. -/
def Plain (kind : NameRule) (d : Str) : Prop :=
  (kind.written d).getLast? ≠ some '.' ∧ (kind = .domainSuffix → kind.written d ≠ [])

instance (kind : NameRule) (d : Str) : Decidable (kind.Plain d) :=
  inferInstanceAs (Decidable (_ ∧ (_ → _)))

end NameRule

/-- The `fst` crate stores one key of a few hundred bytes in less than 4 GiB. -/
def Externals.FstCompact (E : Externals) : Prop :=
  ∀ key bytes, key.length ≤ 256 → E.fstBuild [key] = .ok bytes → bytes.length < 2 ^ 32

theorem Externals.fstCompact_plain : Externals.plain.FstCompact := by
  intro key bytes hkey hbuild
  obtain rfl := Except.ok.inj hbuild
  have hlen : (key.flatMap fun b => [1, b]).length = 2 * key.length := by
    simp [List.length_flatMap, Nat.mul_comm]
  simp only [plainFstBuild, List.flatMap_singleton, plainKey, List.length_cons, List.length_append, hlen,
    List.length_nil]
  omega

namespace NameRule

variable {E : Externals} {kind : NameRule} {src d : Str} {c : CompiledRuleSet}

/-- **One line**: the text compiles to the rule. -/
theorem eq_compiled (hsrc : CompiledRuleSet.fromText E src = .ok c)
    (hentries : entries src = [(kind.ruleKind.key, d)]) : c = kind.compiled d := by
  obtain ⟨rules, hall, rfl⟩ := fromTextGo_ok hsrc
  rw [show (lines src).filterMap lineEntry = entries src from rfl, hentries] at hall
  obtain ⟨rule, rest, hparse, hrest, rfl⟩ := List.forall₂_cons_left_iff.mp hall
  obtain rfl := List.forall₂_nil_left_iff.mp hrest
  have hkind : kind.ruleKind = rule.kind := RuleKind.key_injective hparse.key_eq
  rcases kind with _ | _
  · cases hparse <;> first | rfl | cases hkind
  · cases hparse <;> first | rfl | cases hkind

theorem length_suffixToFstKey (d : Str) : (utf8 (suffixToFstKey d)).length = (utf8 d).length + 1 := by
  rw [utf8_suffixToFstKey]
  exact (length_keyBytes (byteLabels_ne_nil d)).trans (by rw [joinRev_byteLabels])

theorem length_domainToFstKey (d : Str) : (utf8 (domainToFstKey d)).length = (utf8 d).length := by
  have h := length_suffixToFstKey d
  rw [suffixToFstKey, utf8_append, List.length_append] at h
  exact Nat.succ.inj h

theorem buildFst_singleton (toKey : Str → Str) (name : Str) :
    ∀ fst, buildFst E toKey [name] = .ok fst → E.fstBuild [utf8 (toKey name)] = .ok fst := by
  intro fst hfst
  rw [buildFst, if_neg (by simp)] at hfst
  simp only [sortedKeys, List.map_cons, List.map_nil, List.mergeSort_singleton, dedup] at hfst
  split at hfst
  · rename_i buf hbuf
    rw [hbuf, Except.ok.inj hfst]
  · cases hfst

/-- The rule set is within the limits of the format. -/
theorem fits_compiled (hcompact : E.FstCompact) (hc : (kind.compiled d).Accepted) :
    (kind.compiled d).Fits E := by
  have hempty : ∀ (toKey : Str → Str) fst, buildFst E toKey [] = .ok fst → fst.length < 2 ^ 32 := by
    intro toKey fst hfst
    obtain rfl : [] = fst := Except.ok.inj hfst
    decide
  have hdomain : ∀ fst, buildFst E domainToFstKey (kind.compiled d).domains = .ok fst →
      fst.length < 2 ^ 32 := by
    intro fst hfst
    rcases kind with _ | _
    · have hshort : (utf8 (toAsciiLowercase d)).length ≤ 255 := hc.domains _ (List.mem_singleton_self _)
      exact hcompact _ fst (by rw [length_domainToFstKey]; omega) (buildFst_singleton _ _ fst hfst)
    · exact hempty _ fst hfst
  have hsuffix : ∀ fst, buildFst E suffixToFstKey (kind.compiled d).domainSuffixes = .ok fst →
      fst.length < 2 ^ 32 := by
    intro fst hfst
    rcases kind with _ | _
    · exact hempty _ fst hfst
    · have hshort : (utf8 (toAsciiLowercase (trimStartMatches '.' d))).length ≤ 255 :=
        hc.domainSuffixes _ (List.mem_singleton_self _)
      exact hcompact _ fst (by rw [length_suffixToFstKey]; omega) (buildFst_singleton _ _ fst hfst)
  -- The rule stores a name and nothing else.
  exact {
    domainFst := hdomain
    domainSuffixFst := hsuffix
    keywordBytes := by cases kind <;> simp [compiled]
    regexBytes := by cases kind <;> simp [compiled]
    ipv4Bytes := by cases kind <;> simp [compiled]
    ipv6Bytes := by cases kind <;> simp [compiled]
    portBytes := by cases kind <;> simp [compiled]
    keywords := by cases kind <;> simp [compiled]
    regexes := by cases kind <;> simp [compiled] }

/-- What the rule matches, by the name as it is written. -/
def MatchesText : NameRule → Str → Str → Prop
  | .domain, stored, host => host = stored
  | .domainSuffix, stored, host => labels stored <:+ labels host

/-- **A spelling** is matched where the written name is, in lower case. -/
theorem exists_matches_iff (hE : E.FstLawful) (hcompact : E.FstCompact)
    (hsrc : CompiledRuleSet.fromText E src = .ok c) (hentries : entries src = [(kind.ruleKind.key, d)]) :
    ∃ rs, RuleSet.fromText E src = .ok rs ∧ ∀ (n : DnsName) (q : Str), n.SpelledBy q → n.size ≤ 253 →
      (rs.matches (.domain q) = true ↔
        kind.MatchesText (toAsciiLowercase (kind.written d)) (toAsciiLowercase n.text)) := by
  have hc := accepted_of_fromText hsrc
  obtain rfl := eq_compiled hsrc hentries
  have hregexes : (kind.compiled d).domainRegexes = [] := by rcases kind <;> rfl
  obtain ⟨rs, hrs, -, -, hdomain⟩ := ofCompiled_spec hE hc (fits_compiled hcompact hc) hregexes
  refine ⟨rs, by rw [RuleSet.fromText, hsrc]; exact hrs, fun n q hq hsize => ?_⟩
  rw [hdomain q (.inr (DnsName.length_labels_normalizeDomain hq hsize)),
    CompiledRuleSet.MatchesDomain, DnsName.normalizeDomain_of_spelledBy hq]
  rcases kind with _ | _
  · simp [compiled, MatchesText, written]
  · simp [compiled, MatchesText, written]

end NameRule

/-- A subdomain of the root. -/
def subdomainOfRoot : DnsName := ⟨["a".toList], by decide, by decide⟩

theorem DnsName.lowerLabels_isSuffix_of_isSubdomainOf {m n : DnsName} (h : m.IsSubdomainOf n) :
    n.lowerLabels <:+ m.lowerLabels := by
  obtain ⟨front, -, heq⟩ := h
  exact ⟨front, heq.symm⟩

/-- The labels of a suffix rule are those of its name if it is written without a trailing dot. -/
theorem DnsName.lower_eq_of_plain {n : DnsName} {s : Str} (hs : n.SpelledBy s)
    (hlast : s.getLast? ≠ some '.') : toAsciiLowercase s = toAsciiLowercase n.text := by
  refine hs.resolve_right fun hdot => hlast (getLast?_toAsciiLowercase.mp ?_)
  rw [hdot, List.getLast?_concat]

namespace NameRule

variable {E : Externals} {kind : NameRule} {d : Str} {n : DnsName}

/-- Written without a trailing dot, the name has the text that queries are looked up under. -/
theorem Plain.matchesText (h : kind.Plain d) (hspelled : n.SpelledBy (kind.written d)) :
    kind.MatchesText (toAsciiLowercase (kind.written d)) (toAsciiLowercase n.text) ∧
      (kind = .domainSuffix → ∀ m : DnsName, m.IsSubdomainOf n →
        kind.MatchesText (toAsciiLowercase (kind.written d)) (toAsciiLowercase m.text)) := by
  rw [DnsName.lower_eq_of_plain hspelled h.1]
  rcases kind with _ | _
  · exact ⟨rfl, fun hkind => nomatch hkind⟩
  · refine ⟨List.suffix_refl _, fun hkind m hm => ?_⟩
    have hwritten := DnsName.lower_eq_of_plain hspelled h.1
    have hn : n.labels ≠ [] := by
      intro hroot
      rw [n.lower_text, DnsName.lowerLabels, hroot] at hwritten
      exact h.2 rfl (List.map_eq_nil_iff.mp hwritten)
    have hsuffix := DnsName.lowerLabels_isSuffix_of_isSubdomainOf hm
    have hm : m.labels ≠ [] := by
      intro hroot
      rw [DnsName.lowerLabels, DnsName.lowerLabels, hroot] at hsuffix
      exact hn (List.map_eq_nil_iff.mp (List.suffix_nil.mp hsuffix))
    show labels _ <:+ labels _
    rw [n.labels_lower_text, m.labels_lower_text, if_neg hn, if_neg hm]
    exact hsuffix

/-- With a trailing dot the rule has another text, and one more label. -/
theorem getLast?_of_matchesText (hspelled : n.SpelledBy (kind.written d))
    (h : kind.MatchesText (toAsciiLowercase (kind.written d)) (toAsciiLowercase n.text)) :
    (kind.written d).getLast? ≠ some '.' := by
  intro hlast
  have hdot : toAsciiLowercase (kind.written d) = toAsciiLowercase n.text ++ ['.'] := by
    refine hspelled.resolve_left fun htext => n.getLast?_lower_text ?_
    rw [← htext]
    exact getLast?_toAsciiLowercase.mpr hlast
  rw [hdot] at h
  rcases kind with _ | _
  · have heq : toAsciiLowercase n.text = toAsciiLowercase n.text ++ ['.'] := h
    simp at heq
  · have hsuffix : labels (toAsciiLowercase n.text ++ ['.']) <:+ labels (toAsciiLowercase n.text) := h
    have hle := hsuffix.length_le
    rw [labels_concat_dot, List.length_append, List.length_singleton] at hle
    omega

/-- **The name a rule was written for.**  The rule set of one accepted `domain` or `domain-suffix` line
    matches every spelling of its name, and a suffix every spelling of every subdomain, exactly when the
    name is written without a trailing dot and a suffix is not empty. -/
theorem matchesSpellings_iff (hE : E.FstLawful) (hcompact : E.FstCompact) {kind : NameRule} {src d : Str}
    {c : CompiledRuleSet} (hsrc : CompiledRuleSet.fromText E src = .ok c)
    (hentries : entries src = [(kind.ruleKind.key, d)]) {n : DnsName}
    (hspelled : n.SpelledBy (kind.written d)) (hsize : n.size ≤ 253) :
    kind.MatchesSpellings E src n ↔ kind.Plain d := by
  obtain ⟨rs, hrs, hmatches⟩ := exists_matches_iff hE hcompact hsrc hentries
  constructor
  · rintro ⟨rs', hrs', hself, hsub⟩
    obtain rfl := Except.ok.inj (hrs.symm.trans hrs')
    have htext := (hmatches n n.text n.spelledBy_text hsize).mp (hself n.text n.spelledBy_text)
    refine ⟨getLast?_of_matchesText hspelled htext, fun hkind hempty => ?_⟩
    -- an empty suffix is one for the root, and no other name has an empty label
    subst hkind
    rw [hempty] at hspelled
    have hroot : n.labels = [] := by
      by_contra hlabels
      have htext : toAsciiLowercase n.text = [] :=
        (hspelled.resolve_right fun h => by simp [toAsciiLowercase] at h).symm
      have hlower := n.labels_lower_text
      rw [htext, if_neg hlabels] at hlower
      exact n.ne_nil_of_mem_lowerLabels (hlower ▸ List.mem_singleton_self _) rfl
    have hrootLabels : n.lowerLabels = [] := by simp [DnsName.lowerLabels, hroot]
    have hsubdomain : subdomainOfRoot.IsSubdomainOf n :=
      ⟨["a".toList], by decide, by rw [hrootLabels]; decide⟩
    have hnone := (hmatches subdomainOfRoot _ subdomainOfRoot.spelledBy_text (by decide)).mp
      (hsub rfl subdomainOfRoot hsubdomain (by decide) _ subdomainOfRoot.spelledBy_text)
    rw [hempty] at hnone
    exact absurd hnone (show ¬ labels (toAsciiLowercase []) <:+
      labels (toAsciiLowercase subdomainOfRoot.text) by decide)
  · intro hplain
    obtain ⟨hself, hsub⟩ := hplain.matchesText hspelled
    exact ⟨rs, hrs, fun q hq => (hmatches n q hq hsize).mpr hself,
      fun hkind m hm hmsize q hq => (hmatches m q hq hmsize).mpr (hsub hkind m hm)⟩

/-- The name `example.com`. -/
def exampleCom : DnsName := ⟨["example".toList, "com".toList], by decide, by decide⟩

theorem matchesSpellings_iff_exampleCom :
    NameRule.domainSuffix.MatchesSpellings .plain "domain-suffix: .Example.COM".toList exampleCom ↔
      NameRule.domainSuffix.Plain ".Example.COM".toList :=
  matchesSpellings_iff Externals.fstLawful_plain Externals.fstCompact_plain
    (c := { domainSuffixes := ["example.com".toList] }) (by decide) (by decide) (by decide)
    (by decide)

/-- The rule `domain: example.com.` does not match `example.com`. -/
theorem not_matchesSpellings_trailingDot :
    (∃ c, CompiledRuleSet.fromText .plain "domain: example.com.".toList = .ok c) ∧
      exampleCom.SpelledBy "example.com.".toList ∧
      ¬ NameRule.domain.MatchesSpellings .plain "domain: example.com.".toList exampleCom := by
  have hsrc : CompiledRuleSet.fromText .plain "domain: example.com.".toList
      = .ok { domains := ["example.com.".toList] } := by decide
  refine ⟨⟨_, hsrc⟩, by decide, fun hmatch => ?_⟩
  obtain ⟨rs', hrs', hself, -⟩ := hmatch
  have hentries : entries "domain: example.com.".toList
      = [(NameRule.domain.ruleKind.key, "example.com.".toList)] := by decide
  obtain ⟨rs, hrs, hmatches⟩ := exists_matches_iff Externals.fstLawful_plain
    Externals.fstCompact_plain hsrc hentries
  obtain rfl := Except.ok.inj (hrs.symm.trans hrs')
  have htext := (hmatches exampleCom _ exampleCom.spelledBy_text (by decide)).mp
    (hself _ exampleCom.spelledBy_text)
  exact absurd htext (show toAsciiLowercase exampleCom.text ≠ toAsciiLowercase "example.com.".toList by
    decide)

end NameRule

end Reflex.Ruleset
