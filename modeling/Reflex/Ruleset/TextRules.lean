import Reflex.Ruleset.Compiler

namespace Reflex.Ruleset

open RustStd

/-!
# Rule sets — what an accepted rule text says

The text front end of the compiler, from the side of the text.  `entries src` are its `key: value` lines, without
the empty ones and those that are comments as a whole.

* `ParsesTo` — an entry stands for a rule: the key names its kind, and the value passes the check of that kind;
* `parseRule_eq_ok_iff` — the parser accepts an entry exactly if it stands for a rule, and for that one;
* `holds_iff_of_fromText` — where `from_text` accepts the text, the compiled rule set holds exactly the rules its
  entries stand for;
* `count_of_fromText` — and as many of each kind as there are entries of it.
-/

/-! ### Lines -/

/-- The trimmed key and value of a line, nothing for a blank line, a comment or a line without
    a colon. -/
def lineEntry (raw : Str) : Option (Str × Str) :=
  let trimmed := trim raw
  if trimmed = [] ∨ trimmed.head? = some '#' then none
  else (splitOnce ':' trimmed).map fun e => (trim e.1, trim e.2)

/-- The `key: value` lines of a rule text, in order. -/
def entries (src : Str) : List (Str × Str) := (lines src).filterMap lineEntry

theorem trim_stripCr (l : Str) : trim (stripCr l) = trim l := by
  unfold stripCr
  split
  · rename_i hlast
    obtain ⟨init, rfl⟩ : ∃ init, l = init ++ ['\r'] := by
      rcases List.eq_nil_or_concat l with rfl | ⟨init, last, rfl⟩
      · simp at hlast
      · simp only [List.concat_eq_append, List.getLast?_concat, Option.some.injEq] at hlast
        exact ⟨init, by rw [List.concat_eq_append, hlast]⟩
    rw [List.dropLast_concat, trim_concat _ (by decide)]
  · rfl

theorem lineEntry_stripCr (l : Str) : lineEntry (stripCr l) = lineEntry l := by
  simp only [lineEntry, trim_stripCr]

/-- The entries of lines that were joined by line feeds. -/
theorem entries_join {ps : List Str} (h : ∀ p ∈ ps, '\n' ∉ p) :
    entries (join ['\n'] ps) = ps.filterMap lineEntry := by
  -- The carriage returns `lines` strips, and a last empty line, make no difference to the entries.
  have hpieces : ∀ qs : List Str, (linesOfPieces qs).filterMap lineEntry = qs.filterMap lineEntry := by
    intro qs
    fun_induction linesOfPieces qs with
    | case1 => rfl
    | case2 => rfl
    | case3 last hlast => rfl
    | case4 piece pieces hne ih =>
      rw [List.filterMap_cons, List.filterMap_cons, lineEntry_stripCr, ih]
  rw [entries, lines, join]
  by_cases hps : ps = []
  · subst hps
    rfl
  · rw [List.splitOn_intercalate '\n' h hps, hpieces]

/-- The characters a key is made of. -/
def IsKey (key : Str) : Prop := key ≠ [] ∧ ∀ c ∈ key, isWhitespace c = false ∧ c ≠ ':' ∧ c ≠ '#'

instance (key : Str) : Decidable (IsKey key) :=
  @instDecidableAnd _ _ inferInstance
    (List.decidableBAll (fun c => isWhitespace c = false ∧ c ≠ ':' ∧ c ≠ '#') key)

/-- A line that was printed as `key: value`. -/
theorem lineEntry_key (key : Str) (hkey : IsKey key) (value : Str) :
    lineEntry (key ++ ": ".toList ++ value) = some (key, trim value) := by
  obtain ⟨hne, hchars⟩ := hkey
  obtain ⟨k, ks, rfl⟩ := List.exists_cons_of_ne_nil hne
  have hk := hchars k (by simp)
  have hline : (k :: ks) ++ ": ".toList ++ value = (k :: ks) ++ ':' :: ' ' :: value := by simp
  -- the colon stops the trimming from the right
  have hright : ((k :: ks) ++ ':' :: ' ' :: value).rdropWhile isWhitespace
      = (k :: ks) ++ ':' :: (' ' :: value).rdropWhile isWhitespace := by
    generalize ' ' :: value = rest
    induction rest using List.reverseRecOn with
    | nil => exact List.rdropWhile_concat_neg _ _ _ (by decide)
    | append_singleton rest c ih =>
      have hassoc : (k :: ks) ++ ':' :: (rest ++ [c]) = ((k :: ks) ++ ':' :: rest) ++ [c] := by simp
      rcases hc : isWhitespace c with _ | _
      · rw [hassoc, List.rdropWhile_concat_neg _ _ _ (by simp [hc]),
          List.rdropWhile_concat_neg _ _ _ (by simp [hc]), hassoc]
      · rw [hassoc, List.rdropWhile_concat_pos _ _ _ hc, List.rdropWhile_concat_pos _ _ _ hc, ih]
  have htrim : trim ((k :: ks) ++ ':' :: ' ' :: value)
      = (k :: ks) ++ ':' :: (' ' :: value).rdropWhile isWhitespace := by
    rw [← hright, trim, List.cons_append, List.dropWhile_cons_of_neg (by simp [hk.1])]
  -- The line splits at the colon behind the key, whatever the value has.
  have hcolon : ':' ∉ k :: ks := fun h => (hchars _ h).2.1 rfl
  simp only [lineEntry]
  rw [hline, htrim, if_neg (by simp [hk.2.2]), splitOnce_append hcolon, Option.map_some,
    trim_eq_self fun c hc => (hchars c hc).1, trim_rdropWhile, trim_cons _ (by decide)]

variable (E : Externals)

/-- `key: value` is accepted and stands for a rule. -/
inductive ParsesTo (key value : Str) : RuleLine → Prop where
  | domain (hkey : key = "domain".toList) (h : (utf8 value).length ≤ 255) :
      ParsesTo key value (.domain (toAsciiLowercase value))
  | domainSuffix (hkey : key = "domain-suffix".toList)
      (h : (utf8 (trimStartMatches '.' value)).length ≤ 255) :
      ParsesTo key value (.domainSuffix (toAsciiLowercase (trimStartMatches '.' value)))
  | domainKeyword (hkey : key = "domain-keyword".toList) :
      ParsesTo key value (.domainKeyword (toAsciiLowercase value))
  | domainRegex (hkey : key = "domain-regex".toList) (h : E.regexNew value = .ok ()) :
      ParsesTo key value (.domainRegex value)
  | ipCidr {a : Ipv4Addr} {p : UInt8} (hkey : key = "ip-cidr".toList)
      (h : parseIpv4Cidr value = .ok (a, p)) : ParsesTo key value (.ipCidr a p)
  | ipCidr6 {a : Ipv6Addr} {p : UInt8} (hkey : key = "ip-cidr6".toList)
      (h : parseIpv6Cidr value = .ok (a, p)) : ParsesTo key value (.ipCidr6 a p)
  | port {lo hi : UInt16} (hkey : key = "port".toList)
      (h : parsePortRange value = .ok (lo, hi)) : ParsesTo key value (.port lo hi)

variable {E}

theorem validateDomainLen_eq (d : Str) (line : Nat) :
    validateDomainLen d line = .ok () ↔ (utf8 d).length ≤ 255 := by
  unfold validateDomainLen
  split
  · simp; omega
  · simp; omega

/-- **Rules.** `parseRule` accepts exactly what `ParsesTo` describes, whatever the line. -/
theorem parseRule_eq_ok_iff (line : Nat) (key value : Str) (r : RuleLine) :
    parseRule E line key value = .ok r ↔ ParsesTo E key value r := by
  constructor
  · intro h
    unfold parseRule at h
    -- One branch for each key; an unknown key is an error.
    split_ifs at h with h1 h2 h3 h4 h5 h6 h7
    · obtain ⟨_, hlen, hr⟩ := bind_eq_ok.mp h
      obtain rfl := Except.ok.inj hr
      exact .domain h1 ((validateDomainLen_eq _ _).mp hlen)
    · obtain ⟨_, hlen, hr⟩ := bind_eq_ok.mp h
      obtain rfl := Except.ok.inj hr
      exact .domainSuffix h2 ((validateDomainLen_eq _ _).mp hlen)
    · obtain rfl := Except.ok.inj h
      exact .domainKeyword h3
    · split at h
      · rename_i u hre
        obtain rfl := Except.ok.inj h
        exact .domainRegex h4 hre
      · exact absurd h (by simp)
    · obtain ⟨⟨a, p⟩, hcidr, hr⟩ := bind_eq_ok.mp h
      obtain rfl := Except.ok.inj hr
      exact .ipCidr h5 hcidr
    · obtain ⟨⟨a, p⟩, hcidr, hr⟩ := bind_eq_ok.mp h
      obtain rfl := Except.ok.inj hr
      exact .ipCidr6 h6 hcidr
    · obtain ⟨⟨lo, hi⟩, hport, hr⟩ := bind_eq_ok.mp h
      obtain rfl := Except.ok.inj hr
      exact .port h7 hport
  · intro h
    -- The keys are distinct, so the branches before the right one are passed by.
    cases h with
    | domain hkey h =>
      subst hkey
      rw [parseRule, if_pos rfl]
      exact bind_eq_ok.mpr ⟨(), (validateDomainLen_eq _ _).mpr h, rfl⟩
    | domainSuffix hkey h =>
      subst hkey
      rw [parseRule, if_neg (by decide), if_pos rfl]
      exact bind_eq_ok.mpr ⟨(), (validateDomainLen_eq _ _).mpr h, rfl⟩
    | domainKeyword hkey =>
      subst hkey
      rw [parseRule, if_neg (by decide), if_neg (by decide), if_pos rfl]
    | domainRegex hkey h =>
      subst hkey
      rw [parseRule, if_neg (by decide), if_neg (by decide), if_neg (by decide), if_pos rfl, h]
    | ipCidr hkey h =>
      subst hkey
      rw [parseRule, if_neg (by decide), if_neg (by decide), if_neg (by decide),
        if_neg (by decide), if_pos rfl]
      exact bind_eq_ok.mpr ⟨_, h, rfl⟩
    | ipCidr6 hkey h =>
      subst hkey
      rw [parseRule, if_neg (by decide), if_neg (by decide), if_neg (by decide),
        if_neg (by decide), if_neg (by decide), if_pos rfl]
      exact bind_eq_ok.mpr ⟨_, h, rfl⟩
    | port hkey h =>
      subst hkey
      rw [parseRule, if_neg (by decide), if_neg (by decide), if_neg (by decide),
        if_neg (by decide), if_neg (by decide), if_neg (by decide), if_pos rfl]
      exact bind_eq_ok.mpr ⟨_, h, rfl⟩

/-- An entry stands for at most one rule. -/
theorem ParsesTo.unique {key value : Str} {r r' : RuleLine} (h : ParsesTo E key value r)
    (h' : ParsesTo E key value r') : r = r' :=
  Except.ok.inj (((parseRule_eq_ok_iff 0 key value r).mpr h).symm.trans
    ((parseRule_eq_ok_iff 0 key value r').mpr h'))

/-- An accepted line is no entry, or an entry that stands for the rule returned. -/
theorem parseLine_ok {line : Nat} {raw : Str} {r : Option RuleLine}
    (h : parseLine E line raw = .ok r) :
    (lineEntry raw = none ∧ r = none) ∨
      ∃ e rule, lineEntry raw = some e ∧ r = some rule ∧ ParsesTo E e.1 e.2 rule := by
  simp only [parseLine] at h
  split at h
  · -- A blank line or a comment.
    rename_i hblank
    obtain rfl := Except.ok.inj h
    exact .inl ⟨by rw [lineEntry]; exact if_pos hblank, rfl⟩
  · rename_i hblank
    split at h
    · rename_i k v hsplit
      rcases hrule : parseRule E line (trim k) (trim v) with e | rule
      · rw [hrule] at h
        exact absurd h (by simp [Except.map])
      · rw [hrule] at h
        obtain rfl : some rule = r := Except.ok.inj h
        refine .inr ⟨(trim k, trim v), rule, ?_, rfl, (parseRule_eq_ok_iff line _ _ _).mp hrule⟩
        simp only [lineEntry]
        rw [if_neg hblank, hsplit]
        rfl
    · exact absurd h (by simp)

/-- **The line loop.** Where `from_text` accepts the text, every entry stands for one rule and
    these rules are pushed in order. -/
theorem fromTextGo_ok {lineno : Nat} {raws : List Str} {out c : CompiledRuleSet}
    (h : fromTextGo E lineno raws out = .ok c) :
    ∃ rules, List.Forall₂ (fun e r => ParsesTo E e.1 e.2 r) (raws.filterMap lineEntry) rules ∧
      c = rules.foldl CompiledRuleSet.push out := by
  induction raws generalizing lineno out with
  | nil =>
    obtain rfl := Except.ok.inj h
    exact ⟨[], .nil, rfl⟩
  | cons raw raws ih =>
    rw [fromTextGo] at h
    rcases hline : parseLine E (lineno + 1) raw with e | r
    · simp [hline] at h
    · rw [hline] at h
      -- The line adds nothing, or one entry and the rule it stands for.
      rcases parseLine_ok hline with ⟨hnone, rfl⟩ | ⟨e, rule, hsome, rfl, hparse⟩
      · obtain ⟨rules, hall, hc⟩ := ih h
        exact ⟨rules, by rwa [List.filterMap_cons_none hnone], hc⟩
      · obtain ⟨rules, hall, hc⟩ := ih h
        refine ⟨rule :: rules, ?_, hc⟩
        rw [List.filterMap_cons_some hsome]
        exact .cons hparse hall

/-! ### The rules a compiled rule set holds -/

/-- The rule is in the list of its kind. -/
def CompiledRuleSet.Holds (c : CompiledRuleSet) : RuleLine → Prop
  | .domain d => d ∈ c.domains
  | .domainSuffix d => d ∈ c.domainSuffixes
  | .domainKeyword k => k ∈ c.domainKeywords
  | .domainRegex r => r ∈ c.domainRegexes
  | .ipCidr a p => (a, p) ∈ c.ipv4Cidrs
  | .ipCidr6 a p => (a, p) ∈ c.ipv6Cidrs
  | .port lo hi => (lo, hi) ∈ c.ports

@[simp] theorem CompiledRuleSet.not_holds_empty (r : RuleLine) : ¬ ({} : CompiledRuleSet).Holds r := by
  cases r <;> simp [Holds]

@[simp] theorem CompiledRuleSet.holds_push (c : CompiledRuleSet) (r q : RuleLine) :
    (c.push r).Holds q ↔ c.Holds q ∨ q = r := by
  cases r <;> cases q <;> simp [push, Holds]

theorem CompiledRuleSet.holds_foldl_push (rules : List RuleLine) (c : CompiledRuleSet)
    (q : RuleLine) : (rules.foldl push c).Holds q ↔ c.Holds q ∨ q ∈ rules := by
  induction rules generalizing c with
  | nil => simp
  | cons r rules ih => rw [List.foldl_cons, ih, holds_push, List.mem_cons, or_assoc]

/-- The rules of a list of entries are the rules some entry stands for. -/
theorem mem_rules_iff {es : List (Str × Str)} {rules : List RuleLine}
    (hall : List.Forall₂ (fun e r => ParsesTo E e.1 e.2 r) es rules) (q : RuleLine) :
    q ∈ rules ↔ ∃ e ∈ es, ParsesTo E e.1 e.2 q := by
  induction hall with
  | nil => simp
  | @cons e r es rules hparse _ ih =>
    rw [List.mem_cons, ih]
    constructor
    · rintro (rfl | ⟨e', he', hq⟩)
      · exact ⟨e, by simp, hparse⟩
      · exact ⟨e', by simp [he'], hq⟩
    · rintro ⟨e', he', hq⟩
      rcases List.mem_cons.mp he' with rfl | he'
      · -- The same entry cannot stand for two rules.
        exact .inl (hq.unique hparse)
      · exact .inr ⟨e', he', hq⟩

/-- **Rule texts.** The compiled rule set of an accepted text holds exactly the rules its
    entries stand for. -/
theorem holds_iff_of_fromText {src : Str} {c : CompiledRuleSet}
    (h : CompiledRuleSet.fromText E src = .ok c) (q : RuleLine) :
    c.Holds q ↔ ∃ e ∈ entries src, ParsesTo E e.1 e.2 q := by
  obtain ⟨rules, hall, rfl⟩ := fromTextGo_ok h
  rw [CompiledRuleSet.holds_foldl_push, mem_rules_iff hall]
  simp only [CompiledRuleSet.not_holds_empty, false_or]
  rfl

/-! ### The lists in order -/

/-- The rules that `proj` reads, where it reads of a rule what `f` reads of its entry. -/
theorem filterMap_rules {β : Type} {proj : RuleLine → Option β} {f : Str × Str → Option β}
    (h : ∀ {key value r}, ParsesTo E key value r → proj r = f (key, value))
    {es : List (Str × Str)} {rules : List RuleLine}
    (hall : List.Forall₂ (fun e r => ParsesTo E e.1 e.2 r) es rules) :
    rules.filterMap proj = es.filterMap f := by
  induction hall with
  | nil => rfl
  | cons hparse _ ih => rw [List.filterMap_cons, List.filterMap_cons, h hparse, ih]

/-- A list of a rule set to which `push` appends what `proj` reads of a rule. -/
theorem foldl_push_proj {β : Type} {list : CompiledRuleSet → List β} {proj : RuleLine → Option β}
    (h : ∀ c r, list (c.push r) = list c ++ (proj r).toList) (rules : List RuleLine)
    (c : CompiledRuleSet) :
    list (rules.foldl CompiledRuleSet.push c) = list c ++ rules.filterMap proj := by
  induction rules generalizing c with
  | nil => simp
  | cons r rules ih =>
    rw [List.foldl_cons, ih, h, List.append_assoc, List.filterMap_cons]
    rcases proj r <;> rfl

/-- The values of the entries with a key. -/
def valuesOf (key : Str) (es : List (Str × Str)) : List Str :=
  es.filterMap fun e => if e.1 = key then some e.2 else none

private theorem list_of_fromText {list : CompiledRuleSet → List Str} (proj : RuleLine → Option Str)
    (hempty : list {} = []) (hpush : ∀ c r, list (c.push r) = list c ++ (proj r).toList)
    {key : Str} {conv : Str → Str}
    (hproj : ∀ {k v r}, ParsesTo E k v r → proj r = if k = key then some (conv v) else none)
    {src : Str} {c : CompiledRuleSet} (h : CompiledRuleSet.fromText E src = .ok c) :
    list c = (valuesOf key (entries src)).map conv := by
  obtain ⟨rules, hall, rfl⟩ := fromTextGo_ok h
  rw [foldl_push_proj hpush, hempty, List.nil_append,
    filterMap_rules (f := fun e => if e.1 = key then some (conv e.2) else none) hproj hall,
    valuesOf, List.map_filterMap, entries]
  refine List.filterMap_congr fun e _ => ?_
  split <;> rfl

theorem domains_of_fromText {src : Str} {c : CompiledRuleSet}
    (h : CompiledRuleSet.fromText E src = .ok c) :
    c.domains = (valuesOf "domain".toList (entries src)).map toAsciiLowercase := by
  refine list_of_fromText
    (fun r => match r with | .domain d => some d | _ => none) rfl ?_ ?_ h
  · intro c r
    cases r <;> simp [CompiledRuleSet.push]
  · intro k v r hparse
    cases hparse <;> subst_vars <;> rfl

theorem domainSuffixes_of_fromText {src : Str} {c : CompiledRuleSet}
    (h : CompiledRuleSet.fromText E src = .ok c) :
    c.domainSuffixes = (valuesOf "domain-suffix".toList (entries src)).map
      fun v => toAsciiLowercase (trimStartMatches '.' v) := by
  refine list_of_fromText
    (fun r => match r with | .domainSuffix d => some d | _ => none) rfl ?_ ?_ h
  · intro c r
    cases r <;> simp [CompiledRuleSet.push]
  · intro k v r hparse
    cases hparse <;> subst_vars <;> rfl

theorem domainKeywords_of_fromText {src : Str} {c : CompiledRuleSet}
    (h : CompiledRuleSet.fromText E src = .ok c) :
    c.domainKeywords = (valuesOf "domain-keyword".toList (entries src)).map toAsciiLowercase := by
  refine list_of_fromText
    (fun r => match r with | .domainKeyword k => some k | _ => none) rfl ?_ ?_ h
  · intro c r
    cases r <;> simp [CompiledRuleSet.push]
  · intro k v r hparse
    cases hparse <;> subst_vars <;> rfl

/-! ### Counting rules -/

/-- The kinds of rules. -/
inductive RuleKind where
  | domain | domainSuffix | domainKeyword | domainRegex | ipCidr | ipCidr6 | port
  deriving DecidableEq

/-- The key a kind of rule is written with. -/
def RuleKind.key : RuleKind → Str
  | .domain => "domain".toList
  | .domainSuffix => "domain-suffix".toList
  | .domainKeyword => "domain-keyword".toList
  | .domainRegex => "domain-regex".toList
  | .ipCidr => "ip-cidr".toList
  | .ipCidr6 => "ip-cidr6".toList
  | .port => "port".toList

theorem RuleKind.key_injective : Function.Injective RuleKind.key := by
  intro a b h
  cases a <;> cases b <;> first | rfl | exact absurd h (by decide)

/-- The kind of a rule. -/
def RuleLine.kind : RuleLine → RuleKind
  | .domain _ => .domain
  | .domainSuffix _ => .domainSuffix
  | .domainKeyword _ => .domainKeyword
  | .domainRegex _ => .domainRegex
  | .ipCidr _ _ => .ipCidr
  | .ipCidr6 _ _ => .ipCidr6
  | .port _ _ => .port

theorem ParsesTo.key_eq {key value : Str} {r : RuleLine} (h : ParsesTo E key value r) :
    key = r.kind.key := by
  cases h <;> assumption

/-- Every entry of an accepted text stands for a rule of its kind. -/
theorem exists_rule_of_entry {src : Str} {c : CompiledRuleSet}
    (h : CompiledRuleSet.fromText E src = .ok c) {e : Str × Str} (he : e ∈ entries src)
    {k : RuleKind} (hkey : e.1 = k.key) : ∃ r, r.kind = k ∧ ParsesTo E e.1 e.2 r := by
  obtain ⟨rules, hall, -⟩ := fromTextGo_ok h
  obtain ⟨r, hr⟩ : ∃ r, ParsesTo E e.1 e.2 r := by
    rw [entries] at he
    -- Induction over the entries paired with their rules.
    generalize (lines src).filterMap lineEntry = es at hall he
    induction hall with
    | nil => exact absurd he List.not_mem_nil
    | cons hparse _ ih =>
      rcases List.mem_cons.mp he with rfl | he
      · exact ⟨_, hparse⟩
      · exact ih he
  exact ⟨r, RuleKind.key_injective (hr.key_eq.symm.trans hkey), hr⟩

/-- The number of rules of a kind that a rule set holds. -/
def CompiledRuleSet.count (c : CompiledRuleSet) : RuleKind → Nat
  | .domain => c.domains.length
  | .domainSuffix => c.domainSuffixes.length
  | .domainKeyword => c.domainKeywords.length
  | .domainRegex => c.domainRegexes.length
  | .ipCidr => c.ipv4Cidrs.length
  | .ipCidr6 => c.ipv6Cidrs.length
  | .port => c.ports.length

theorem CompiledRuleSet.count_push (c : CompiledRuleSet) (r : RuleLine) (k : RuleKind) :
    (c.push r).count k = c.count k + if r.kind = k then 1 else 0 := by
  cases r <;> cases k <;> simp [push, count, RuleLine.kind]

/-- The number of entries with the key of a kind. -/
def countEntries (src : Str) (k : RuleKind) : Nat := (entries src).countP fun e => e.1 = k.key

/-- **Counting.** An accepted text gives as many rules of a kind as it has entries with its
    key. -/
theorem count_of_fromText {src : Str} {c : CompiledRuleSet}
    (h : CompiledRuleSet.fromText E src = .ok c) (k : RuleKind) :
    c.count k = countEntries src k := by
  obtain ⟨rules, hall, rfl⟩ := fromTextGo_ok h
  -- Each push adds one to the count of its kind, and each entry is of the kind its key says.
  have hfold : ∀ (rs : List RuleLine) (out : CompiledRuleSet),
      (rs.foldl CompiledRuleSet.push out).count k
        = out.count k + rs.countP fun r => r.kind = k := by
    intro rs
    induction rs with
    | nil => simp
    | cons r rs ih =>
      intro out
      rw [List.foldl_cons, ih, CompiledRuleSet.count_push, List.countP_cons]
      simp
      omega
  have hempty : ({} : CompiledRuleSet).count k = 0 := by cases k <;> rfl
  have hcount : ∀ {es : List (Str × Str)} {rs : List RuleLine},
      List.Forall₂ (fun e r => ParsesTo E e.1 e.2 r) es rs →
        (rs.countP fun r => r.kind = k) = es.countP fun e => e.1 = k.key := by
    intro es rs hall
    induction hall with
    | nil => rfl
    | cons hparse _ ih =>
      rw [List.countP_cons, List.countP_cons, ih, hparse.key_eq]
      simp [RuleKind.key_injective.eq_iff]
  rw [hfold, hempty, Nat.zero_add, hcount hall, countEntries, entries]

end Reflex.Ruleset
