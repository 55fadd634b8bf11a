import Reflex.RustStd.Slice
import Reflex.Ruleset.Format

namespace Reflex.Ruleset

open RustStd

/-!
# Rule sets — the compiler

`ruleset/compiler.rs`: rule texts (`CompiledRuleSet.fromText`) and sing-box source rule sets
(`CompiledRuleSet.fromSingboxJson`) become a `CompiledRuleSet`, which `serialize` writes in the `.rrs` format.

* `RuleLine` — one rule once its text has been accepted; both front ends hand the accepted rules to
  `CompiledRuleSet.push` in source order;
* `parseRule` — the checks on one rule: lengths of names, networks, port ranges;
* `ingestSingboxRule` — a rule of the JSON format with its rules inside, of which the lists are stored together;
* `buildDomainFst`, `buildSuffixFst` — the sorted keys of names and, backwards, of suffixes;
* `encodeStrings` and the like — the data of a section; the lengths of strings are cut to 16 bits.
-/

/-! ### Parsing helpers -/

/-- `validate_domain_len`. -/
def validateDomainLen (domain : Str) (line : Nat) : Except RuleSetError Unit :=
  if 255 < (utf8 domain).length then
    .error (.parseError line ("domain too long (".toList ++ display (utf8 domain).length
      ++ "): '".toList ++ domain ++ "'".toList))
  else .ok ()

/-- The shared body of `mask_ipv4` and `mask_ipv6`: clear the host bits. -/
def maskAddr {w : Nat} (addr : BitVec w) (pre : UInt8) : BitVec w :=
  if pre = 0 then 0 else addr &&& (BitVec.allOnes w <<< (w - pre.toNat))

/-- `mask_ipv4`. -/
def maskIpv4 (addr : Ipv4Addr) (pre : UInt8) : Ipv4Addr := maskAddr addr pre

/-- `mask_ipv6`. -/
def maskIpv6 (addr : Ipv6Addr) (pre : UInt8) : Ipv6Addr := maskAddr addr pre

/-- The shared body of `parse_ipv4_cidr` and `parse_ipv6_cidr`; the messages are those of the
    address parser and of the prefix check. -/
def parseCidr {w : Nat} (fromStr : Str → Option (BitVec w))
    (mask : BitVec w → UInt8 → BitVec w) (addrMsg preMsg : Str) (s : Str) :
    Except RuleSetError (BitVec w × UInt8) :=
  match splitOnce '/' s with
  | none => .error (.invalidCidr s "missing '/'".toList)
  | some (addrStr, preStr) =>
      match fromStr addrStr with
      | none => .error (.invalidCidr s addrMsg)
      | some addr =>
          match parseU8 preStr with
          | none => .error (.invalidCidr s "invalid prefix length".toList)
          | some pre =>
              if w < pre.toNat then .error (.invalidCidr s preMsg) else .ok (mask addr pre, pre)

/-- `parse_ipv4_cidr`. -/
def parseIpv4Cidr (s : Str) : Except RuleSetError (Ipv4Addr × UInt8) :=
  parseCidr Ipv4Addr.fromStr maskIpv4 "invalid IPv4 address syntax".toList
    "IPv4 prefix must be 0–32".toList s

/-- `parse_ipv6_cidr`. -/
def parseIpv6Cidr (s : Str) : Except RuleSetError (Ipv6Addr × UInt8) :=
  parseCidr Ipv6Addr.fromStr maskIpv6 "invalid IPv6 address syntax".toList
    "IPv6 prefix must be 0–128".toList s

/-- The shared body of the two port-range parsers: both ends of a split range. -/
def parsePortEnds (s startS endS : Str) : Except RuleSetError (UInt16 × UInt16) := do
  let some lo := parseU16 (trim startS) | .error (.invalidPort s)
  let some hi := parseU16 (trim endS) | .error (.invalidPort s)
  if hi < lo then .error (.invalidPort s) else .ok (lo, hi)

/-- `parse_port_range`. -/
def parsePortRange (s : Str) : Except RuleSetError (UInt16 × UInt16) :=
  match splitOnce '-' s with
  | some (startS, endS) => parsePortEnds s startS endS
  | none =>
      match parseU16 (trim s) with
      | some port => .ok (port, port)
      | none => .error (.invalidPort s)

/-- `parse_singbox_port_range`. -/
def parseSingboxPortRange (s : Str) : Except RuleSetError (UInt16 × UInt16) :=
  match splitOnce ':' s with
  | some (startS, endS) => parsePortEnds s startS endS
  | none => parsePortRange s

/-! ### The compiled rule set -/

/-- `CompiledRuleSet`. -/
structure CompiledRuleSet where
  domains : List Str := []
  domainSuffixes : List Str := []
  domainKeywords : List Str := []
  domainRegexes : List Str := []
  ipv4Cidrs : List (Ipv4Addr × UInt8) := []
  ipv6Cidrs : List (Ipv6Addr × UInt8) := []
  ports : List (UInt16 × UInt16) := []
  deriving DecidableEq

/-- One accepted rule, ready to be stored. -/
inductive RuleLine where
  | domain (d : Str)
  | domainSuffix (d : Str)
  | domainKeyword (k : Str)
  | domainRegex (r : Str)
  | ipCidr (addr : Ipv4Addr) (pre : UInt8)
  | ipCidr6 (addr : Ipv6Addr) (pre : UInt8)
  | port (lo hi : UInt16)
  deriving DecidableEq

/-- Append one accepted rule to the list of its kind. -/
def CompiledRuleSet.push (out : CompiledRuleSet) : RuleLine → CompiledRuleSet
  | .domain d => { out with domains := out.domains ++ [d] }
  | .domainSuffix d => { out with domainSuffixes := out.domainSuffixes ++ [d] }
  | .domainKeyword k => { out with domainKeywords := out.domainKeywords ++ [k] }
  | .domainRegex r => { out with domainRegexes := out.domainRegexes ++ [r] }
  | .ipCidr a p => { out with ipv4Cidrs := out.ipv4Cidrs ++ [(a, p)] }
  | .ipCidr6 a p => { out with ipv6Cidrs := out.ipv6Cidrs ++ [(a, p)] }
  | .port lo hi => { out with ports := out.ports ++ [(lo, hi)] }

variable (E : Externals)

/-! ### Rule texts -/

/-- The rule `key: value` of line `line`. -/
def parseRule (line : Nat) (key value : Str) : Except RuleSetError RuleLine :=
  if key = "domain".toList then do
    validateDomainLen value line
    return .domain (toAsciiLowercase value)
  else if key = "domain-suffix".toList then do
    -- the leading dots are not counted against the limit
    let v := trimStartMatches '.' value
    validateDomainLen v line
    return .domainSuffix (toAsciiLowercase v)
  else if key = "domain-keyword".toList then .ok (.domainKeyword (toAsciiLowercase value))
  else if key = "domain-regex".toList then
    match E.regexNew value with
    | .ok _ => .ok (.domainRegex value)
    | .error e => .error (.invalidRegex value e)
  else if key = "ip-cidr".toList then do
    let (addr, pre) ← parseIpv4Cidr value
    return .ipCidr addr pre
  else if key = "ip-cidr6".toList then do
    let (addr, pre) ← parseIpv6Cidr value
    return .ipCidr6 addr pre
  else if key = "port".toList then do
    let (lo, hi) ← parsePortRange value
    return .port lo hi
  else .error (.parseError line ("unknown rule type '".toList ++ key ++ "'".toList))

/-- One line of a rule text: nothing for a blank line or a comment. -/
def parseLine (line : Nat) (raw : Str) : Except RuleSetError (Option RuleLine) :=
  -- comments are whole lines: a `#` behind a rule belongs to its value
  let trimmed := trim raw
  if trimmed = [] ∨ trimmed.head? = some '#' then .ok none
  else
    match splitOnce ':' trimmed with
    | some (k, v) => (parseRule E line (trim k) (trim v)).map some
    | none =>
        .error (.parseError line ("expected 'key: value', got '".toList ++ trimmed ++ "'".toList))

/-- The loop of `from_text` over the remaining lines; `lineno` lines have been read. -/
def fromTextGo : Nat → List Str → CompiledRuleSet → Except RuleSetError CompiledRuleSet
  | _, [], out => .ok out
  | lineno, raw :: raws, out =>
      match parseLine E (lineno + 1) raw with
      | .error e => .error e
      | .ok none => fromTextGo (lineno + 1) raws out
      | .ok (some rule) => fromTextGo (lineno + 1) raws (out.push rule)

/-- `CompiledRuleSet::from_text`. -/
def CompiledRuleSet.fromText (src : Str) : Except RuleSetError CompiledRuleSet :=
  fromTextGo E 0 (lines src) {}

/-! ### sing-box source rule sets -/

/-- `SingBoxRule`. -/
structure SingBoxRule where
  domain : List Str
  domainSuffix : List Str
  domainKeyword : List Str
  domainRegex : List Str
  ipCidr : List Str
  port : List UInt16
  portRange : List Str
  subRules : List JsonValue

/-- `String` from a JSON value. -/
def JsonValue.toStr? : JsonValue → Option Str
  | .string s => some s
  | _ => none

/-- `u16` from a JSON value. -/
def JsonValue.toU16? : JsonValue → Option UInt16
  | .number (.posInt n) => if n < 65536 then some (UInt16.ofNat n) else none
  | _ => none

/-- `string_or_vec`: a bare string stands for the list that holds it. -/
def stringOrVec : JsonValue → Option (List Str)
  | .string s => some [s]
  | .array elems => elems.mapM JsonValue.toStr?
  | _ => none

/-- A field with `#[serde(default)]`: a missing one is the empty list. -/
def fieldOrDefault {α : Type} (de : JsonValue → Option (List α)) : Option JsonValue → Option (List α)
  | none => some []
  | some v => de v

/-- `Vec<Value>` from a JSON value. -/
def JsonValue.toArray? : JsonValue → Option (List JsonValue)
  | .array elems => some elems
  | _ => none

/-- The derived `Deserialize` of `SingBoxRule`, given how to find each field. -/
def SingBoxRule.ofFields (get : Nat → Option JsonValue) : Option SingBoxRule := do
  let domain ← fieldOrDefault stringOrVec (get 0)
  let domainSuffix ← fieldOrDefault stringOrVec (get 1)
  let domainKeyword ← fieldOrDefault stringOrVec (get 2)
  let domainRegex ← fieldOrDefault stringOrVec (get 3)
  let ipCidr ← fieldOrDefault stringOrVec (get 4)
  let port ← fieldOrDefault (fun v => v.toArray?.bind fun es => es.mapM JsonValue.toU16?) (get 5)
  let portRange ← fieldOrDefault stringOrVec (get 6)
  let subRules ← fieldOrDefault JsonValue.toArray? (get 7)
  return { domain, domainSuffix, domainKeyword, domainRegex, ipCidr, port, portRange, subRules }

/-- The JSON names of the fields of `SingBoxRule`, in order. -/
def singBoxFieldNames : List Str :=
  ["domain".toList, "domain_suffix".toList, "domain_keyword".toList, "domain_regex".toList,
   "ip_cidr".toList, "port".toList, "port_range".toList, "rules".toList]

/-- `serde_json::from_value::<SingBoxRule>`: a struct is read from an object by field name
    (unknown fields are skipped) or from an array by position. -/
def SingBoxRule.fromValue : JsonValue → Option SingBoxRule
  | .object fields => ofFields fun i => singBoxFieldNames[i]?.bind fun name => fields.lookup name
  | .array elems => if elems.length ≤ 8 then ofFields fun i => elems[i]? else none
  | _ => none

/-- The rules of one sing-box rule apart from its sub-rules, in the order in which
    `ingest_singbox_rule` stores them. -/
def SingBoxRule.ruleLines (rule : SingBoxRule) : Except RuleSetError (List RuleLine) := do
  let domains ← rule.domain.mapM fun d => do
    let lower := toAsciiLowercase (trim d)
    validateDomainLen lower 0
    return RuleLine.domain lower
  let suffixes ← rule.domainSuffix.mapM fun d => do
    let v := toAsciiLowercase (trimStartMatches '.' (trim d))
    validateDomainLen v 0
    return RuleLine.domainSuffix v
  let keywords := rule.domainKeyword.map fun k => RuleLine.domainKeyword (toAsciiLowercase (trim k))
  let regexes ← rule.domainRegex.mapM fun r =>
    match E.regexNew r with
    | .ok _ => Except.ok (RuleLine.domainRegex r)
    | .error e => Except.error (.invalidRegex r e)
  let cidrs ← rule.ipCidr.mapM fun c => do
    let c := trim c
    -- the family is told by the colon, before either parser runs
    if ':' ∈ c then
      let (addr, pre) ← parseIpv6Cidr c
      return RuleLine.ipCidr6 addr pre
    else
      let (addr, pre) ← parseIpv4Cidr c
      return RuleLine.ipCidr addr pre
  let ports := rule.port.map fun p => RuleLine.port p p
  let ranges ← rule.portRange.mapM fun pr => do
    let (lo, hi) ← parseSingboxPortRange pr
    return RuleLine.port lo hi
  return domains ++ suffixes ++ keywords ++ regexes ++ cidrs ++ ports ++ ranges

private theorem sizeOf_lookup_lt (name : Str) (fields : List (Str × JsonValue)) (v : JsonValue)
    (h : fields.lookup name = some v) : sizeOf v < sizeOf fields := by
  -- `lookup` returns a value of the list, which is smaller than the list
  induction fields with
  | nil => simp at h
  | cons f fields ih =>
    obtain ⟨k, w⟩ := f
    rw [List.lookup_cons] at h
    simp only [List.cons.sizeOf_spec, Prod.mk.sizeOf_spec]
    split at h
    · obtain rfl := Option.some.inj h
      omega
    · have := ih h
      omega

private theorem subRules_ofFields {get : Nat → Option JsonValue} {rule : SingBoxRule}
    (h : SingBoxRule.ofFields get = some rule) {sub : JsonValue} (hsub : sub ∈ rule.subRules) :
    ∃ elems, get 7 = some (.array elems) ∧ sub ∈ elems := by
  simp only [SingBoxRule.ofFields, Option.bind_eq_bind, Option.bind_eq_some_iff, Option.pure_def,
    Option.some.injEq] at h
  obtain ⟨_, _, _, _, _, _, _, _, _, _, _, _, _, _, subs, hsubs, rfl⟩ := h
  -- a missing `rules` field is empty, a present one has to be an array
  rcases hget : get 7 with _ | v
  · simp [hget, fieldOrDefault] at hsubs
    simp [hsubs] at hsub
  · rw [hget] at hsubs
    cases v <;> simp [fieldOrDefault, JsonValue.toArray?] at hsubs
    subst hsubs
    exact ⟨_, rfl, hsub⟩

/-- Sub-rules are proper parts of the value the rule was read from. -/
theorem SingBoxRule.sizeOf_subRules_lt {v : JsonValue} {rule : SingBoxRule}
    (h : fromValue v = some rule) {sub : JsonValue} (hsub : sub ∈ rule.subRules) :
    sizeOf sub < sizeOf v := by
  cases v <;> simp only [fromValue, reduceCtorEq] at h
  case object fields =>
    obtain ⟨elems, hget, hmem⟩ := subRules_ofFields h hsub
    have hlt := sizeOf_lookup_lt _ fields _ (by simpa [singBoxFieldNames] using hget)
    have := List.sizeOf_lt_of_mem hmem
    simp only [JsonValue.array.sizeOf_spec, JsonValue.object.sizeOf_spec] at hlt ⊢
    omega
  case array elems =>
    split at h
    · obtain ⟨inner, hget, hmem⟩ := subRules_ofFields h hsub
      have hlt := List.sizeOf_lt_of_mem (List.mem_of_getElem? hget)
      have := List.sizeOf_lt_of_mem hmem
      simp only [JsonValue.array.sizeOf_spec] at hlt ⊢
      omega
    · exact absurd h (by simp)

/-- `from_value` and `ingest_singbox_rule` on one value: first the sub-rules, then the rule's
    own fields; `what` starts the message of a value that is no rule. -/
def ingestSingboxRule (what : Str) (v : JsonValue) (out : CompiledRuleSet) :
    Except RuleSetError CompiledRuleSet :=
  match _h : SingBoxRule.fromValue v with
  | none => .error (.parseError 0 (what ++ E.serdeMessage v))
  | some rule => do
      -- a logical rule is flattened: its mode is not read, its parts go to the same lists
      let out ← rule.subRules.attach.foldlM
        (fun out sub => ingestSingboxRule "sing-box sub-rule 解析失败: ".toList sub.1 out) out
      let rules ← rule.ruleLines E
      return rules.foldl CompiledRuleSet.push out
termination_by sizeOf v
decreasing_by exact SingBoxRule.sizeOf_subRules_lt ‹_› sub.2

/-- `CompiledRuleSet::from_singbox_json`. -/
def CompiledRuleSet.fromSingboxJson (src : Str) : Except RuleSetError CompiledRuleSet :=
  match E.singBoxEnvelope src with
  | .error e => .error (.parseError 0 ("sing-box JSON 解析失败: ".toList ++ e))
  | .ok rules =>
      rules.foldlM (fun out v => ingestSingboxRule E "sing-box rule 解析失败: ".toList v out) {}

/-! ### FST keys -/

/-- `domain_to_fst_key`: the labels in reverse order. -/
def domainToFstKey (domain : Str) : Str := join ['.'] (domain.splitOn '.').reverse

/-- `suffix_to_fst_key`: the labels in reverse order, and a trailing dot. -/
def suffixToFstKey (domain : Str) : Str := join ['.'] (domain.splitOn '.').reverse ++ ['.']

/-- `keys.sort_unstable(); keys.dedup();`: strings are compared byte by byte. -/
def sortedKeys (keys : List Str) : List Str :=
  dedup (keys.mergeSort fun a b => decide (utf8 a ≤ utf8 b))

/-- The shared body of `build_domain_fst` and `build_suffix_fst`. -/
def buildFst (toKey : Str → Str) (names : List Str) : Except RuleSetError Bytes :=
  if names = [] then .ok []
  else
    match E.fstBuild ((sortedKeys (names.map toKey)).map utf8) with
    | .ok buf => .ok buf
    | .error e => .error (.parseError 0 e)

@[simp] theorem mem_sortedKeys {k : Str} {keys : List Str} : k ∈ sortedKeys keys ↔ k ∈ keys := by
  rw [sortedKeys, mem_dedup, List.mem_mergeSort]

theorem sortedKeys_ne_nil {keys : List Str} (h : keys ≠ []) : sortedKeys keys ≠ [] := by
  obtain ⟨k, hk⟩ := List.exists_mem_of_ne_nil keys h
  exact List.ne_nil_of_mem (mem_sortedKeys.mpr hk)

/-- The keys reach the FST builder in strictly increasing byte order. -/
theorem pairwise_sortedKeys (keys : List Str) :
    ((sortedKeys keys).map utf8).Pairwise (· < ·) := by
  -- `List.le` on bytes is total and transitive, so the sort sorts
  have hsorted : (keys.mergeSort fun a b => decide (utf8 a ≤ utf8 b)).Pairwise
      fun a b => utf8 a ≤ utf8 b := by
    refine (List.pairwise_mergeSort ?_ ?_ keys).imp (by simp)
    · intro a b c hab hbc
      simp only [decide_eq_true_eq] at hab hbc ⊢
      exact List.le_trans hab hbc
    · intro a b
      simpa using List.le_total (utf8 a) (utf8 b)
  rw [List.pairwise_map]
  refine pairwise_dedup (fun a b hab hba => ?_) (fun a b hab hne => ?_) hsorted
  · exact utf8_injective (List.le_antisymm hab hba)
  · -- distinct neighbours have distinct encodings
    have hne' : utf8 a ≠ utf8 b := fun h => hne (utf8_injective h)
    exact (List.le_iff_lt_or_eq.mp hab).resolve_right hne'

/-- **Spec of the FST builders.** They succeed; no names give no bytes, and otherwise the
    bytes open to the set of the names' keys. -/
theorem buildFst_spec (hE : E.FstLawful) (toKey : Str → Str) (names : List Str) :
    ∃ bytes, buildFst E toKey names = .ok bytes ∧ (bytes = [] ↔ names = []) ∧
      (names ≠ [] → ∃ set, E.fstSetNew bytes = .ok set ∧
        ∀ k, set.contains k = true ↔ ∃ n ∈ names, utf8 (toKey n) = k) := by
  by_cases hnames : names = []
  · exact ⟨[], by simp [buildFst, hnames], by simp [hnames], fun h => absurd hnames h⟩
  · -- the `fst` crate is asked for a non-empty, strictly increasing list of keys
    have hkeys : (sortedKeys (names.map toKey)).map utf8 ≠ [] := by
      simpa using sortedKeys_ne_nil (by simpa using hnames)
    obtain ⟨bytes, set, hbuild, hne, hopen, hmem⟩ :=
      hE.build _ hkeys (pairwise_sortedKeys (names.map toKey))
    refine ⟨bytes, ?_, by simp [hne, hnames], fun _ => ⟨set, hopen, fun k => ?_⟩⟩
    · rw [buildFst, if_neg hnames, hbuild]
    · rw [hmem]
      simp

/-- `build_domain_fst`. -/
def buildDomainFst (domains : List Str) : Except RuleSetError Bytes :=
  buildFst E domainToFstKey domains

/-- `build_suffix_fst`. -/
def buildSuffixFst (suffixes : List Str) : Except RuleSetError Bytes :=
  buildFst E suffixToFstKey suffixes

/-! ### Serialization -/

/-- `encode_strings`: every string is preceded by `s.len() as u8`. -/
def encodeStrings (list : List Str) : Bytes :=
  list.flatMap fun s => UInt8.ofNat (utf8 s).length :: utf8 s

/-- `encode_ipv4_cidrs`. -/
def encodeIpv4Cidrs (list : List (Ipv4Addr × UInt8)) : Bytes :=
  list.flatMap fun e => e.1.octets ++ [e.2]

/-- `encode_ipv6_cidrs`. -/
def encodeIpv6Cidrs (list : List (Ipv6Addr × UInt8)) : Bytes :=
  list.flatMap fun e => e.1.octets ++ [e.2]

/-- `encode_ports`. -/
def encodePorts (list : List (UInt16 × UInt16)) : Bytes :=
  list.flatMap fun e => leBytes 2 e.1.toNat ++ leBytes 2 e.2.toNat

/-- The scan of `entry_count_for` over length-prefixed strings. -/
def countStrings : Bytes → Nat
  | [] => 0
  | len :: data => countStrings (data.drop len.toNat) + 1
termination_by data => data.length
decreasing_by simp only [List.length_drop, List.length_cons]; omega

/-- `entry_count_for`. -/
def entryCountFor (t : SectionType) (data : Bytes) : Nat :=
  match t with
  | .ipCidrV4 => data.length / ipv4EntryLen
  | .ipCidrV6 => data.length / ipv6EntryLen
  | .port => data.length / portEntryLen
  | _ => countStrings data

/-- One section as written: type, entry count, byte length (both `as u32`) and data. -/
def encodeSection (t : SectionType) (data : Bytes) : Bytes :=
  [t.toByte] ++ leBytes 4 (entryCountFor t data) ++ leBytes 4 data.length ++ data

/-- The non-empty sections of a rule set with the given FSTs, in writing order. -/
def CompiledRuleSet.sections (c : CompiledRuleSet) (domainFst suffixFst : Bytes) :
    List (SectionType × Bytes) :=
  [(.domainFst, domainFst), (.domainSuffixFst, suffixFst),
   (.domainKeyword, encodeStrings c.domainKeywords),
   (.domainRegex, encodeStrings c.domainRegexes),
   (.ipCidrV4, encodeIpv4Cidrs c.ipv4Cidrs), (.ipCidrV6, encodeIpv6Cidrs c.ipv6Cidrs),
   (.port, encodePorts c.ports)].filter fun s => !s.2.isEmpty

/-- `CompiledRuleSet::serialize`: the bytes written to `w`. -/
def CompiledRuleSet.serialize (c : CompiledRuleSet) : Except RuleSetError Bytes := do
  let domainFst ← buildDomainFst E c.domains
  let suffixFst ← buildSuffixFst E c.domainSuffixes
  let sections := c.sections domainFst suffixFst
  return magic ++ [version] ++ [0x00] ++ leBytes 4 sections.length ++ [0, 0, 0, 0]
    ++ sections.flatMap fun s => encodeSection s.1 s.2

end Reflex.Ruleset
