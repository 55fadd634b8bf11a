import Reflex.Ruleset.Loader
import Reflex.Ruleset.Trie

namespace Reflex.Ruleset

open RustStd

/-!
# Rule sets — the matcher

`ruleset/matcher.rs`: `RuleSet.fromLoaded` turns a loaded rule set into search structures and `RuleSet.matches`
queries them.

* `PortBitSet` — one bit for each port, in 1024 words;
* `IpRanges` — the networks of a family as ranges, sorted and merged, with a binary search over them;
* `DomainMatcher` — automata for names and suffixes, or the lists of a file of version 1;
* `RuleSet.fromText` — the whole way from a text to a rule set, which the rules of the router use;
* `LoadFault` — how `from_loaded` fails: with an error, or by a subtraction below zero, which a build with overflow
  checks turns into a panic.

A name is brought to lower case and loses its trailing dots before it is looked up (`normalizeDomain`).
-/

/-! ### Ports -/

/-- `PortBitSet`: 65536 bits in 1024 words. -/
structure PortBitSet where
  words : Vector (BitVec 64) 1024

/-- `PortBitSet::new`. -/
def PortBitSet.new : PortBitSet := ⟨Vector.replicate 1024 0⟩

/-- `(port >> 6) as usize`. -/
def portWord (port : UInt16) : Nat := port.toNat / 64

theorem portWord_lt (port : UInt16) : portWord port < 1024 := by
  have := port.toNat_lt
  unfold portWord
  omega

/-- `1u64 << (port & 63)`. -/
def portMask (port : UInt16) : BitVec 64 := 1#64 <<< (port.toNat % 64)

/-- `self.0[idx]` for the word of a port. -/
def PortBitSet.word (s : PortBitSet) (port : UInt16) : BitVec 64 :=
  have := portWord_lt port
  s.words[portWord port]

/-- `PortBitSet::set`. -/
def PortBitSet.set (s : PortBitSet) (port : UInt16) : PortBitSet :=
  ⟨s.words.set (portWord port) (s.word port ||| portMask port) (portWord_lt port)⟩

/-- `PortBitSet::set_range`: every port of `start..=end`. -/
def PortBitSet.setRange (s : PortBitSet) (lo hi : UInt16) : PortBitSet :=
  (List.range' lo.toNat (hi.toNat + 1 - lo.toNat)).foldl (fun s p => s.set (UInt16.ofNat p)) s

/-- `PortBitSet::contains`. -/
def PortBitSet.contains (s : PortBitSet) (port : UInt16) : Bool :=
  s.word port &&& portMask port != 0

/-! ### Address ranges -/

/-- `IpRanges`: intervals `(lo, hi)` in ascending order of `lo`. -/
structure IpRanges (α : Type) where
  ranges : List (α × α)

section IpRanges

variable {α : Type} [LinearOrder α]

/-- The loop of `merge_ranges`; `last` is the interval at the end of `out`. -/
def mergeRangesGo (last : α × α) : List (α × α) → List (α × α)
  | [] => [last]
  | (lo, hi) :: rest =>
      -- adjacent intervals are not joined, only overlapping ones
      if lo ≤ last.2 then mergeRangesGo (last.1, if last.2 < hi then hi else last.2) rest
      else last :: mergeRangesGo (lo, hi) rest

/-- `merge_ranges`. -/
def mergeRanges : List (α × α) → List (α × α)
  | [] => []
  | r :: rest => mergeRangesGo r rest

/-- `IpRanges::build`.  Intervals with equal starts are merged whatever their order, so it does
    not matter that the source sorts unstably. -/
def IpRanges.build (cidrs : List (α × α)) : IpRanges α :=
  ⟨mergeRanges (cidrs.mergeSort fun a b => decide (a.1 ≤ b.1))⟩

/-- `IpRanges::contains`. -/
def IpRanges.contains (r : IpRanges α) (addr : α) : Bool :=
  if r.ranges = [] then false
  else
    match partitionPoint (fun iv : α × α => decide (iv.1 ≤ addr)) r.ranges with
    | 0 => false
    -- the interval before the partition point is the only candidate
    | i + 1 => r.ranges[i]?.any fun iv => decide (addr ≤ iv.2)

end IpRanges

/-- The shared body of the two CIDR expansions; nothing when `w - prefix` underflows. -/
def cidrToRange {w : Nat} (addr : BitVec w) (pre : UInt8) : Option (BitVec w × BitVec w) :=
  if pre = 0 then some (0, BitVec.allOnes w)
  else if w < pre.toNat then none
  else
    let mask := BitVec.allOnes w <<< (w - pre.toNat)
    let lo := addr &&& mask
    some (lo, lo ||| ~~~mask)

/-- `ipv4_cidr_to_range`. -/
def ipv4CidrToRange (addr : Ipv4Addr) (pre : UInt8) : Option (Ipv4Addr × Ipv4Addr) :=
  cidrToRange addr pre

/-- `ipv6_cidr_to_range`. -/
def ipv6CidrToRange (addr : Ipv6Addr) (pre : UInt8) : Option (Ipv6Addr × Ipv6Addr) :=
  cidrToRange addr pre

/-! ### Domains -/

/-- `DomainMatcher`. -/
inductive DomainMatcher where
  | fst (exact suffix : Option FstSet)
  | legacy (domains : List Str) (suffixTrie : SuffixTrie)

/-- `DomainMatcher::matches_exact`. -/
def DomainMatcher.matchesExact (m : DomainMatcher) (fstKey : Bytes) (domain : Str) : Bool :=
  match m with
  | .fst exact _ => exact.any fun s => s.contains fstKey
  | .legacy domains _ => decide (domain ∈ domains)

/-- The scan of `matches_suffix` for dots below index `i`; `ends` are the label ends found so
    far, at most 128. -/
def scanLabelEnds (bytes : Bytes) : (i : Nat) → (ends : List Nat) → List Nat
  | 0, ends => ends
  | i + 1, ends =>
      -- once the array is full the remaining dots are not seen
      if ends.length < 128 then
        if bytes[i]? = some 0x2E then scanLabelEnds bytes i (ends ++ [i])
        else scanLabelEnds bytes i ends
      else ends

/-- The size of the key buffer of `matches_suffix`. -/
def keyBufLen : Nat := 260

/-- Append one label and a dot to the key buffer, as far as there is room. -/
def appendLabel (buf label : Bytes) : Bytes :=
  -- room is kept for the dot; a label that does not fit is cut
  let avail := keyBufLen - (buf.length + 1)
  let buf := buf ++ label.take avail
  if buf.length < keyBufLen then buf ++ [0x2E] else buf

/-- The loop of `matches_suffix` over the label ends, rightmost label first. -/
def suffixLoop (set : FstSet) (bytes : Bytes) : List Nat → Bytes → Bool
  | [], _ => false
  | labelEnd :: rest, buf =>
      -- a label runs from behind the next dot to the left, or from the start
      let labelStart := match rest with
        | next :: _ => next + 1
        | [] => 0
      let buf := appendLabel buf ((bytes.take labelEnd).drop labelStart)
      if set.contains buf then true else suffixLoop set bytes rest buf

/-- `matches_suffix` on an FST. -/
def fstMatchesSuffix (set : FstSet) (domain : Str) : Bool :=
  let bytes := utf8 domain
  suffixLoop set bytes (scanLabelEnds bytes bytes.length [bytes.length]) []

/-- `DomainMatcher::matches_suffix`. -/
def DomainMatcher.matchesSuffix (m : DomainMatcher) (domain : Str) : Bool :=
  match m with
  | .fst _ suffix => suffix.any fun set => fstMatchesSuffix set domain
  | .legacy _ suffixTrie => suffixTrie.matches domain

/-! ### The rule set -/

/-- `MatchTarget`. -/
inductive MatchTarget where
  | domain (d : Str)
  | ip (ip : IpAddr)
  | port (p : UInt16)
  deriving DecidableEq

/-- `RuleSet`. -/
structure RuleSet where
  domainMatcher : DomainMatcher
  keywords : List Str
  regexes : Option (Str → Bool)
  ipv4Ranges : IpRanges Ipv4Addr
  ipv6Ranges : IpRanges Ipv6Addr
  portBitset : Option PortBitSet

/-- How `from_loaded` can fail: with an error, or by an arithmetic underflow, which aborts a
    build with overflow checks. -/
inductive LoadFault where
  | error (e : RuleSetError)
  | underflow
  deriving DecidableEq, Repr

variable (E : Externals)

/-- Open an FST section; an empty one was not present. -/
def openFst (bytes : Bytes) : Except LoadFault (Option FstSet) :=
  if bytes = [] then .ok none
  else
    match E.fstSetNew bytes with
    | .ok set => .ok (some set)
    | .error e => .error (.error (.loadedInvalidRegex e))

/-- The domain matcher of a loaded rule set. -/
def buildDomainMatcher (l : LoadedRuleSet) : Except LoadFault DomainMatcher :=
  -- one FST section is enough to leave the lists of a version 1 file unread
  if l.domainFst ≠ [] ∨ l.domainSuffixFst ≠ [] then do
    let exact ← openFst E l.domainFst
    let suffix ← openFst E l.domainSuffixFst
    return .fst exact suffix
  else return .legacy l.domains (l.domainSuffixes.foldl SuffixTrie.insert SuffixTrie.new)

/-- The regex set of a loaded rule set. -/
def buildRegexes (l : LoadedRuleSet) : Except LoadFault (Option (Str → Bool)) :=
  if l.domainRegexes = [] then .ok none
  else
    match E.regexSetNew l.domainRegexes with
    | .ok isMatch => .ok (some isMatch)
    | .error e => .error (.error (.loadedInvalidRegex e))

/-- Expand a list of CIDRs to ranges. -/
def buildRanges {α : Type} [LinearOrder α] (toRange : α → UInt8 → Option (α × α))
    (cidrs : List (α × UInt8)) : Except LoadFault (IpRanges α) :=
  match cidrs.mapM fun c => toRange c.1 c.2 with
  | some ranges => .ok (IpRanges.build ranges)
  | none => .error .underflow

/-- The port set of a loaded rule set. -/
def buildPorts (ports : List (UInt16 × UInt16)) : Option PortBitSet :=
  if ports = [] then none
  else some (ports.foldl (fun s r => s.setRange r.1 r.2) PortBitSet.new)

/-- `RuleSet::from_loaded`. -/
def RuleSet.fromLoaded (l : LoadedRuleSet) : Except LoadFault RuleSet := do
  let domainMatcher ← buildDomainMatcher E l
  let regexes ← buildRegexes E l
  let ipv4Ranges ← buildRanges ipv4CidrToRange l.ipv4Cidrs
  let ipv6Ranges ← buildRanges ipv6CidrToRange l.ipv6Cidrs
  return { domainMatcher, keywords := l.domainKeywords, regexes, ipv4Ranges, ipv6Ranges
           portBitset := buildPorts l.ports }

/-- The name a domain query is looked up under: no trailing dots, lower case. -/
def normalizeDomain (domain : Str) : Str :=
  let domain := trimEndMatches '.' domain
  if domain.any Char.isUpper then toAsciiLowercase domain else domain

/-- `RuleSet::match_domain`. -/
def RuleSet.matchDomain (rs : RuleSet) (domain : Str) : Bool :=
  let d := normalizeDomain domain
  rs.domainMatcher.matchesExact (utf8 (domainToFstKey d)) d
    || rs.domainMatcher.matchesSuffix d
    || rs.keywords.any (fun kw => decide (kw <:+: d))
    || rs.regexes.any fun isMatch => isMatch d

/-- `RuleSet::match_ipv4`. -/
def RuleSet.matchIpv4 (rs : RuleSet) (addr : Ipv4Addr) : Bool := rs.ipv4Ranges.contains addr

/-- `RuleSet::match_ipv6`. -/
def RuleSet.matchIpv6 (rs : RuleSet) (addr : Ipv6Addr) : Bool := rs.ipv6Ranges.contains addr

/-- `RuleSet::match_ip`: an IPv4-mapped address is tried as an IPv4 address first. -/
def RuleSet.matchIp (rs : RuleSet) (ip : IpAddr) : Bool :=
  match ip with
  | .v4 v4 => rs.matchIpv4 v4
  | .v6 v6 => v6.toIpv4Mapped.any rs.matchIpv4 || rs.matchIpv6 v6

/-- `RuleSet::match_port`. -/
def RuleSet.matchPort (rs : RuleSet) (port : UInt16) : Bool :=
  rs.portBitset.any fun bs => bs.contains port

/-- `RuleSet::matches`. -/
def RuleSet.matches (rs : RuleSet) : MatchTarget → Bool
  | .domain d => rs.matchDomain d
  | .ip ip => rs.matchIp ip
  | .port p => rs.matchPort p

/-- Load a compiled rule set through its binary form. -/
def RuleSet.ofCompiled (c : CompiledRuleSet) : Except LoadFault RuleSet :=
  match c.serialize E with
  | .error e => .error (.error e)
  | .ok bytes =>
      match LoadedRuleSet.fromBytes bytes with
      | .error e => .error (.error e)
      | .ok loaded => fromLoaded E loaded

/-- `RuleSet::from_text`. -/
def RuleSet.fromText (src : Str) : Except LoadFault RuleSet :=
  match CompiledRuleSet.fromText E src with
  | .error e => .error (.error e)
  | .ok c => ofCompiled E c

end Reflex.Ruleset
