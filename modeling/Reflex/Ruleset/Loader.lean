import Reflex.Ruleset.Compiler

namespace Reflex.Ruleset

open RustStd

/-!
# Rule sets — the loader

`ruleset/loader.rs`: `LoadedRuleSet.fromBytes` reads a `.rrs` file of version 1 or 2 from a byte slice.  Reading from
the slice is explicit: `readExact` splits off the requested bytes or fails.

* `readSection` — a header of one byte for the type and two numbers of 32 bits, and the data;
* `decodeStrings`, `decodeEntries` — the two kinds of data: strings with their lengths in front, and entries of one
  width, of which there must be as many as the header says;
* `LoadedRuleSet.setSection` — a section replaces an earlier one of its type;
* `LoadedRuleSet.fromBytes` — the header of the file, and as many sections as it counts.

That a file written by the compiler is read back is the subject of the module on round trips.
-/

/-- `LoadedRuleSet`. -/
structure LoadedRuleSet where
  domains : List Str := []
  domainSuffixes : List Str := []
  domainFst : Bytes := []
  domainSuffixFst : Bytes := []
  domainKeywords : List Str := []
  domainRegexes : List Str := []
  ipv4Cidrs : List (Ipv4Addr × UInt8) := []
  ipv6Cidrs : List (Ipv6Addr × UInt8) := []
  ports : List (UInt16 × UInt16) := []
  deriving DecidableEq

/-- `Read::read_exact` on a byte slice: the bytes read and the rest of the slice. -/
def readExact (n : Nat) (r : Bytes) : Option (Bytes × Bytes) :=
  if n ≤ r.length then some (r.take n, r.drop n) else none

/-! ### Decoding -/

/-- The loop of `decode_strings` on the bytes from index `i` on, of `total` bytes in all. -/
def decodeStringsGo (total i : Nat) : Bytes → Except RuleSetError (List Str)
  | [] => .ok []
  | len :: data =>
      -- one length byte, then the string; the error reports the index behind it
      if data.length < len.toNat then .error (.truncated (i + 1 + len.toNat) total)
      else
        match fromUtf8 (data.take len.toNat) with
        | none => .error .invalidUtf8
        | some s => do
            let rest ← decodeStringsGo total (i + 1 + len.toNat) (data.drop len.toNat)
            return s :: rest
termination_by data => data.length
decreasing_by simp only [List.length_drop, List.length_cons]; omega

/-- `decode_strings` (the expected count only sizes the result vector). -/
def decodeStrings (data : Bytes) : Except RuleSetError (List Str) :=
  decodeStringsGo data.length 0 data

/-- `chunks_exact`: the full chunks of `n + 1` bytes. -/
def chunksExact (n : Nat) (data : Bytes) : List Bytes :=
  if data.length < n + 1 then [] else data.take (n + 1) :: chunksExact n (data.drop (n + 1))
termination_by data.length
decreasing_by simp only [List.length_drop]; omega

/-- The shared body of the fixed-width decoders: the data must hold exactly `expected`
    entries of `n + 1` bytes. -/
def decodeEntries {α : Type} (n : Nat) (entry : Bytes → α) (data : Bytes) (expected : Nat) :
    Except RuleSetError (List α) :=
  if data.length ≠ expected * (n + 1) then .error (.truncated (expected * (n + 1)) data.length)
  else .ok ((chunksExact n data).map entry)

/-- `decode_ipv4_cidrs`. -/
def decodeIpv4Cidrs (data : Bytes) (expected : Nat) :
    Except RuleSetError (List (Ipv4Addr × UInt8)) :=
  decodeEntries 4 (fun c => (Ipv4Addr.ofOctets (c.take 4), c.getD 4 0)) data expected

/-- `decode_ipv6_cidrs`. -/
def decodeIpv6Cidrs (data : Bytes) (expected : Nat) :
    Except RuleSetError (List (Ipv6Addr × UInt8)) :=
  decodeEntries 16 (fun c => (Ipv6Addr.ofOctets (c.take 16), c.getD 16 0)) data expected

/-- `decode_ports`. -/
def decodePorts (data : Bytes) (expected : Nat) : Except RuleSetError (List (UInt16 × UInt16)) :=
  decodeEntries 3
    (fun c => (UInt16.ofNat (leVal (c.take 2)), UInt16.ofNat (leVal ((c.drop 2).take 2))))
    data expected

/-! ### Reading a file -/

/-- Store one section in the rule set read so far. -/
def LoadedRuleSet.setSection (out : LoadedRuleSet) (t : SectionType) (entryCount : Nat)
    (data : Bytes) : Except RuleSetError LoadedRuleSet :=
  match t with
  | .domain => return { out with domains := ← decodeStrings data }
  | .domainSuffix => return { out with domainSuffixes := ← decodeStrings data }
  | .domainFst => return { out with domainFst := data }
  | .domainSuffixFst => return { out with domainSuffixFst := data }
  | .domainKeyword => return { out with domainKeywords := ← decodeStrings data }
  | .domainRegex => return { out with domainRegexes := ← decodeStrings data }
  | .ipCidrV4 => return { out with ipv4Cidrs := ← decodeIpv4Cidrs data entryCount }
  | .ipCidrV6 => return { out with ipv6Cidrs := ← decodeIpv6Cidrs data entryCount }
  | .port => return { out with ports := ← decodePorts data entryCount }

/-- One turn of the section loop: the section type, entry count and data at the head of `r`,
    and the rest of `r`. -/
def readSection (r : Bytes) : Except RuleSetError (SectionType × Nat × Bytes × Bytes) :=
  match readExact sectionHeaderLen r with
  | none => .error (.io "failed to fill whole buffer".toList)
  | some (header, r) =>
      let entryCount := leVal ((header.drop 1).take 4)
      let byteLen := leVal ((header.drop 5).take 4)
      match SectionType.tryFrom (header.getD 0 0) with
      | none => .error (.unknownSection (header.getD 0 0))
      | some t =>
          match readExact byteLen r with
          -- a short read is reported with nothing read
          | none => .error (.truncated byteLen 0)
          | some (data, r) => .ok (t, entryCount, data, r)

/-- The section loop: `count` sections are left. -/
def readSections : (count : Nat) → Bytes → LoadedRuleSet → Except RuleSetError LoadedRuleSet
  -- bytes behind the last section are ignored
  | 0, _, out => .ok out
  | count + 1, r, out => do
      let (t, entryCount, data, r) ← readSection r
      let out ← out.setSection t entryCount data
      readSections count r out

/-- `LoadedRuleSet::from_bytes` (`from_reader` on a byte slice). -/
def LoadedRuleSet.fromBytes (data : Bytes) : Except RuleSetError LoadedRuleSet :=
  match readExact headerLen data with
  | none => .error .badMagic
  | some (header, r) =>
      -- the flags byte and the reserved bytes are not looked at
      if header.take 4 ≠ magic then .error .badMagic
      else
        let ver := header.getD 4 0
        if ver ≠ version ∧ ver ≠ versionV1 then .error (.unsupportedVersion ver)
        else readSections (leVal ((header.drop 6).take 4)) r {}

end Reflex.Ruleset
