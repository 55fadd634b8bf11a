import Reflex.Lib.Outcome
import Reflex.Ruleset.AddressMatch

namespace Reflex.Ruleset

open RustStd Intervals Outcome

/-!
# Rule sets — the prefix lengths of a file

The loader takes the prefix length of a CIDR as it stands in the file.  The matcher subtracts it
from the width of an address: with overflow checks that aborts for a prefix length that is too
large, and without them it shifts by an arbitrary amount.

* `LaidOut` — the sections of a file;
* `exists_laidOut`, `foldlM_of_laidOut` — what the loader accepts has sections, which it stores in
  order;
* `LoadsSafely` — what the matcher relies on, and no underflow;
* `loadsSafely_iff` — what that means for the bytes of the file.
-/

/-! ### The sections of a file -/

/-- A section as it lies in a file. -/
structure RawSection where
  kind : SectionType
  entryCount : Nat
  data : Bytes
  deriving DecidableEq

namespace RawSection

/-- The fields of the section header hold the numbers. -/
def Fits (s : RawSection) : Prop := s.entryCount < 2 ^ 32 ∧ s.data.length < 2 ^ 32

/-- The section header. -/
def header (s : RawSection) : Bytes :=
  s.kind.toByte :: (leBytes 4 s.entryCount ++ leBytes 4 s.data.length)

/-- A section on disk. -/
def bytes (s : RawSection) : Bytes := s.header ++ s.data

end RawSection

/-- A file header that announces the sections, the sections, and anything behind them. -/
def LaidOut (file : Bytes) (sections : List RawSection) : Prop :=
  (∀ s ∈ sections, s.Fits) ∧ ∃ header rest, header.length = headerLen ∧
    leVal ((header.drop 6).take 4) = sections.length ∧
    file = header ++ (sections.flatMap RawSection.bytes ++ rest)

/-- The data of the last section of a type. -/
def lastData (kind : SectionType) (sections : List RawSection) : Bytes :=
  ((sections.filter (·.kind = kind)).getLast?.map RawSection.data).getD []

/-- In data of entries of `n + 1` bytes, the last byte of an entry is at most `max`. -/
def EntriesBounded (n max : Nat) (data : Bytes) : Prop :=
  ∀ i b, data[(n + 1) * i + n]? = some b → b.toNat ≤ max

/-- The prefix lengths that are used of a file suit the width of their addresses. -/
def PrefixesFit (file : Bytes) : Prop :=
  ∀ sections, LaidOut file sections →
    EntriesBounded 4 32 (lastData .ipCidrV4 sections) ∧
      EntriesBounded 16 128 (lastData .ipCidrV6 sections)

/-! ### The loader -/

theorem SectionType.toByte_of_tryFrom {b : UInt8} {t : SectionType} (h : tryFrom b = some t) :
    t.toByte = b := by
  unfold tryFrom at h
  split_ifs at h <;> cases h <;> simp [toByte, *]

theorem RawSection.length_header (s : RawSection) : s.header.length = sectionHeaderLen := by
  simp [header, sectionHeaderLen]

/-- **One section** is read as it lies there. -/
theorem readSection_bytes {s : RawSection} (h : s.Fits) (rest : Bytes) :
    readSection (s.bytes ++ rest) = .ok (s.kind, s.entryCount, s.data, rest) := by
  have hpow : (2 : Nat) ^ 32 = 256 ^ 4 := by decide
  have hcount : leVal ((s.header.drop 1).take 4) = s.entryCount := by
    rw [RawSection.header, List.drop_one, List.tail_cons, List.take_left' (length_leBytes ..),
      leVal_leBytes_of_lt (hpow ▸ h.1)]
  have hlen : leVal ((s.header.drop 5).take 4) = s.data.length := by
    have hdrop : s.header.drop 5 = leBytes 4 s.data.length := by
      rw [RawSection.header, List.drop_succ_cons, List.drop_left' (length_leBytes ..)]
    rw [hdrop, List.take_of_length_le (by simp), leVal_leBytes_of_lt (hpow ▸ h.2)]
  have hkind : s.header.getD 0 0 = s.kind.toByte := rfl
  rw [readSection, RawSection.bytes, List.append_assoc, readExact_append _ _ s.length_header]
  simp only [hcount, hlen, hkind, SectionType.tryFrom_toByte]
  rw [readExact_append _ _ rfl]

theorem readExact_eq_some {n : Nat} {r bs rest : Bytes} (h : readExact n r = some (bs, rest)) :
    bs.length = n ∧ r = bs ++ rest := by
  rw [readExact, Option.ite_none_right_eq_some] at h
  obtain ⟨hle, h⟩ := h
  obtain ⟨rfl, rfl⟩ := Prod.mk.inj (Option.some.inj h)
  exact ⟨by rw [List.length_take]; omega, (List.take_append_drop n r).symm⟩

/-- Four bytes are the field of the number they stand for. -/
theorem leBytes_four (bs : Bytes) (h : bs.length = 4) :
    leBytes 4 (leVal bs) = bs ∧ leVal bs < 2 ^ 32 := by
  have hbytes := leBytes_leVal bs
  have hlt := leVal_lt bs
  rw [h] at hbytes hlt
  exact ⟨hbytes, hlt⟩

/-- A section that is read stood at the front of the input, in the form that a writer gives it. -/
theorem exists_of_readSection {r rest data : Bytes} {t : SectionType} {count : Nat}
    (h : readSection r = .ok (t, count, data, rest)) :
    ∃ s : RawSection, s.kind = t ∧ s.entryCount = count ∧ s.data = data ∧ s.Fits ∧
      r = s.bytes ++ rest := by
  rw [readSection] at h
  -- the three ways to fail: no header, no such type, no data
  cases hheader : readExact sectionHeaderLen r with
  | none =>
    rw [hheader] at h
    cases h
  | some p =>
    obtain ⟨header, r'⟩ := p
    simp only [hheader] at h
    cases hkind : SectionType.tryFrom (header.getD 0 0) with
    | none =>
      simp only [hkind] at h
      cases h
    | some kind =>
      simp only [hkind] at h
      cases hdata : readExact (leVal ((header.drop 5).take 4)) r' with
      | none =>
        simp only [hdata] at h
        cases h
      | some p =>
        obtain ⟨data', rest'⟩ := p
        simp only [hdata, Except.ok.injEq, Prod.mk.injEq] at h
        obtain ⟨rfl, rfl, rfl, rfl⟩ := h
        obtain ⟨hlen, rfl⟩ := readExact_eq_some hheader
        obtain ⟨hdlen, rfl⟩ := readExact_eq_some hdata
        replace hlen : header.length = 9 := hlen
        -- both numbers of the header are of four bytes, which are written back as they were
        obtain ⟨hcount, hcount_lt⟩ := leBytes_four ((header.drop 1).take 4)
          (by rw [List.length_take, List.length_drop]; omega)
        obtain ⟨hbytes, hbytes_lt⟩ := leBytes_four ((header.drop 5).take 4)
          (by rw [List.length_take, List.length_drop]; omega)
        refine ⟨⟨kind, leVal ((header.drop 1).take 4), data'⟩, rfl, rfl, rfl,
          ⟨hcount_lt, hdlen ▸ hbytes_lt⟩, ?_⟩
        -- the header is its type and the two numbers
        have hsplit : header = header.getD 0 0 :: ((header.drop 1).take 4
            ++ (header.drop 5).take 4) := by
          rw [List.take_of_length_le (l := header.drop 5) (by rw [List.length_drop]; omega),
            show header.drop 5 = (header.drop 1).drop 4 by rw [List.drop_drop],
            List.take_append_drop]
          cases header with
          | nil => cases hlen
          | cons b header => rfl
        rw [RawSection.bytes, RawSection.header, SectionType.toByte_of_tryFrom hkind, hcount, hdlen,
          hbytes, ← hsplit, List.append_assoc]

/-- Storing a section, as the loop does. -/
def storeRaw (out : LoadedRuleSet) (s : RawSection) : Except RuleSetError LoadedRuleSet :=
  out.setSection s.kind s.entryCount s.data

/-- **The section loop** stores the sections that lie there. -/
theorem readSections_bytes {sections : List RawSection} (h : ∀ s ∈ sections, s.Fits) (rest : Bytes)
    (out : LoadedRuleSet) :
    readSections sections.length (sections.flatMap RawSection.bytes ++ rest) out
      = sections.foldlM storeRaw out := by
  induction sections generalizing out with
  | nil => rfl
  | cons s sections ih =>
    obtain ⟨hs, hsections⟩ := List.forall_mem_cons.mp h
    rw [List.length_cons, List.flatMap_cons, List.append_assoc, readSections,
      readSection_bytes hs, List.foldlM_cons]
    exact bind_congr fun out' => ih hsections out'

theorem exists_of_readSections {count : Nat} {r : Bytes} {out l : LoadedRuleSet}
    (h : readSections count r out = .ok l) :
    ∃ (sections : List RawSection) (rest : Bytes), sections.length = count ∧
      (∀ s ∈ sections, s.Fits) ∧ r = sections.flatMap RawSection.bytes ++ rest := by
  induction count generalizing r out with
  | zero => exact ⟨[], r, rfl, fun s hs => absurd hs List.not_mem_nil, rfl⟩
  | succ count ih =>
    rw [readSections] at h
    obtain ⟨⟨t, n, data, r'⟩, hread, h⟩ := bind_eq_ok.mp h
    obtain ⟨out', -, hrest⟩ := bind_eq_ok.mp h
    obtain ⟨s, -, -, -, hs, rfl⟩ := exists_of_readSection hread
    obtain ⟨sections, rest, hlen, hfits, rfl⟩ := ih hrest
    refine ⟨s :: sections, rest, by rw [List.length_cons, hlen],
      List.forall_mem_cons.mpr ⟨hs, hfits⟩, ?_⟩
    rw [List.flatMap_cons, List.append_assoc]

section File

variable {file : Bytes} {l : LoadedRuleSet} {sections : List RawSection}

/-- The loader reads as many sections as the file header announces. -/
theorem readSections_of_fromBytes (h : LoadedRuleSet.fromBytes file = .ok l) :
    ∃ header r, header.length = headerLen ∧ file = header ++ r ∧
      readSections (leVal ((header.drop 6).take 4)) r {} = .ok l := by
  rw [LoadedRuleSet.fromBytes] at h
  cases hheader : readExact headerLen file with
  | none =>
    rw [hheader] at h
    cases h
  | some p =>
    obtain ⟨header, r⟩ := p
    obtain ⟨hlen, hfile⟩ := readExact_eq_some hheader
    simp only [hheader] at h
    split_ifs at h
    exact ⟨header, r, hlen, hfile, h⟩

/-- A file that is accepted has sections. -/
theorem exists_laidOut (h : LoadedRuleSet.fromBytes file = .ok l) :
    ∃ sections, LaidOut file sections := by
  obtain ⟨header, r, hlen, rfl, hread⟩ := readSections_of_fromBytes h
  obtain ⟨sections, rest, hcount, hfits, rfl⟩ := exists_of_readSections hread
  exact ⟨sections, hfits, header, rest, hlen, hcount.symm, rfl⟩

/-- What is loaded from a file are its sections. -/
theorem foldlM_of_laidOut (h : LoadedRuleSet.fromBytes file = .ok l)
    (hlaid : LaidOut file sections) : sections.foldlM storeRaw {} = .ok l := by
  obtain ⟨header, r, hlen, hfile, hread⟩ := readSections_of_fromBytes h
  obtain ⟨hfits, header', rest, hlen', hcount, hfile'⟩ := hlaid
  obtain ⟨rfl, rfl⟩ := List.append_inj (hfile.symm.trans hfile') (hlen.trans hlen'.symm)
  rwa [hcount, readSections_bytes hfits] at hread

end File

/-! ### The entries of a section -/

/-- What one section does to the addresses of a rule set. -/
theorem setSection_ok {out out' : LoadedRuleSet} {t : SectionType} {n : Nat} {data : Bytes}
    (h : out.setSection t n data = .ok out') :
    (if t = .ipCidrV4 then decodeIpv4Cidrs data n = .ok out'.ipv4Cidrs
      else out'.ipv4Cidrs = out.ipv4Cidrs) ∧
    (if t = .ipCidrV6 then decodeIpv6Cidrs data n = .ok out'.ipv6Cidrs
      else out'.ipv6Cidrs = out.ipv6Cidrs) := by
  cases t with
  | domainFst =>
    obtain rfl := Except.ok.inj h
    exact ⟨rfl, rfl⟩
  | domainSuffixFst =>
    obtain rfl := Except.ok.inj h
    exact ⟨rfl, rfl⟩
  | ipCidrV4 =>
    obtain ⟨cidrs, hcidrs, h⟩ := bind_eq_ok.mp h
    obtain rfl := Except.ok.inj h
    exact ⟨hcidrs, rfl⟩
  | ipCidrV6 =>
    obtain ⟨cidrs, hcidrs, h⟩ := bind_eq_ok.mp h
    obtain rfl := Except.ok.inj h
    exact ⟨rfl, hcidrs⟩
  | _ =>
    obtain ⟨_, -, h⟩ := bind_eq_ok.mp h
    obtain rfl := Except.ok.inj h
    exact ⟨rfl, rfl⟩

theorem lastData_concat (kind : SectionType) (sections : List RawSection) (s : RawSection) :
    lastData kind (sections ++ [s]) = if s.kind = kind then s.data else lastData kind sections := by
  by_cases h : s.kind = kind
  · simp [lastData, List.filter_append, h]
  · simp [lastData, List.filter_append, h]

theorem decodeEntries_nil {α : Type} (n : Nat) (entry : Bytes → α) :
    decodeEntries n entry [] 0 = .ok [] := by
  rw [decodeEntries, if_neg (by simp), chunksExact, if_pos (by simp), List.map_nil]

/-- The addresses of a rule set are those of the last section of their type. -/
theorem decode_lastData {sections : List RawSection} {l : LoadedRuleSet}
    (h : sections.foldlM storeRaw {} = .ok l) :
    (∃ n, decodeIpv4Cidrs (lastData .ipCidrV4 sections) n = .ok l.ipv4Cidrs) ∧
      ∃ n, decodeIpv6Cidrs (lastData .ipCidrV6 sections) n = .ok l.ipv6Cidrs := by
  induction sections using List.reverseRecOn generalizing l with
  | nil =>
    obtain rfl := Except.ok.inj h
    exact ⟨⟨0, decodeEntries_nil _ _⟩, 0, decodeEntries_nil _ _⟩
  | append_singleton sections s ih =>
    rw [List.foldlM_append] at h
    obtain ⟨out, hout, h⟩ := bind_eq_ok.mp h
    rw [List.foldlM_cons] at h
    obtain ⟨out', hstore, h⟩ := bind_eq_ok.mp h
    obtain rfl := Except.ok.inj h
    obtain ⟨h4, h6⟩ := setSection_ok hstore
    obtain ⟨ih4, ih6⟩ := ih hout
    rw [lastData_concat, lastData_concat]
    constructor
    · split_ifs at h4 ⊢
      · exact ⟨_, h4⟩
      · rwa [h4]
    · split_ifs at h6 ⊢
      · exact ⟨_, h6⟩
      · rwa [h6]

/-- The chunks of the data are its entries. -/
theorem forall_chunksExact_iff {n max : Nat} {data : Bytes} {m : Nat}
    (hlen : data.length = m * (n + 1)) :
    (∀ c ∈ chunksExact n data, (c.getD n 0).toNat ≤ max) ↔ EntriesBounded n max data := by
  induction m generalizing data with
  | zero =>
    obtain rfl : data = [] := List.eq_nil_of_length_eq_zero (by omega)
    rw [chunksExact, if_pos (by simp)]
    exact iff_of_true (fun c hc => absurd hc List.not_mem_nil) fun i b hb => by cases hb
  | succ m ih =>
    rw [Nat.succ_mul] at hlen
    have hn : n < data.length := by omega
    -- the last byte of the first entry, which has its prefix length
    have hhead : (data.take (n + 1)).getD n 0 = data[n] := by
      rw [List.getD_eq_getElem?_getD, List.getElem?_take_of_lt (Nat.lt_succ_self n),
        List.getElem?_eq_getElem hn, Option.getD_some]
    rw [chunksExact, if_neg (by omega), List.forall_mem_cons, hhead,
      ih (by rw [List.length_drop]; omega)]
    constructor
    · rintro ⟨hfirst, hrest⟩ i b hb
      cases i with
      | zero =>
        rw [Nat.mul_zero, Nat.zero_add, List.getElem?_eq_getElem hn] at hb
        exact Option.some.inj hb ▸ hfirst
      | succ i =>
        refine hrest i b ?_
        rw [List.getElem?_drop, ← hb]
        congr 1
        rw [Nat.mul_succ]
        omega
    · intro hall
      refine ⟨hall 0 _ ?_, fun i b hb => hall (i + 1) b ?_⟩
      · rw [Nat.mul_zero, Nat.zero_add, List.getElem?_eq_getElem hn]
      · -- the entries behind the first are those of the data that is left
        rw [List.getElem?_drop] at hb
        rw [← hb]
        congr 1
        rw [Nat.mul_succ]
        omega

/-- The prefix lengths of decoded entries stand at the end of each. -/
theorem decodeEntries_bounded {w n max : Nat} {data : Bytes} {expected : Nat}
    {cidrs : List (BitVec w × UInt8)} {addr : Bytes → BitVec w}
    (h : decodeEntries n (fun c => (addr c, c.getD n 0)) data expected = .ok cidrs) :
    (∀ c ∈ cidrs, c.2.toNat ≤ max) ↔ EntriesBounded n max data := by
  rw [decodeEntries] at h
  split_ifs at h with hlen
  obtain rfl := Except.ok.inj h
  rw [List.forall_mem_map]
  exact forall_chunksExact_iff (not_not.mp hlen)

/-- **What a file says** about the prefix lengths that are loaded from it. -/
theorem prefixesFit_iff {file : Bytes} {l : LoadedRuleSet}
    (h : LoadedRuleSet.fromBytes file = .ok l) :
    PrefixesFit file
      ↔ (∀ c ∈ l.ipv4Cidrs, c.2.toNat ≤ 32) ∧ ∀ c ∈ l.ipv6Cidrs, c.2.toNat ≤ 128 := by
  have hall : ∀ sections, LaidOut file sections →
      ((EntriesBounded 4 32 (lastData .ipCidrV4 sections) ∧
        EntriesBounded 16 128 (lastData .ipCidrV6 sections))
        ↔ (∀ c ∈ l.ipv4Cidrs, c.2.toNat ≤ 32) ∧ ∀ c ∈ l.ipv6Cidrs, c.2.toNat ≤ 128) := by
    intro sections hlaid
    obtain ⟨⟨n4, h4⟩, n6, h6⟩ := decode_lastData (foldlM_of_laidOut h hlaid)
    exact (and_congr (decodeEntries_bounded h4) (decodeEntries_bounded h6)).symm
  constructor
  · intro hfit
    obtain ⟨sections, hlaid⟩ := exists_laidOut h
    exact (hall sections hlaid).mp (hfit sections hlaid)
  · exact fun hbounded sections hlaid => (hall sections hlaid).mpr hbounded

/-! ### The matcher -/

section Ranges

variable {w : Nat} {cidrs : List (BitVec w × UInt8)}

theorem cidrToRange_of_lt {addr : BitVec w} {pre : UInt8} (h : w < pre.toNat) :
    cidrToRange addr pre = none := by
  have hzero : pre ≠ 0 := by
    rintro rfl
    exact Nat.not_lt_zero w h
  rw [cidrToRange, if_neg hzero, if_pos h]

theorem mapM_cidrToRange_of_lt {c : BitVec w × UInt8} (hc : c ∈ cidrs) (h : w < c.2.toNat) :
    (cidrs.mapM fun c => cidrToRange c.1 c.2) = none := by
  induction cidrs with
  | nil => cases hc
  | cons c' cidrs ih =>
    rw [List.mapM_cons]
    rcases List.mem_cons.mp hc with rfl | hc
    · rw [cidrToRange_of_lt h]
      rfl
    · rw [ih hc]
      cases cidrToRange c'.1 c'.2 <;> rfl

/-- **The ranges of a list** that is in range have their ends in order, and otherwise there are
    none. -/
theorem buildRanges_bounded (cidrs : List (BitVec w × UInt8)) :
    ((∀ c ∈ cidrs, c.2.toNat ≤ w) ∧
      ∃ rs, buildRanges cidrToRange cidrs = .ok rs ∧ ∀ iv ∈ rs.ranges, iv.1 ≤ iv.2) ∨
    ((¬ ∀ c ∈ cidrs, c.2.toNat ≤ w) ∧ buildRanges cidrToRange cidrs = .error .underflow) := by
  by_cases hpre : ∀ c ∈ cidrs, c.2.toNat ≤ w
  · obtain ⟨ranges, hmap, hne, -⟩ := mapM_cidrToRange cidrs hpre
    exact .inl ⟨hpre, IpRanges.build ranges, by rw [buildRanges, hmap],
      (IpRanges.build_spec ranges hne).1.1⟩
  · refine .inr ⟨hpre, ?_⟩
    push Not at hpre
    obtain ⟨c, hc, hlt⟩ := hpre
    rw [buildRanges, mapM_cidrToRange_of_lt hc hlt]

end Ranges

section Load

variable (E : Externals)

theorem openFst_ensures (bytes : Bytes) :
    Ensures (fun _ => True) (· ≠ LoadFault.underflow) (openFst E bytes) := by
  unfold openFst
  split
  · trivial
  · split
    · trivial
    · simp

theorem buildDomainMatcher_ensures (l : LoadedRuleSet) :
    Ensures (fun _ => True) (· ≠ LoadFault.underflow) (buildDomainMatcher E l) := by
  unfold buildDomainMatcher
  split
  · exact (openFst_ensures E _).bind fun exact _ =>
      (openFst_ensures E _).bind fun suffix _ => trivial
  · trivial

theorem buildRegexes_ensures (l : LoadedRuleSet) :
    Ensures (fun _ => True) (· ≠ LoadFault.underflow) (buildRegexes E l) := by
  unfold buildRegexes
  split
  · trivial
  · split
    · trivial
    · simp

/-- The intervals of both address families have their ends in order. -/
def RuleSet.Ordered (rs : RuleSet) : Prop :=
  (∀ iv ∈ rs.ipv4Ranges.ranges, iv.1 ≤ iv.2) ∧ ∀ iv ∈ rs.ipv6Ranges.ranges, iv.1 ≤ iv.2

/-- What the matcher relies on, and what it makes of it. -/
structure LoadsSafely (l : LoadedRuleSet) : Prop where
  no_underflow : RuleSet.fromLoaded E l ≠ .error .underflow
  ipv4_prefixes : ∀ c ∈ l.ipv4Cidrs, c.2.toNat ≤ 32
  ipv6_prefixes : ∀ c ∈ l.ipv6Cidrs, c.2.toNat ≤ 128
  intervals : ∀ rs, RuleSet.fromLoaded E l = .ok rs → rs.Ordered

theorem fromLoaded_ensures {l : LoadedRuleSet} (h4 : ∀ c ∈ l.ipv4Cidrs, c.2.toNat ≤ 32)
    (h6 : ∀ c ∈ l.ipv6Cidrs, c.2.toNat ≤ 128) :
    Ensures RuleSet.Ordered (· ≠ LoadFault.underflow) (RuleSet.fromLoaded E l) := by
  obtain ⟨-, r4, hr4, hordered4⟩ := (buildRanges_bounded l.ipv4Cidrs).resolve_right fun h => h.1 h4
  obtain ⟨-, r6, hr6, hordered6⟩ := (buildRanges_bounded l.ipv6Cidrs).resolve_right fun h => h.1 h6
  refine (buildDomainMatcher_ensures E l).bind fun m _ => ?_
  refine (buildRegexes_ensures E l).bind fun regexes _ => ?_
  show Ensures RuleSet.Ordered _ (buildRanges cidrToRange l.ipv4Cidrs >>= _)
  rw [hr4]
  show Ensures RuleSet.Ordered _ (buildRanges cidrToRange l.ipv6Cidrs >>= _)
  rw [hr6]
  exact ⟨hordered4, hordered6⟩

/-- A load that gets to the addresses stops at a prefix length out of range. -/
theorem fromLoaded_underflow {l : LoadedRuleSet} {m : DomainMatcher} {regexes : Option (Str → Bool)}
    (hm : buildDomainMatcher E l = .ok m) (hregexes : buildRegexes E l = .ok regexes)
    (h : ¬ ((∀ c ∈ l.ipv4Cidrs, c.2.toNat ≤ 32) ∧ ∀ c ∈ l.ipv6Cidrs, c.2.toNat ≤ 128)) :
    RuleSet.fromLoaded E l = .error .underflow := by
  rw [RuleSet.fromLoaded, hm, hregexes]
  show (buildRanges cidrToRange l.ipv4Cidrs >>= _) = _
  rcases buildRanges_bounded l.ipv4Cidrs with ⟨h4, r4, hr4, -⟩ | ⟨-, hunderflow⟩
  · obtain ⟨-, hunderflow⟩ :=
      (buildRanges_bounded l.ipv6Cidrs).resolve_left fun h6 => h ⟨h4, h6.1⟩
    rw [hr4]
    show (buildRanges cidrToRange l.ipv6Cidrs >>= _) = _
    rw [hunderflow]
    rfl
  · rw [hunderflow]
    rfl

/-- A rule set that the loader accepts is safe for the matcher exactly if the prefix lengths in the
    last section of IPv4 and of IPv6 CIDRs suit the addresses.  Otherwise the matcher underflows,
    unless it refuses the names of the rule set before it comes to the addresses. -/
theorem loadsSafely_iff (file : Bytes) (l : LoadedRuleSet)
    (h : LoadedRuleSet.fromBytes file = .ok l) :
    (LoadsSafely E l ↔ PrefixesFit file) ∧
      ∀ m regexes, buildDomainMatcher E l = .ok m → buildRegexes E l = .ok regexes →
        (RuleSet.fromLoaded E l = .error .underflow ↔ ¬ PrefixesFit file) := by
  rw [prefixesFit_iff h]
  refine ⟨⟨fun hsafe => ⟨hsafe.ipv4_prefixes, hsafe.ipv6_prefixes⟩, ?_⟩, ?_⟩
  · rintro ⟨h4, h6⟩
    have hload := fromLoaded_ensures E h4 h6
    exact ⟨fun herr => hload.of_error herr rfl, h4, h6, fun rs hrs => hload.of_ok hrs⟩
  · intro m regexes hm hregexes
    refine ⟨?_, fromLoaded_underflow E hm hregexes⟩
    rintro herr ⟨h4, h6⟩
    exact (fromLoaded_ensures E h4 h6).of_error herr rfl

end Load

/-- A file with one IPv4 CIDR, the address 1.2.3.4 and the given prefix length. -/
def oneCidr (pre : UInt8) : Bytes :=
  magic ++ [version, 0x00] ++ leBytes 4 1 ++ [0, 0, 0, 0]
    ++ RawSection.bytes { kind := .ipCidrV4, entryCount := 1, data := [1, 2, 3, 4, pre] }

theorem loadsSafely_iff_oneCidr :
    (LoadsSafely .plain { ipv4Cidrs := [(0x01020304, 24)] } ↔ PrefixesFit (oneCidr 24)) ∧
      ∀ m regexes, buildDomainMatcher .plain { ipv4Cidrs := [(0x01020304, 24)] } = .ok m →
        buildRegexes .plain { ipv4Cidrs := [(0x01020304, 24)] } = .ok regexes →
        (RuleSet.fromLoaded .plain { ipv4Cidrs := [(0x01020304, 24)] } = .error .underflow
          ↔ ¬ PrefixesFit (oneCidr 24)) :=
  loadsSafely_iff .plain (oneCidr 24) _ (by decide +kernel)

/-- The loader accepts a prefix length of 33. -/
theorem not_loadsSafely_oneCidr :
    ¬ ∀ E file l, LoadedRuleSet.fromBytes file = .ok l → LoadsSafely E l := by
  intro h
  have hload : LoadedRuleSet.fromBytes (oneCidr 33) = .ok { ipv4Cidrs := [(0x01020304, 33)] } := by
    decide +kernel
  refine (h .plain _ _ hload).no_underflow (fromLoaded_underflow .plain rfl rfl fun hfit => ?_)
  have hlen := hfit.1 (0x01020304, 33) (List.mem_singleton_self _)
  exact absurd hlen (by decide)

end Reflex.Ruleset
