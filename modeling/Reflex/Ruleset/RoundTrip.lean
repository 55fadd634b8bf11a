import Reflex.Ruleset.Loader

namespace Reflex.Ruleset

open RustStd

/-!
# Rule sets — what survives `serialize` and `from_bytes`

The compiler and the loader agree section by section:

* `decodeStrings_encodeStrings` / `encodeStrings_of_decodeStrings` — a list of strings comes
  back exactly when every string has at most 255 bytes, because its length is written as
  `s.len() as u8`;
* `decodeEntries_flatMap` — fixed-width entries always come back;
* `readSection_encodeSection` — a section comes back when its byte length fits `u32`;
* `LoadedRuleSet.Small` — everything the loader returns is within those limits
  (`small_of_fromBytes`), so the limits are also necessary.
-/

/-! ### Strings -/

/-- A text whose length can be written in one byte. -/
def ShortStr (s : Str) : Prop := (utf8 s).length ≤ 255

instance (s : Str) : Decidable (ShortStr s) := inferInstanceAs (Decidable (_ ≤ _))

theorem encodeStrings_cons (s : Str) (ss : List Str) :
    encodeStrings (s :: ss) = UInt8.ofNat (utf8 s).length :: (utf8 s ++ encodeStrings ss) := rfl

theorem length_encodeStrings (ss : List Str) :
    (encodeStrings ss).length = (ss.map fun s => (utf8 s).length + 1).sum := by
  rw [encodeStrings, List.length_flatMap]
  rfl

theorem toNat_ofNat_length {s : Str} (h : ShortStr s) :
    (UInt8.ofNat (utf8 s).length).toNat = (utf8 s).length := by
  have hlt : (utf8 s).length < 256 := Nat.lt_succ_of_le h
  simp [Nat.mod_eq_of_lt hlt]

private theorem decodeStringsGo_encodeStrings (total i : Nat) (ss : List Str)
    (h : ∀ s ∈ ss, ShortStr s) : decodeStringsGo total i (encodeStrings ss) = .ok ss := by
  induction ss generalizing i with
  | nil => rw [encodeStrings, List.flatMap_nil, decodeStringsGo]
  | cons s ss ih =>
    have hs : ShortStr s := h s (by simp)
    rw [encodeStrings_cons, decodeStringsGo, toNat_ofNat_length hs,
      if_neg (by simp), List.take_left, fromUtf8_utf8, List.drop_left]
    -- A short string is written under its own length, so the decoder cuts it out again.
    simp only [ih _ (fun t ht => h t (by simp [ht]))]
    rfl

/-- Lists of strings whose lengths fit into 16 bits survive being written and read. -/
theorem decodeStrings_encodeStrings (ss : List Str) (h : ∀ s ∈ ss, ShortStr s) :
    decodeStrings (encodeStrings ss) = .ok ss :=
  decodeStringsGo_encodeStrings _ _ ss h

private theorem encodeStrings_of_decodeStringsGo (total i : Nat) (data : Bytes) (ss : List Str)
    (h : decodeStringsGo total i data = .ok ss) :
    encodeStrings ss = data ∧ ∀ s ∈ ss, ShortStr s := by
  fun_induction decodeStringsGo total i data generalizing ss with
  | case1 i =>
    obtain rfl := Except.ok.inj h
    exact ⟨rfl, by simp⟩
  | case2 i len data hlen => exact absurd h (by simp)
  | case3 i len data hlen hutf => exact absurd h (by simp)
  | case4 i len data hlen s hutf ih =>
    -- the decoded head is `len` bytes long, so its length is written as `len` again
    rcases hrest : decodeStringsGo total (i + 1 + len.toNat) (data.drop len.toNat) with e | rest
    · rw [hrest] at h
      exact absurd h (by simp [bind, Except.bind])
    · rw [hrest] at h
      obtain rfl : s :: rest = ss := Except.ok.inj h
      obtain ⟨henc, hshort⟩ := ih rest hrest
      have hs : utf8 s = data.take len.toNat := (fromUtf8_eq_some_iff _ _).mp hutf
      have hslen : (utf8 s).length = len.toNat := by
        rw [hs, List.length_take]; omega
      refine ⟨?_, ?_⟩
      · rw [encodeStrings_cons, hslen, henc, hs, List.take_append_drop]
        simp
      · intro t ht
        rcases List.mem_cons.mp ht with rfl | ht
        · have := len.toNat_lt
          rw [ShortStr, hslen]; omega
        · exact hshort t ht

/-- What `decode_strings` returns encodes to the data it was given, in short strings. -/
theorem encodeStrings_of_decodeStrings {data : Bytes} {ss : List Str}
    (h : decodeStrings data = .ok ss) : encodeStrings ss = data ∧ ∀ s ∈ ss, ShortStr s :=
  encodeStrings_of_decodeStringsGo _ _ data ss h

/-! ### Fixed-width entries -/

theorem chunksExact_flatMap {α : Type} (n : Nat) (enc : α → Bytes) (l : List α)
    (henc : ∀ a, (enc a).length = n + 1) : chunksExact n (l.flatMap enc) = l.map enc := by
  induction l with
  | nil => rw [List.flatMap_nil, chunksExact, if_pos (by simp), List.map_nil]
  | cons a l ih =>
    rw [List.flatMap_cons, chunksExact, if_neg (by rw [List.length_append, henc]; omega),
      List.take_left' (henc a), List.drop_left' (henc a), ih, List.map_cons]

theorem length_flatMap_const {α : Type} (n : Nat) (enc : α → Bytes) (l : List α)
    (henc : ∀ a, (enc a).length = n) : (l.flatMap enc).length = l.length * n := by
  induction l with
  | nil => simp
  | cons a l ih =>
    rw [List.flatMap_cons, List.length_append, henc, ih, List.length_cons, Nat.succ_mul,
      Nat.add_comm]

/-- Entries of one fixed width survive, if each of them does. -/
theorem decodeEntries_flatMap {α : Type} (n : Nat) (enc : α → Bytes) (entry : Bytes → α)
    (l : List α) (henc : ∀ a, (enc a).length = n + 1) (hentry : ∀ a, entry (enc a) = a) :
    decodeEntries n entry (l.flatMap enc) l.length = .ok l := by
  have hmap : (l.map enc).map entry = l := by
    rw [List.map_map]
    exact (List.map_congr_left fun a _ => hentry a).trans (List.map_id l)
  rw [decodeEntries, if_neg (by simp [length_flatMap_const (n + 1) enc l henc]),
    chunksExact_flatMap n enc l henc, hmap]

theorem length_chunksExact (n m : Nat) (data : Bytes) (h : data.length = m * (n + 1)) :
    (chunksExact n data).length = m := by
  induction m generalizing data with
  | zero => rw [chunksExact, if_pos (by omega), List.length_nil]
  | succ m ih =>
    have hlen : data.length = m * (n + 1) + (n + 1) := by
      rw [h, Nat.succ_mul]
    -- The first chunk takes `n + 1` bytes and leaves the data of `m` entries.
    rw [chunksExact, if_neg (by omega), List.length_cons, ih _ (by rw [List.length_drop]; omega)]

/-- A decoded list has as many entries as the data holds. -/
theorem length_of_decodeEntries {α : Type} {n : Nat} {entry : Bytes → α} {data : Bytes}
    {expected : Nat} {l : List α} (h : decodeEntries n entry data expected = .ok l) :
    l.length * (n + 1) = data.length := by
  unfold decodeEntries at h
  split at h
  · exact absurd h (by simp)
  · rename_i hlen
    obtain rfl := Except.ok.inj h
    have hlen : data.length = expected * (n + 1) := not_not.mp hlen
    rw [List.length_map, length_chunksExact n expected data hlen, hlen]

/-- `encode_ipv4_cidrs` and `decode_ipv4_cidrs`, with the count `entry_count_for` finds. -/
theorem decodeIpv4Cidrs_encodeIpv4Cidrs (l : List (Ipv4Addr × UInt8)) (h : 5 * l.length < 2 ^ 32) :
    decodeIpv4Cidrs (encodeIpv4Cidrs l)
      (entryCountFor .ipCidrV4 (encodeIpv4Cidrs l) % 2 ^ 32) = .ok l := by
  have hlen : (encodeIpv4Cidrs l).length = l.length * 5 := length_flatMap_const 5 _ l (by simp)
  -- The count is the byte length divided by the entry length; it fits the `u32` field.
  have hcount : entryCountFor .ipCidrV4 (encodeIpv4Cidrs l) % 2 ^ 32 = l.length := by
    simp only [entryCountFor, ipv4EntryLen, hlen]; omega
  rw [hcount]
  refine decodeEntries_flatMap 4 _ _ l (by simp) fun a => ?_
  rw [List.take_left' (by simp), Ipv4Addr.ofOctets_octets, List.getD_eq_getElem?_getD,
    List.getElem?_append_right (by simp)]
  simp

/-- `decode_ipv6_cidrs` reads back what `encode_ipv6_cidrs` writes, while the size of the section fits into 32
    bits. -/
theorem decodeIpv6Cidrs_encodeIpv6Cidrs (l : List (Ipv6Addr × UInt8))
    (h : 17 * l.length < 2 ^ 32) :
    decodeIpv6Cidrs (encodeIpv6Cidrs l)
      (entryCountFor .ipCidrV6 (encodeIpv6Cidrs l) % 2 ^ 32) = .ok l := by
  have hlen : (encodeIpv6Cidrs l).length = l.length * 17 := length_flatMap_const 17 _ l (by simp)
  have hcount : entryCountFor .ipCidrV6 (encodeIpv6Cidrs l) % 2 ^ 32 = l.length := by
    simp only [entryCountFor, ipv6EntryLen, hlen]; omega
  rw [hcount]
  refine decodeEntries_flatMap 16 _ _ l (by simp) fun a => ?_
  rw [List.take_left' (by simp), Ipv6Addr.ofOctets_octets, List.getD_eq_getElem?_getD,
    List.getElem?_append_right (by simp)]
  simp

/-- `decode_ports` reads back what `encode_ports` writes, while the size of the section fits into 32 bits. -/
theorem decodePorts_encodePorts (l : List (UInt16 × UInt16)) (h : 4 * l.length < 2 ^ 32) :
    decodePorts (encodePorts l) (entryCountFor .port (encodePorts l) % 2 ^ 32) = .ok l := by
  have hlen : (encodePorts l).length = l.length * 4 := length_flatMap_const 4 _ l (by simp)
  have hcount : entryCountFor .port (encodePorts l) % 2 ^ 32 = l.length := by
    simp only [entryCountFor, portEntryLen, hlen]; omega
  have hport : ∀ p : UInt16, UInt16.ofNat (leVal (leBytes 2 p.toNat)) = p := by
    intro p
    rw [leVal_leBytes_of_lt p.toNat_lt, UInt16.ofNat_toNat]
  rw [hcount]
  refine decodeEntries_flatMap 3 _ _ l (by simp) fun a => ?_
  rw [List.take_left' (by simp), List.drop_left' (by simp), List.take_of_length_le (by simp),
    hport, hport]

/-! ### Sections -/

theorem readExact_append {n : Nat} (bs rest : Bytes) (h : bs.length = n) :
    readExact n (bs ++ rest) = some (bs, rest) := by
  rw [readExact, if_pos (by simp [← h]), List.take_left' h, List.drop_left' h]

/-- What the section loop reads of a written section: count and byte length come back modulo
    `2 ^ 32`. -/
theorem readSection_encodeSection_mod (t : SectionType) (data rest : Bytes) :
    readSection (encodeSection t data ++ rest)
      = .ok (t, entryCountFor t data % 2 ^ 32, (data ++ rest).take (data.length % 2 ^ 32),
          (data ++ rest).drop (data.length % 2 ^ 32)) := by
  -- The header is one byte of type and two `u32` fields.
  have hsplit : encodeSection t data ++ rest
      = ([t.toByte] ++ (leBytes 4 (entryCountFor t data) ++ leBytes 4 data.length)) ++ (data ++ rest) := by
    simp [encodeSection]
  have hheader : readExact sectionHeaderLen (encodeSection t data ++ rest)
      = some ([t.toByte] ++ (leBytes 4 (entryCountFor t data) ++ leBytes 4 data.length),
          data ++ rest) := by
    rw [hsplit, readExact_append _ _ (by simp [sectionHeaderLen])]
  -- Both fields keep their value modulo the range of four bytes.
  have hpow : 256 ^ 4 = 2 ^ 32 := by decide
  have hcount : leVal ((([t.toByte] ++ (leBytes 4 (entryCountFor t data)
      ++ leBytes 4 data.length)).drop 1).take 4) = entryCountFor t data % 2 ^ 32 := by
    rw [List.drop_left' (by simp), List.take_left' (by simp), leVal_leBytes, hpow]
  have hbytes : leVal ((([t.toByte] ++ (leBytes 4 (entryCountFor t data)
      ++ leBytes 4 data.length)).drop 5).take 4) = data.length % 2 ^ 32 := by
    rw [← List.append_assoc, List.drop_left' (by simp), List.take_of_length_le (by simp),
      leVal_leBytes, hpow]
  have hdata : readExact (data.length % 2 ^ 32) (data ++ rest)
      = some ((data ++ rest).take (data.length % 2 ^ 32),
          (data ++ rest).drop (data.length % 2 ^ 32)) := by
    have := Nat.mod_le data.length (2 ^ 32)
    rw [readExact, if_pos (by rw [List.length_append]; omega)]
  simp only [readSection, hheader, hcount, hbytes, hdata]
  rw [show ([t.toByte] ++ (leBytes 4 (entryCountFor t data) ++ leBytes 4 data.length)).getD 0 0
    = t.toByte from rfl, SectionType.tryFrom_toByte]

/-- **One section.** A section whose byte length fits `u32` is read back. -/
theorem readSection_encodeSection (t : SectionType) (data rest : Bytes)
    (h : data.length < 2 ^ 32) :
    readSection (encodeSection t data ++ rest)
      = .ok (t, entryCountFor t data % 2 ^ 32, data, rest) := by
  rw [readSection_encodeSection_mod, Nat.mod_eq_of_lt h, List.take_left, List.drop_left]

/-- Storing one section, with the entry count the file gives it. -/
def storeSection (out : LoadedRuleSet) (s : SectionType × Bytes) :
    Except RuleSetError LoadedRuleSet :=
  out.setSection s.1 (entryCountFor s.1 s.2 % 2 ^ 32) s.2

/-- **The section loop.** Reading written sections stores them one after the other. -/
theorem readSections_flatMap (ss : List (SectionType × Bytes)) (out : LoadedRuleSet)
    (h : ∀ s ∈ ss, s.2.length < 2 ^ 32) :
    readSections ss.length (ss.flatMap fun s => encodeSection s.1 s.2) out
      = ss.foldlM storeSection out := by
  induction ss generalizing out with
  | nil => rfl
  | cons s ss ih =>
    rw [List.flatMap_cons, List.length_cons, readSections,
      readSection_encodeSection _ _ _ (h s (by simp)), List.foldlM_cons]
    simp only [bind, Except.bind, storeSection]
    -- A section that cannot be stored ends the loop on both sides.
    rcases out.setSection s.1 (entryCountFor s.1 s.2 % 2 ^ 32) s.2 with e | out'
    · rfl
    · exact ih out' fun t ht => h t (by simp [ht])

/-- The file header announces the sections behind it. -/
theorem fromBytes_header {count : Nat} (hcount : count < 2 ^ 32) (rest : Bytes) :
    LoadedRuleSet.fromBytes (magic ++ [version] ++ [0x00] ++ leBytes 4 count ++ [0, 0, 0, 0] ++ rest)
      = readSections count rest {} := by
  have hheader : readExact headerLen (magic ++ [version] ++ [0x00] ++ leBytes 4 count
      ++ [0, 0, 0, 0] ++ rest)
      = some (magic ++ [version] ++ [0x00] ++ leBytes 4 count ++ [0, 0, 0, 0], rest) :=
    readExact_append _ _ (by simp [headerLen, magic])
  have hval : leVal (((magic ++ [version] ++ [0x00] ++ leBytes 4 count
      ++ [0, 0, 0, 0]).drop 6).take 4) = count := by
    rw [List.append_assoc, List.drop_left' (by simp [magic]), List.take_left' (by simp),
      leVal_leBytes_of_lt (hcount.trans_eq (by decide))]
  simp only [LoadedRuleSet.fromBytes, hheader, hval]
  rw [if_neg (by simp [magic]), if_neg (by simp [magic])]

/-! ### The limits of the format -/

/-- What the loader can return: one-byte string lengths and four-byte section lengths. -/
structure LoadedRuleSet.Small (l : LoadedRuleSet) : Prop where
  keywords : ∀ k ∈ l.domainKeywords, ShortStr k
  regexes : ∀ r ∈ l.domainRegexes, ShortStr r
  domainFst : l.domainFst.length < 2 ^ 32
  domainSuffixFst : l.domainSuffixFst.length < 2 ^ 32
  keywordBytes : (encodeStrings l.domainKeywords).length < 2 ^ 32
  regexBytes : (encodeStrings l.domainRegexes).length < 2 ^ 32
  ipv4Bytes : 5 * l.ipv4Cidrs.length < 2 ^ 32
  ipv6Bytes : 17 * l.ipv6Cidrs.length < 2 ^ 32
  portBytes : 4 * l.ports.length < 2 ^ 32

theorem LoadedRuleSet.small_empty : ({} : LoadedRuleSet).Small := by
  constructor <;> simp [encodeStrings]

private theorem map_ok {α β : Type} {x : Except RuleSetError α} {f : α → β} {b : β}
    (h : (do return f (← x)) = .ok b) : ∃ a, x = .ok a ∧ f a = b := by
  rcases x with e | a
  · exact absurd h (by simp [bind, Except.bind])
  · exact ⟨a, rfl, Except.ok.inj h⟩

/-- Storing a section of a file keeps the rule set small. -/
theorem LoadedRuleSet.Small.setSection {out out' : LoadedRuleSet} {t : SectionType} {count : Nat}
    {data : Bytes} (hout : out.Small) (hdata : data.length < 2 ^ 32)
    (h : out.setSection t count data = .ok out') : out'.Small := by
  cases t with
  -- The sections of version 1 set lists that version 2 leaves alone.
  | domain | domainSuffix =>
    obtain ⟨ss, -, rfl⟩ := map_ok h
    exact { hout with }
  | domainFst =>
    obtain rfl := Except.ok.inj h
    exact { hout with domainFst := hdata }
  | domainSuffixFst =>
    obtain rfl := Except.ok.inj h
    exact { hout with domainSuffixFst := hdata }
  | domainKeyword =>
    obtain ⟨ss, hss, rfl⟩ := map_ok h
    obtain ⟨henc, hshort⟩ := encodeStrings_of_decodeStrings hss
    -- What was decoded encodes to the data again, and that is short.
    exact { hout with keywords := hshort, keywordBytes := henc ▸ hdata }
  | domainRegex =>
    obtain ⟨ss, hss, rfl⟩ := map_ok h
    obtain ⟨henc, hshort⟩ := encodeStrings_of_decodeStrings hss
    exact { hout with regexes := hshort, regexBytes := henc ▸ hdata }
  | ipCidrV4 =>
    obtain ⟨l, hl, rfl⟩ := map_ok h
    -- The number of entries is decided by the byte length of the data.
    have hlen := length_of_decodeEntries hl
    exact { hout with ipv4Bytes := by show 5 * l.length < 2 ^ 32; omega }
  | ipCidrV6 =>
    obtain ⟨l, hl, rfl⟩ := map_ok h
    have hlen := length_of_decodeEntries hl
    exact { hout with ipv6Bytes := by show 17 * l.length < 2 ^ 32; omega }
  | port =>
    obtain ⟨l, hl, rfl⟩ := map_ok h
    have hlen := length_of_decodeEntries hl
    exact { hout with portBytes := by show 4 * l.length < 2 ^ 32; omega }

/-- The data of a section is shorter than `2 ^ 32` bytes, its length field being a `u32`. -/
theorem length_of_readSection {r rest data : Bytes} {t : SectionType} {count : Nat}
    (h : readSection r = .ok (t, count, data, rest)) : data.length < 2 ^ 32 := by
  unfold readSection at h
  rcases hheader : readExact sectionHeaderLen r with _ | ⟨header, r'⟩
  · simp [hheader] at h
  · simp only [hheader] at h
    split at h
    · exact absurd h (by simp)
    · split at h
      · exact absurd h (by simp)
      · rename_i data' r'' hdata
        obtain ⟨-, -, rfl, rfl⟩ : _ ∧ _ ∧ data' = data ∧ r'' = rest := by simpa using h
        obtain ⟨hle, rfl, -⟩ : _ ∧ _ ∧ _ := by simpa [readExact] using hdata
        -- The length field has at most four bytes, whatever the header is.
        have hlt := leVal_lt ((header.drop 5).take 4)
        have hfour : ((header.drop 5).take 4).length ≤ 4 := List.length_take_le _ _
        calc (r'.take (leVal ((header.drop 5).take 4))).length
            ≤ leVal ((header.drop 5).take 4) := List.length_take_le _ _
          _ < 256 ^ ((header.drop 5).take 4).length := hlt
          _ ≤ 256 ^ 4 := Nat.pow_le_pow_right (by decide) hfour
          _ = 2 ^ 32 := by decide

theorem LoadedRuleSet.Small.readSections {count : Nat} {r : Bytes} {out l : LoadedRuleSet}
    (hout : out.Small) (h : readSections count r out = .ok l) : l.Small := by
  induction count generalizing r out with
  | zero =>
    obtain rfl := Except.ok.inj h
    exact hout
  | succ count ih =>
    rw [Ruleset.readSections] at h
    rcases hsec : readSection r with e | ⟨t, n, data, rest⟩
    · simp [hsec, bind, Except.bind] at h
    · rcases hset : out.setSection t n data with e | out'
      · simp [hsec, hset, bind, Except.bind] at h
      · simp only [hsec, hset, bind, Except.bind] at h
        exact ih (hout.setSection (length_of_readSection hsec) hset) h

/-- **Limits of the loader.** Whatever bytes it is given, the loader returns a rule set within
    the limits of the format. -/
theorem LoadedRuleSet.small_of_fromBytes {bs : Bytes} {l : LoadedRuleSet}
    (h : LoadedRuleSet.fromBytes bs = .ok l) : l.Small := by
  unfold LoadedRuleSet.fromBytes at h
  rcases hheader : readExact headerLen bs with _ | ⟨header, r⟩
  · simp [hheader] at h
  · simp only [hheader] at h
    split at h
    · exact absurd h (by simp)
    · split at h
      · exact absurd h (by simp)
      · exact small_empty.readSections h

/-! ### The round trip -/

variable (E : Externals)

/-- `from_bytes` of what `serialize` writes succeeds and returns the same lists and the FSTs
    that were built. -/
def CompiledRuleSet.RoundTrips (c : CompiledRuleSet) : Prop :=
  ∃ bytes domainFst domainSuffixFst,
    c.serialize E = .ok bytes ∧
    buildDomainFst E c.domains = .ok domainFst ∧
    buildSuffixFst E c.domainSuffixes = .ok domainSuffixFst ∧
    LoadedRuleSet.fromBytes bytes = .ok
      { domainFst, domainSuffixFst
        domainKeywords := c.domainKeywords, domainRegexes := c.domainRegexes
        ipv4Cidrs := c.ipv4Cidrs, ipv6Cidrs := c.ipv6Cidrs, ports := c.ports }

/-- The sections of a rule set all have byte lengths that fit `u32`. -/
structure CompiledRuleSet.SectionsFit (c : CompiledRuleSet) : Prop where
  domainFst : ∀ fst, buildDomainFst E c.domains = .ok fst → fst.length < 2 ^ 32
  domainSuffixFst : ∀ fst, buildSuffixFst E c.domainSuffixes = .ok fst → fst.length < 2 ^ 32
  keywordBytes : (c.domainKeywords.map fun k => (utf8 k).length + 1).sum < 2 ^ 32
  regexBytes : (c.domainRegexes.map fun r => (utf8 r).length + 1).sum < 2 ^ 32
  ipv4Bytes : 5 * c.ipv4Cidrs.length < 2 ^ 32
  ipv6Bytes : 17 * c.ipv6Cidrs.length < 2 ^ 32
  portBytes : 4 * c.ports.length < 2 ^ 32

/-- Keywords and patterns of at most 255 bytes, and sections that fit `u32`. -/
structure CompiledRuleSet.Fits (c : CompiledRuleSet) : Prop extends c.SectionsFit E where
  keywords : ∀ k ∈ c.domainKeywords, ShortStr k
  regexes : ∀ r ∈ c.domainRegexes, ShortStr r

variable {E}

/-- One section in front of the others: an empty one is not written, and storing it would not
    have changed anything. -/
private theorem foldlM_filter_cons {s : SectionType × Bytes} {ss : List (SectionType × Bytes)}
    {o p : LoadedRuleSet} (hstep : storeSection o s = .ok p) (hempty : s.2 = [] → p = o) :
    ((s :: ss).filter fun s => !s.2.isEmpty).foldlM storeSection o
      = (ss.filter fun s => !s.2.isEmpty).foldlM storeSection p := by
  by_cases hs : s.2 = []
  · rw [List.filter_cons_of_neg (by simp [hs]), hempty hs]
  · rw [List.filter_cons_of_pos (by simpa using hs), List.foldlM_cons, hstep]
    rfl

private theorem eq_nil_of_flatMap {α : Type} {l : List α} {enc : α → Bytes}
    (henc : ∀ a, enc a ≠ []) (h : l.flatMap enc = []) : l = [] := by
  cases l with
  | nil => rfl
  | cons a l => exact absurd (List.append_eq_nil_iff.mp h).1 (henc a)

/-- **Storing the sections** of a rule set within the limits gives back its lists. -/
theorem foldlM_sections {c : CompiledRuleSet} (h : c.Fits E) (domainFst domainSuffixFst : Bytes) :
    (c.sections domainFst domainSuffixFst).foldlM storeSection {} = .ok
      { domainFst, domainSuffixFst
        domainKeywords := c.domainKeywords, domainRegexes := c.domainRegexes
        ipv4Cidrs := c.ipv4Cidrs, ipv6Cidrs := c.ipv6Cidrs, ports := c.ports } := by
  have hkeywords : ∀ out : LoadedRuleSet,
      storeSection out (.domainKeyword, encodeStrings c.domainKeywords)
        = .ok { out with domainKeywords := c.domainKeywords } := by
    intro out
    simp only [storeSection, LoadedRuleSet.setSection, decodeStrings_encodeStrings _ h.keywords]
    rfl
  have hregexes : ∀ out : LoadedRuleSet,
      storeSection out (.domainRegex, encodeStrings c.domainRegexes)
        = .ok { out with domainRegexes := c.domainRegexes } := by
    intro out
    simp only [storeSection, LoadedRuleSet.setSection, decodeStrings_encodeStrings _ h.regexes]
    rfl
  have hipv4 : ∀ out : LoadedRuleSet,
      storeSection out (.ipCidrV4, encodeIpv4Cidrs c.ipv4Cidrs)
        = .ok { out with ipv4Cidrs := c.ipv4Cidrs } := by
    intro out
    simp only [storeSection, LoadedRuleSet.setSection,
      decodeIpv4Cidrs_encodeIpv4Cidrs _ h.ipv4Bytes]
    rfl
  have hipv6 : ∀ out : LoadedRuleSet,
      storeSection out (.ipCidrV6, encodeIpv6Cidrs c.ipv6Cidrs)
        = .ok { out with ipv6Cidrs := c.ipv6Cidrs } := by
    intro out
    simp only [storeSection, LoadedRuleSet.setSection,
      decodeIpv6Cidrs_encodeIpv6Cidrs _ h.ipv6Bytes]
    rfl
  have hports : ∀ out : LoadedRuleSet,
      storeSection out (.port, encodePorts c.ports) = .ok { out with ports := c.ports } := by
    intro out
    simp only [storeSection, LoadedRuleSet.setSection, decodePorts_encodePorts _ h.portBytes]
    rfl
  -- an empty section is left out, and its list is the default one
  have hnil : ∀ {α : Type} {l : List α} {enc : α → Bytes} {o p : LoadedRuleSet},
      (∀ a, enc a ≠ []) → (l = [] → p = o) → l.flatMap enc = [] → p = o :=
    fun henc hp hl => hp (eq_nil_of_flatMap henc hl)
  -- The sections in the order `serialize` writes them.
  rw [CompiledRuleSet.sections,
    foldlM_filter_cons (p := { domainFst }) rfl (by rintro rfl; rfl),
    foldlM_filter_cons (p := { domainFst, domainSuffixFst }) rfl (by rintro rfl; rfl),
    foldlM_filter_cons (hkeywords _) (hnil (by simp) fun hl => by simp [hl]),
    foldlM_filter_cons (hregexes _) (hnil (by simp) fun hl => by simp [hl]),
    foldlM_filter_cons (hipv4 _) (hnil (by simp) fun hl => by simp [hl]),
    foldlM_filter_cons (hipv6 _) (hnil (by simp) fun hl => by simp [hl]),
    foldlM_filter_cons (hports _) (hnil (by simp [leBytes]) fun hl => by simp [hl])]
  rfl

/-- `serialize` writes the sections behind the file header. -/
theorem serialize_eq {c : CompiledRuleSet} {domainFst suffixFst : Bytes}
    (hdomain : buildDomainFst E c.domains = .ok domainFst)
    (hsuffix : buildSuffixFst E c.domainSuffixes = .ok suffixFst) :
    c.serialize E = .ok (magic ++ [version] ++ [0x00]
      ++ leBytes 4 (c.sections domainFst suffixFst).length ++ [0, 0, 0, 0]
      ++ (c.sections domainFst suffixFst).flatMap fun s => encodeSection s.1 s.2) := by
  rw [CompiledRuleSet.serialize, hdomain, hsuffix]
  rfl

theorem length_sections_le (c : CompiledRuleSet) (domainFst suffixFst : Bytes) :
    (c.sections domainFst suffixFst).length ≤ 7 :=
  List.length_filter_le _ _

/-- Within the limits every section length fits `u32`. -/
theorem length_lt_of_mem_sections {c : CompiledRuleSet} (h : c.SectionsFit E)
    {domainFst suffixFst : Bytes} (hdomain : buildDomainFst E c.domains = .ok domainFst)
    (hsuffix : buildSuffixFst E c.domainSuffixes = .ok suffixFst) :
    ∀ s ∈ c.sections domainFst suffixFst, s.2.length < 2 ^ 32 := by
  have h4 : (encodeIpv4Cidrs c.ipv4Cidrs).length = c.ipv4Cidrs.length * 5 :=
    length_flatMap_const 5 _ _ (by simp)
  have h6 : (encodeIpv6Cidrs c.ipv6Cidrs).length = c.ipv6Cidrs.length * 17 :=
    length_flatMap_const 17 _ _ (by simp)
  have hp : (encodePorts c.ports).length = c.ports.length * 4 :=
    length_flatMap_const 4 _ _ (by simp)
  have h4' := h.ipv4Bytes
  have h6' := h.ipv6Bytes
  have hp' := h.portBytes
  intro s hs
  have hs := List.mem_of_mem_filter hs
  -- One of the seven sections, empty or not.
  simp only [List.mem_cons, List.not_mem_nil, or_false] at hs
  rcases hs with rfl | rfl | rfl | rfl | rfl | rfl | rfl
  · exact h.domainFst _ hdomain
  · exact h.domainSuffixFst _ hsuffix
  · exact (length_encodeStrings _).trans_lt h.keywordBytes
  · exact (length_encodeStrings _).trans_lt h.regexBytes
  · show (encodeIpv4Cidrs c.ipv4Cidrs).length < 2 ^ 32
    omega
  · show (encodeIpv6Cidrs c.ipv6Cidrs).length < 2 ^ 32
    omega
  · show (encodePorts c.ports).length < 2 ^ 32
    omega

/-- **Within the limits** of the format the round trip succeeds. -/
theorem CompiledRuleSet.Fits.roundTrips (hE : E.FstLawful) {c : CompiledRuleSet} (h : c.Fits E) :
    c.RoundTrips E := by
  obtain ⟨domainFst, hdomain, -, -⟩ := buildFst_spec E hE domainToFstKey c.domains
  obtain ⟨suffixFst, hsuffix, -, -⟩ := buildFst_spec E hE suffixToFstKey c.domainSuffixes
  refine ⟨_, domainFst, suffixFst, serialize_eq hdomain hsuffix, hdomain, hsuffix, ?_⟩
  have hlen := length_sections_le c domainFst suffixFst
  rw [fromBytes_header (by omega),
    readSections_flatMap _ {} (length_lt_of_mem_sections h.toSectionsFit hdomain hsuffix),
    foldlM_sections h]

/-- **Only within the limits**: the loader returns nothing else. -/
theorem CompiledRuleSet.RoundTrips.fits {c : CompiledRuleSet} (h : c.RoundTrips E) : c.Fits E := by
  obtain ⟨bytes, domainFst, suffixFst, -, hdomain, hsuffix, hload⟩ := h
  have hsmall := LoadedRuleSet.small_of_fromBytes hload
  -- The loader returned the lists, so they are within what it can return.
  refine { domainFst := ?_, domainSuffixFst := ?_
           keywordBytes := (length_encodeStrings _).symm.trans_lt hsmall.keywordBytes
           regexBytes := (length_encodeStrings _).symm.trans_lt hsmall.regexBytes
           ipv4Bytes := hsmall.ipv4Bytes
           ipv6Bytes := hsmall.ipv6Bytes, portBytes := hsmall.portBytes
           keywords := hsmall.keywords, regexes := hsmall.regexes }
  · intro fst hfst
    obtain rfl : domainFst = fst := Except.ok.inj (hdomain.symm.trans hfst)
    exact hsmall.domainFst
  · intro fst hfst
    obtain rfl : suffixFst = fst := Except.ok.inj (hsuffix.symm.trans hfst)
    exact hsmall.domainSuffixFst

/-- **Round trip.** A rule set survives `serialize` and `from_bytes` exactly when its keywords
    and patterns have at most 255 bytes each and its sections fit `u32` lengths. -/
theorem roundTrips_iff_fits (hE : E.FstLawful) (c : CompiledRuleSet) :
    c.RoundTrips E ↔ c.Fits E :=
  ⟨fun h => h.fits, fun h => h.roundTrips hE⟩

/-- The round trip on a small rule set. -/
theorem roundTrips_iff_fits_ads :
    Externals.plain.FstLawful ∧
      (({ domainKeywords := ["ads".toList], ports := [(80, 443)] } : CompiledRuleSet).RoundTrips
          .plain ↔
        ({ domainKeywords := ["ads".toList], ports := [(80, 443)] } : CompiledRuleSet).Fits
          .plain) :=
  ⟨Externals.fstLawful_plain, roundTrips_iff_fits Externals.fstLawful_plain _⟩

/-- A keyword of 256 bytes is accepted by `from_text` and does not survive: its length is
    written as `0`. -/
theorem not_roundTrips_long_keyword :
    CompiledRuleSet.fromText .plain ("domain-keyword: ".toList ++ List.replicate 256 'a')
        = .ok { domainKeywords := [List.replicate 256 'a'] } ∧
      ¬ ({ domainKeywords := [List.replicate 256 'a'] } : CompiledRuleSet).RoundTrips .plain := by
  refine ⟨by decide +kernel, fun h => ?_⟩
  -- A round trip would make the keyword a short string.
  have hshort : ShortStr (List.replicate 256 'a') := h.fits.keywords _ (List.mem_singleton.mpr rfl)
  exact absurd hshort (by decide +kernel)

end Reflex.Ruleset
