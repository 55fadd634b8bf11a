import Reflex.RustStd.Net

namespace Reflex.Ruleset

open RustStd

/-!
# Rule sets — the `.rrs` format, its errors, and the code outside the repository

`ruleset/format.rs` and `ruleset/error.rs`: the constants and section types of the binary format and the errors of
compiling and loading, with their texts.

* `SectionType` — the types of sections, and the byte of each;
* `RuleSetError` — why a rule set is refused;
* `Externals` — what the rule-set code calls from other crates: automata over sorted keys, regular expressions, JSON;
* `Externals.FstLawful` — the documented behaviour of the `fst` crate that the matcher relies on;
* `Externals.plain` — sorted lists in the place of automata, for running examples, with `fstLawful_plain`.
-/

/-! ### Errors -/

/-- `RuleSetError`. -/
inductive RuleSetError where
  | parseError (line : Nat) (msg : Str)
  | invalidCidr (cidr msg : Str)
  | invalidPort (s : Str)
  | invalidRegex (re msg : Str)
  | domainTooLong (s : Str)
  | badMagic
  | unsupportedVersion (v : UInt8)
  | unknownSection (b : UInt8)
  | truncated (expected got : Nat)
  | invalidUtf8
  | loadedInvalidRegex (msg : Str)
  | io (msg : Str)
  deriving DecidableEq, Repr

/-- A byte as two lower-case hexadecimal digits (`{:02x}`). -/
def hex2 (b : UInt8) : Str :=
  [Nat.digitChar (b.toNat / 16), Nat.digitChar (b.toNat % 16)]

/-- `Display` of `RuleSetError`. -/
def RuleSetError.toText : RuleSetError → Str
  | .parseError line msg => "line ".toList ++ display line ++ ": ".toList ++ msg
  | .invalidCidr cidr msg => "invalid CIDR '".toList ++ cidr ++ "': ".toList ++ msg
  | .invalidPort s => "invalid port range '".toList ++ s ++ "'".toList
  | .invalidRegex re msg => "invalid regex '".toList ++ re ++ "': ".toList ++ msg
  | .domainTooLong s => "domain too long (max 255): '".toList ++ s ++ "'".toList
  | .badMagic => "bad magic bytes, not a ruleset file".toList
  | .unsupportedVersion v => "unsupported version ".toList ++ display v.toNat
  | .unknownSection b => "unknown section type 0x".toList ++ hex2 b
  | .truncated expected got =>
      "section data truncated (expected ".toList ++ display expected ++ " bytes, got ".toList
        ++ display got ++ ")".toList
  | .invalidUtf8 => "invalid UTF-8 in domain entry".toList
  | .loadedInvalidRegex msg => "invalid regex in loaded ruleset: ".toList ++ msg
  | .io msg => "IO error: ".toList ++ msg

/-! ### The binary format -/

/-- `MAGIC`: `b"RRST"`. -/
def magic : Bytes := [0x52, 0x52, 0x53, 0x54]

/-- `VERSION`. -/
def version : UInt8 := 0x02

/-- `VERSION_V1`. -/
def versionV1 : UInt8 := 0x01

/-- `HEADER_LEN`. -/
def headerLen : Nat := 14

/-- `SECTION_HEADER_LEN`. -/
def sectionHeaderLen : Nat := 9

/-- `IPV4_ENTRY_LEN`. -/
def ipv4EntryLen : Nat := 5

/-- `IPV6_ENTRY_LEN`. -/
def ipv6EntryLen : Nat := 17

/-- `PORT_ENTRY_LEN`. -/
def portEntryLen : Nat := 4

/-- `SectionType`. -/
inductive SectionType where
  | domain | domainSuffix | domainKeyword | domainRegex | domainFst | domainSuffixFst
  | ipCidrV4 | ipCidrV6 | port
  deriving DecidableEq, Repr

/-- `*sec_type as u8`. -/
def SectionType.toByte : SectionType → UInt8
  | .domain => 0x01
  | .domainSuffix => 0x02
  | .domainKeyword => 0x03
  | .domainRegex => 0x04
  | .domainFst => 0x05
  | .domainSuffixFst => 0x06
  | .ipCidrV4 => 0x10
  | .ipCidrV6 => 0x11
  | .port => 0x20

/-- `SectionType::try_from`. -/
def SectionType.tryFrom (v : UInt8) : Option SectionType :=
  if v = 0x01 then some .domain
  else if v = 0x02 then some .domainSuffix
  else if v = 0x03 then some .domainKeyword
  else if v = 0x04 then some .domainRegex
  else if v = 0x05 then some .domainFst
  else if v = 0x06 then some .domainSuffixFst
  else if v = 0x10 then some .ipCidrV4
  else if v = 0x11 then some .ipCidrV6
  else if v = 0x20 then some .port
  else none

@[simp] theorem SectionType.tryFrom_toByte (t : SectionType) : tryFrom t.toByte = some t := by
  cases t <;> rfl

/-! ### Code outside the repository -/

/-- `serde_json::Number`. -/
inductive JsonNumber where
  | posInt (n : Nat)
  | negInt (n : Nat)
  | float

/-- `serde_json::Value`. -/
inductive JsonValue where
  | null
  | bool (b : Bool)
  | number (n : JsonNumber)
  | string (s : Str)
  | array (elems : List JsonValue)
  | object (fields : List (Str × JsonValue))

/-- An opened `fst::Set`. -/
structure FstSet where
  contains : Bytes → Bool

/-- What the rule-set and routing code calls from other crates, and `str::to_lowercase`,
    whose Unicode tables are not modelled. -/
structure Externals where
  /-- `SetBuilder::new(&mut buf)`, `insert` of every key, `finish`: the bytes left in `buf`. -/
  fstBuild : List Bytes → Except Str Bytes
  /-- `fst::Set::new`. -/
  fstSetNew : Bytes → Except Str FstSet
  /-- `Regex::new`. -/
  regexNew : Str → Except Str Unit
  /-- `RegexSet::new`; an open set is its `is_match`. -/
  regexSetNew : List Str → Except Str (Str → Bool)
  /-- `serde_json::from_str::<SingBoxEnvelope>`: the `rules` of the envelope. -/
  singBoxEnvelope : Str → Except Str (List JsonValue)
  /-- The text of the error `serde_json::from_value` makes of a value it rejects. -/
  serdeMessage : JsonValue → Str
  /-- `str::to_lowercase`. -/
  toLowercase : Str → Str

/-- The `fst` crate: a set built from strictly increasing keys is stored in a non-empty byte
    string (it starts with a header) from which it opens again, and it contains exactly the
    inserted keys. -/
structure Externals.FstLawful (E : Externals) : Prop where
  build : ∀ keys : List Bytes, keys ≠ [] → keys.Pairwise (· < ·) →
    ∃ bytes set, E.fstBuild keys = .ok bytes ∧ bytes ≠ [] ∧ E.fstSetNew bytes = .ok set ∧
      ∀ k, set.contains k = true ↔ k ∈ keys

/-! ### A plain instance -/

/-- A key as it is stored by `plainFstBuild`: every byte marked by a `1`, then a `0`. -/
def plainKey (k : Bytes) : Bytes := (k.flatMap fun b => [1, b]) ++ [0]

/-- A set stored key after key behind a header byte. -/
def plainFstBuild (keys : List Bytes) : Bytes := 0x02 :: keys.flatMap plainKey

/-- The keys stored by `plainFstBuild`; `acc` holds the bytes of the current key in reverse. -/
def plainKeysGo : Bytes → Bytes → List Bytes
  | acc, 0 :: rest => acc.reverse :: plainKeysGo [] rest
  | acc, _ :: b :: rest => plainKeysGo (b :: acc) rest
  | _, _ => []

private theorem plainKeysGo_plainKey (acc k rest : Bytes) :
    plainKeysGo acc (plainKey k ++ rest) = (acc.reverse ++ k) :: plainKeysGo [] rest := by
  -- over the bytes of the key, which pass one by one into `acc`
  induction k generalizing acc with
  | nil => simp [plainKey, plainKeysGo]
  | cons b k ih =>
    have hcons : plainKey (b :: k) ++ rest = 1 :: b :: (plainKey k ++ rest) := rfl
    rw [hcons, plainKeysGo, ih]
    · simp
    · decide

private theorem plainKeysGo_flatMap (keys : List Bytes) :
    plainKeysGo [] (keys.flatMap plainKey) = keys := by
  induction keys with
  | nil => rfl
  | cons k keys ih => rw [List.flatMap_cons, plainKeysGo_plainKey, ih]; rfl

/-- An instance to run the model with: sets are stored key after key, patterns of letters and
    digits match as literals, other patterns and JSON texts are rejected, and only ASCII
    letters are lower-cased. -/
def Externals.plain : Externals where
  fstBuild keys := .ok (plainFstBuild keys)
  fstSetNew bytes := .ok ⟨fun k => decide (k ∈ plainKeysGo [] (bytes.drop 1))⟩
  regexNew re := if re.all Char.isAlphanum then .ok () else .error "unsupported".toList
  regexSetNew res :=
    if res.all fun re => re.all Char.isAlphanum then .ok fun s => res.any fun re => decide (re <:+: s)
    else .error "unsupported".toList
  singBoxEnvelope _ := .error "expected value at line 1 column 1".toList
  serdeMessage _ := "invalid type".toList
  toLowercase := toAsciiLowercase

theorem Externals.fstLawful_plain : Externals.plain.FstLawful where
  build keys _ _ := by
    refine ⟨plainFstBuild keys, _, rfl, by simp [plainFstBuild], rfl, fun k => ?_⟩
    simp [plainFstBuild, plainKeysGo_flatMap]

end Reflex.Ruleset
