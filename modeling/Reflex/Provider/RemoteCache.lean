import Reflex.Lib.Base64
import Reflex.Provider.Manager

namespace Reflex.Provider

open RustStd

/-!
# Providers — subscriptions and their cache file

`fetch_and_update` and `start_remote_provider` of `provider/remote.rs`, with the detection of formats of
`provider/parser/mod.rs`; the parsers of the formats and the decoders of Base64 are parameters.  What is
downloaded is written to the cache file before it is parsed.

* `parseAuto` — a format that is recognised as it is, or behind Base64;
* `manager_of_error` — an update that fails leaves the nodes alone;
* `unchanged_iff` — exactly when it leaves the cache file alone;
* `unchanged_of_run` — over any number of failed updates.
-/

variable {κ : Type}

/-! ### Formats -/

/-- The parsers of the formats, `parse_singbox_json` and `parse_clash_yaml`, and the decoders `STANDARD` and
    `URL_SAFE` of the `base64` crate. -/
structure Parsers (κ : Type) where
  singbox : Str → Except Str (ProviderNodes κ)
  clash : Str → Except Str (ProviderNodes κ)
  standard : Bytes → Option Bytes
  urlSafe : Bytes → Option Bytes

/-- `looks_like_yaml`. -/
def looksLikeYaml (text : Str) : Bool :=
  (lines text).any fun line => "proxies:".toList <+: line.dropWhile isWhitespace

/-- `try_parse`. -/
def tryParse (parsers : Parsers κ) (bytes : Bytes) : Except Str (ProviderNodes κ) :=
  match fromUtf8 bytes with
  | none => .error "content is not valid UTF-8".toList
  | some text =>
      match parsers.singbox text with
      | .ok (node :: nodes) => .ok (node :: nodes)
      | _ => if looksLikeYaml text then parsers.clash text else .error "unrecognized format".toList

/-- `u8::is_ascii_whitespace`. -/
def isAsciiWhitespace (b : UInt8) : Bool := b = 0x20 || b = 0x09 || b = 0x0A || b = 0x0C || b = 0x0D

/-- `decode_base64`. -/
def decodeBase64 (parsers : Parsers κ) (bytes : Bytes) : Except Str Bytes :=
  let trimmed := bytes.filter fun b => !isAsciiWhitespace b
  match (parsers.standard trimmed).or (parsers.urlSafe trimmed) with
  | some decoded => .ok decoded
  | none => .error "base64 decode failed".toList

/-- `parse_auto`. -/
def parseAuto (parsers : Parsers κ) (bytes : Bytes) : Except Str (ProviderNodes κ) :=
  match tryParse parsers bytes with
  | .ok result => .ok result
  | .error _ => do
      let decoded ← decodeBase64 parsers bytes
      match tryParse parsers decoded with
      | .ok result => .ok result
      | .error _ => .error "unable to detect provider format (tried json, yaml, base64)".toList

/-! ### Updates -/

/-- `ProviderManager::update_nodes` on its own. -/
def ProviderManager.updateNodes (m : ProviderManager κ) (provider : Str) (raw : ProviderNodes κ) :
    ProviderManager κ :=
  let m := m.dedupName provider raw
  m.insertNodes provider ((m.named provider).getD [])

/-- How writing a file ends: it has the new content, or there was an error and it has something else. -/
inductive WriteOutcome where
  | written
  | failed (left : Option Bytes)

/-- The content of the file behind a write, if there is a file. -/
def WriteOutcome.file (bytes : Bytes) : WriteOutcome → Option Bytes
  | .written => some bytes
  | .failed left => left

/-- What a call of `fetch_and_update` meets with: the result of `download` and of the write. -/
structure Fetch where
  download : Except Str Bytes
  write : WriteOutcome

/-- The cache file of a provider, if there is one, and the nodes of all providers. -/
structure Remote (κ : Type) where
  cache : Option Bytes
  manager : ProviderManager κ

section Remote

variable (parsers : Parsers κ) (tag : Str) (hasPath : Bool)

/-- `fetch_and_update`; `hasPath` says whether the provider has a path for its cache file. -/
def fetchAndUpdate (s : Remote κ) (fetch : Fetch) : Except Str Unit × Remote κ :=
  match fetch.download with
  | .error e => (.error e, s)
  | .ok bytes =>
      let s := if hasPath then { s with cache := fetch.write.file bytes } else s
      match parseAuto parsers bytes with
      | .error e => (.error e, s)
      | .ok nodes => (.ok (), { s with manager := s.manager.updateNodes tag nodes })

/-- The nodes in the cache file. -/
def fromCache (cache : Option Bytes) : Option (ProviderNodes κ) :=
  if hasPath then cache.bind fun bytes => (parseAuto parsers bytes).toOption else none

/-- `start_remote_provider`, up to the updates in the background. -/
def startRemoteProvider (s : Remote κ) (fetch : Fetch) : Remote κ :=
  match fromCache parsers hasPath s.cache with
  | some nodes => { s with manager := s.manager.updateNodes tag nodes }
  | none => (fetchAndUpdate parsers tag hasPath s fetch).2

/-- If the update fails, the cache file and the nodes are what they were, and the next start does what
    it would have done. -/
def Unchanged (s : Remote κ) (fetch : Fetch) : Prop :=
  ∀ e, (fetchAndUpdate parsers tag hasPath s fetch).1 = .error e →
    (fetchAndUpdate parsers tag hasPath s fetch).2.cache = s.cache ∧
      (fetchAndUpdate parsers tag hasPath s fetch).2.manager = s.manager ∧
      ∀ manager next,
        startRemoteProvider parsers tag hasPath
          { cache := (fetchAndUpdate parsers tag hasPath s fetch).2.cache, manager } next
          = startRemoteProvider parsers tag hasPath { cache := s.cache, manager } next

/-- Bytes that no parser takes are not written over something else. -/
def Harmless (s : Remote κ) (fetch : Fetch) : Prop :=
  ∀ bytes e, fetch.download = .ok bytes → parseAuto parsers bytes = .error e → hasPath = true →
    fetch.write.file bytes = s.cache

variable {parsers tag hasPath} {s : Remote κ} {fetch : Fetch}

/-- What a failed update does: nothing, or it writes what it could not parse. -/
theorem fetchAndUpdate_error_cases {e : Str} (h : (fetchAndUpdate parsers tag hasPath s fetch).1 = .error e) :
    (fetch.download = .error e ∧ (fetchAndUpdate parsers tag hasPath s fetch).2 = s) ∨
      ∃ bytes, fetch.download = .ok bytes ∧ parseAuto parsers bytes = .error e ∧
        (fetchAndUpdate parsers tag hasPath s fetch).2 =
          if hasPath then { s with cache := fetch.write.file bytes } else s := by
  unfold fetchAndUpdate at h ⊢
  cases hdownload : fetch.download with
  | error e' =>
    rw [hdownload] at h
    obtain rfl := Except.error.inj h
    exact Or.inl ⟨rfl, rfl⟩
  | ok bytes =>
    rw [hdownload] at h
    dsimp only at h ⊢
    cases hparse : parseAuto parsers bytes with
    | error e' =>
      rw [hparse] at h
      obtain rfl := Except.error.inj h
      exact Or.inr ⟨bytes, rfl, hparse, rfl⟩
    | ok nodes =>
      rw [hparse] at h
      cases h

/-- **The nodes** are left alone by an update that fails. -/
theorem manager_of_error {e : Str} (h : (fetchAndUpdate parsers tag hasPath s fetch).1 = .error e) :
    (fetchAndUpdate parsers tag hasPath s fetch).2.manager = s.manager := by
  rcases fetchAndUpdate_error_cases h with ⟨-, hs⟩ | ⟨bytes, -, -, hs⟩
  · rw [hs]
  · rw [hs]
    split <;> rfl

/-- Bytes that no parser takes make an update fail. -/
theorem fetchAndUpdate_of_unparsed {bytes : Bytes} {e : Str} (hdownload : fetch.download = .ok bytes)
    (hparse : parseAuto parsers bytes = .error e) :
    fetchAndUpdate parsers tag hasPath s fetch =
      (.error e, if hasPath then { s with cache := fetch.write.file bytes } else s) := by
  rw [fetchAndUpdate, hdownload]
  dsimp only
  rw [hparse]

/-- What was written over the cache file is no subscription for the next start. -/
theorem fromCache_of_unparsed {bytes : Bytes} {e : Str} (hdownload : fetch.download = .ok bytes)
    (hparse : parseAuto parsers bytes = .error e) (hwrite : fetch.write = .written) :
    fromCache parsers true (fetchAndUpdate parsers tag true s fetch).2.cache = none := by
  rw [fetchAndUpdate_of_unparsed hdownload hparse, if_pos rfl, hwrite, fromCache, if_pos rfl]
  show (parseAuto parsers bytes).toOption = none
  rw [hparse]
  rfl

/-- A harmless update that fails changes nothing. -/
theorem unchanged_of_harmless (h : Harmless parsers hasPath s fetch) :
    Unchanged parsers tag hasPath s fetch := by
  intro e he
  have hcache : (fetchAndUpdate parsers tag hasPath s fetch).2.cache = s.cache := by
    rcases fetchAndUpdate_error_cases he with ⟨-, hs⟩ | ⟨bytes, hdownload, hparse, hs⟩
    · rw [hs]
    · rw [hs]
      split
      · rename_i hpath
        exact h bytes e hdownload hparse hpath
      · rfl
  refine ⟨hcache, manager_of_error he, fun manager next => ?_⟩
  rw [hcache]

/-- **Runs.** After any number of updates that all fail, the cache file and the nodes are those of the
    start if each of them was harmless when it came. -/
theorem unchanged_of_run {s' : Remote κ} {fetches : List Fetch}
    (hrun : Transition.run (fun s fetch => some (fetchAndUpdate parsers tag hasPath s fetch).2) s fetches
      = some s')
    (hguard : Transition.Guarded (fun s fetch => some (fetchAndUpdate parsers tag hasPath s fetch).2)
      (fun s fetch => (∃ e, (fetchAndUpdate parsers tag hasPath s fetch).1 = .error e) ∧
        Harmless parsers hasPath s fetch) s fetches) :
    s'.cache = s.cache ∧ s'.manager = s.manager := by
  let Inv (t : Remote κ) : Prop := t.cache = s.cache ∧ t.manager = s.manager
  -- the step: what an update finds is what there was at the start, and it leaves it
  have hstep : ∀ t fetch t', some (fetchAndUpdate parsers tag hasPath t fetch).2 = some t' →
      (∃ e, (fetchAndUpdate parsers tag hasPath t fetch).1 = .error e) ∧ Harmless parsers hasPath t fetch →
      Inv t → Inv t' := by
    rintro t fetch t' ht ⟨⟨e, he⟩, hharmless⟩ ⟨hcache, hmanager⟩
    obtain rfl := Option.some.inj ht
    have hunchanged : Unchanged parsers tag hasPath t fetch := unchanged_of_harmless hharmless
    exact ⟨(hunchanged e he).1.trans hcache, (hunchanged e he).2.1.trans hmanager⟩
  exact Transition.invariant_of_run hstep hrun hguard ⟨rfl, rfl⟩

/-- **When a failed update changes nothing**: if the download failed, or what was downloaded is parsed, or
    there is no cache file to write, or it is afterwards what it was before. -/
theorem unchanged_iff (parsers : Parsers κ) (tag : Str) (hasPath : Bool) (s : Remote κ) (fetch : Fetch) :
    Unchanged parsers tag hasPath s fetch ↔ Harmless parsers hasPath s fetch := by
  refine ⟨fun hunchanged bytes e hdownload hparse hpath => ?_, unchanged_of_harmless⟩
  have hfetch : fetchAndUpdate parsers tag hasPath s fetch =
      (.error e, if hasPath then { s with cache := fetch.write.file bytes } else s) :=
    fetchAndUpdate_of_unparsed hdownload hparse
  have hcache := (hunchanged e (by rw [hfetch])).1
  rwa [hfetch, if_pos hpath] at hcache

end Remote

/-- A subscription in the format of Sing-box. -/
def subscription : Str :=
  "\x7b\"outbounds\":[\x7b\"type\":\"vless\",\"tag\":\"JP\",\"server\":\"jp\",".toList ++
    "\"server_port\":443,\"uuid\":\"00000000-0000-0000-0000-000000000001\"\x7d]\x7d".toList

/-- The characters of a text in ASCII. -/
def asciiChars (bytes : Bytes) : Str := bytes.map fun b => Char.ofNat b.toNat

/-- The alphabet of `URL_SAFE` has two other characters. -/
def urlSafeChar (c : Char) : Char :=
  if c = '-' then '+' else if c = '_' then '/' else if c = '+' || c = '/' then ' ' else c

/-- Parsers that know this subscription. -/
def subscriptionParsers : Parsers Unit where
  singbox text :=
    if text = subscription then .ok [("JP".toList, .leaf "JP".toList ())] else .error "json".toList
  clash _ := .error "yaml".toList
  standard bytes := Base64.decode (asciiChars bytes)
  urlSafe bytes := Base64.decode ((asciiChars bytes).map urlSafeChar)

/-- A good subscription is in the cache file, and the server sends an empty body. -/
theorem not_unchanged :
    ¬ Unchanged subscriptionParsers "p".toList true ⟨some (utf8 subscription), { senders := [] }⟩
      ⟨.ok [], .written⟩ := by
  intro h
  obtain ⟨e, he⟩ : ∃ e, parseAuto subscriptionParsers [] = .error e := ⟨_, rfl⟩
  -- the next start reads the subscription before the update, and nothing after it
  have hbefore : (fromCache subscriptionParsers true (some (utf8 subscription))).isSome = true := by
    decide +kernel
  have hafter : fromCache subscriptionParsers true (some []) = none := by
    rw [fromCache, if_pos rfl, Option.bind_some, he]
    rfl
  have hcache : some [] = some (utf8 subscription) := by
    have hunchanged := (h e (congrArg Prod.fst (fetchAndUpdate_of_unparsed rfl he))).1
    rwa [fetchAndUpdate_of_unparsed rfl he] at hunchanged
  rw [← hcache, hafter] at hbefore
  cases hbefore

end Reflex.Provider
