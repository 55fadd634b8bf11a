import Mathlib.Logic.Function.Basic
import Reflex.Ruleset.Matcher

namespace Reflex.RulesetRegistry

open RustStd Ruleset

/-!
# App — remote rule sets

`RuleSetRegistry::reload_remote` of `app/ruleset_registry.rs`, `Router::reload_remote_ruleset` and
`load_ruleset_remote` of `router/mod.rs`: a remote rule set is downloaded again into its file on disk,
from which it is loaded at the next start.  The file is written before the download is parsed.

* `reload_spec` — what a reload does to the files;
* `failsSafely_iff` — a reload that fails leaves everything as it was, exactly if it does not put data
  that is no rule set into the file.
-/

/-! ### Configuration and files -/

/-- `RuleSetType`. -/
inductive RuleSetType where
  | local'
  | remote
  deriving DecidableEq, Repr

/-- `RuleSetRef`. -/
structure RuleSetRef where
  tag : Str
  type : RuleSetType
  path : Option Str
  url : Option Str
  deriving DecidableEq, Repr

/-- `RuleSetMeta`. -/
structure RuleSetMeta where
  ruleCount : Nat
  updatedAtMs : UInt64
  deriving DecidableEq, Repr

/-- The files that there are, by their paths. -/
abbrev Disk := Str → Option Bytes

/-- How `std::fs::write` ends; a failed write may leave anything in the file. -/
inductive Write where
  | done
  | failed (e : Str) (left : Option Bytes)

/-- The content of the file behind a write, which a failed one may have left cut off or gone. -/
def Write.left (data : Bytes) : Write → Option Bytes
  | .done => some data
  | .failed _ left => left

/-- The file at `path`, if there is one, is written. -/
def writeCache (disk : Disk) (data : Bytes) (write : Write) : Option Str → Disk
  | none => disk
  | some path => Function.update disk path (write.left data)

/-- How a download fails: in the call, in the body, or by a panic of its task. -/
inductive DownloadFault where
  | call (e : Str)
  | body (e : Str)
  | panicked (e : Str)

/-- What a reload meets: the download, the write and the clock. -/
structure Attempt where
  download : Except DownloadFault Bytes
  write : Write
  nowMs : UInt64

/-! ### Loading -/

/-- What becomes of the bytes of a rule set. -/
inductive Loaded where
  | ok (rs : RuleSet)
  | parseError (e : RuleSetError)
  | compileError (e : RuleSetError)
  /-- An arithmetic underflow: it ends the process in a build with overflow checks, and is no error
      in one without. -/
  | underflow

variable (E : Externals)

/-- `LoadedRuleSet::from_bytes`, then `RuleSet::from_loaded`. -/
def load (data : Bytes) : Loaded :=
  match LoadedRuleSet.fromBytes data with
  | .error e => .parseError e
  | .ok loaded =>
      match RuleSet.fromLoaded E loaded with
      | .error (.error e) => .compileError e
      | .error .underflow => .underflow
      | .ok rs => .ok rs

/-- The data are no rule set: loading them ends with an error of the parser or of the compiler. -/
def Rejected (data : Bytes) : Prop :=
  ∃ e, load E data = .parseError e ∨ load E data = .compileError e

/-- How a call ends that is to return a value. -/
inductive Ended (α : Type) where
  | ok (a : α)
  | error (text : Str)
  | aborted

/-- `rule_set '{tag}'` in front of an error. -/
def ofRuleSet (tag text : Str) : Str := "rule_set '".toList ++ tag ++ '\'' :: text

/-! ### Reloading -/

/-- The URL and the path of a remote rule set. -/
def findRemote (ruleSet : List RuleSetRef) (tag : Str) : Except Str (Str × Option Str) :=
  match ruleSet.find? fun r => r.tag = tag with
  | none => .error (ofRuleSet tag " not found".toList)
  | some rsRef =>
      if rsRef.type ≠ .remote then .error (ofRuleSet tag " is not remote, cannot update".toList)
      else
        match rsRef.url with
        | none => .error (ofRuleSet tag ": missing url".toList)
        | some url => .ok (url, rsRef.path)

/-- What both reloads do; they word the failures of the download and of `from_loaded` in their own
    ways. -/
def reload (onDownload : Str → DownloadFault → Ended RuleSet) (onCompile : RuleSetError → Str)
    (ruleSet : List RuleSetRef) (disk : Disk) (tag : Str) (a : Attempt) : Ended RuleSet × Disk :=
  match findRemote ruleSet tag with
  | .error text => (.error text, disk)
  | .ok (url, path) =>
      match a.download with
      | .error fault => (onDownload url fault, disk)
      | .ok data =>
          -- whether the write succeeds does not matter
          let disk := writeCache disk data a.write path
          match load E data with
          | .parseError e => (.error (ofRuleSet tag (": parse error: ".toList ++ e.toText)), disk)
          | .compileError e => (.error (onCompile e), disk)
          | .underflow => (.aborted, disk)
          | .ok rs => (.ok rs, disk)

/-- The failures of `download_bytes` in `ruleset_registry.rs`, in a thread of its own. -/
def registryDownload (tag url : Str) : DownloadFault → Ended RuleSet
  | .call e => .error (ofRuleSet tag (": download failed from '".toList ++ url ++ "': ".toList ++ e))
  | .body e => .error (ofRuleSet tag (": failed to read response body: ".toList ++ e))
  | .panicked e => .error ("spawn_blocking panicked: ".toList ++ e)

/-- The failures of `download_bytes` in `router/mod.rs`. -/
def routerDownload (tag url : Str) : DownloadFault → Ended RuleSet
  | .call e => .error (ofRuleSet tag (": download failed from '".toList ++ url ++ "': ".toList ++ e))
  | .body e => .error
      (ofRuleSet tag (": failed to read response body from '".toList ++ url ++ "': ".toList ++ e))
  | .panicked _ => .aborted

/-- `RuleSetRegistry`. -/
structure RuleSetRegistry where
  ruleSet : List RuleSetRef
  metaOf : Str → Option RuleSetMeta

/-- `Router`, as far as rule sets are reloaded. -/
structure Router where
  ruleSet : List RuleSetRef
  rulesets : Str → Option RuleSet
  rulesetMeta : Str → Option RuleSetMeta

-- `rule_count`, of which nothing is assumed
variable (ruleCount : RuleSet → Nat)

/-- `RuleSetRegistry::reload_remote`. -/
def RuleSetRegistry.reloadRemote (reg : RuleSetRegistry) (disk : Disk) (tag : Str) (a : Attempt) :
    Ended Unit × RuleSetRegistry × Disk :=
  match reload E (registryDownload tag)
      (fun e => ofRuleSet tag (": compile error: ".toList ++ e.toText)) reg.ruleSet disk tag a with
  | (.error text, disk) => (.error text, reg, disk)
  | (.aborted, disk) => (.aborted, reg, disk)
  | (.ok rs, disk) =>
      let entry : RuleSetMeta := ⟨ruleCount rs, a.nowMs⟩
      (.ok (), { reg with metaOf := Function.update reg.metaOf tag (some entry) }, disk)

/-- `Router::reload_remote_ruleset`. -/
def Router.reloadRemoteRuleset (router : Router) (disk : Disk) (tag : Str) (a : Attempt) :
    Ended Unit × Router × Disk :=
  match reload E (routerDownload tag) RuleSetError.toText router.ruleSet disk tag a with
  | (.error text, disk) => (.error text, router, disk)
  | (.aborted, disk) => (.aborted, router, disk)
  | (.ok rs, disk) =>
      let entry : RuleSetMeta := ⟨ruleCount rs, a.nowMs⟩
      (.ok (), { router with
        rulesets := Function.update router.rulesets tag (some rs)
        rulesetMeta := Function.update router.rulesetMeta tag (some entry) }, disk)

/-! ### The next start -/

/-- `load_ruleset_from_path`. -/
def loadRulesetFromPath (disk : Disk) (path tag : Str) : Ended RuleSet :=
  match disk path with
  | none => .error (ofRuleSet tag (": failed to read file '".toList ++ path ++ "': ".toList))
  | some data =>
      match load E data with
      | .parseError e | .compileError e => .error e.toText
      | .underflow => .aborted
      | .ok rs => .ok rs

/-- What `load_ruleset_remote` meets: the rows of the cache file, if there is one, the directory of
    the path, and the download with its write. -/
structure Start where
  cacheReader : Option (Str → Option Bytes)
  createDir : Except Str Unit
  attempt : Attempt

/-- `load_ruleset_remote`, with the file that it writes. -/
def loadRulesetRemote (disk : Disk) (url : Str) (cachePath : Option Str) (tag : Str) (s : Start) :
    Ended RuleSet × Disk :=
  match cachePath.filter fun path => (disk path).isSome with
  | some path => (loadRulesetFromPath E disk path tag, disk)
  | none =>
      match if cachePath.isNone then s.cacheReader.bind fun reader => reader tag else none with
      | some data =>
          (match load E data with
            | .parseError e => .error
                (ofRuleSet tag (": failed to parse cached data from cache_file: ".toList ++ e.toText))
            | .compileError e => .error e.toText
            | .underflow => .aborted
            | .ok rs => .ok rs, disk)
      | none =>
          match s.attempt.download with
          | .error fault => (routerDownload tag url fault, disk)
          | .ok data =>
              match cachePath, s.createDir, s.attempt.write with
              | some _, .error e, _ =>
                  (.error (ofRuleSet tag (": failed to create cache dir ".toList ++ e)), disk)
              | some path, .ok (), .failed e left =>
                  (.error (ofRuleSet tag (": failed to write disk cache to '".toList ++ path
                    ++ "': ".toList ++ e)), Function.update disk path left)
              | path, _, write =>
                  (match load E data with
                    | .parseError e => .error
                        (ofRuleSet tag (": failed to parse downloaded data: ".toList ++ e.toText))
                    | .compileError e => .error e.toText
                    | .underflow => .aborted
                    | .ok rs => .ok rs, writeCache disk data write path)

/-- A rule set that could be loaded before can be loaded after. -/
def StillLoads (before after : Disk) (url : Str) (cachePath : Option Str) (tag : Str) : Prop :=
  ∀ s rs, (loadRulesetRemote E before url cachePath tag s).1 = .ok rs →
    (loadRulesetRemote E after url cachePath tag s).1 = .ok rs

/-! ### Reloads that fail -/

/-- After an error the files and the metadata are what they were, and the next start can load what it
    could load before. -/
def RuleSetRegistry.FailsSafely (reg : RuleSetRegistry) (disk : Disk) (tag : Str) (a : Attempt) : Prop :=
  ∀ text reg' disk', reg.reloadRemote E ruleCount disk tag a = (.error text, reg', disk') →
    disk' = disk ∧ reg'.metaOf = reg.metaOf ∧
      ∀ url path, findRemote reg.ruleSet tag = .ok (url, path) → StillLoads E disk disk' url path tag

/-- A failed reload of the router leaves files, state and the rule sets in use as they were. -/
def Router.FailsSafely (router : Router) (disk : Disk) (tag : Str) (a : Attempt) : Prop :=
  ∀ text router' disk', router.reloadRemoteRuleset E ruleCount disk tag a = (.error text, router', disk') →
    disk' = disk ∧ router'.rulesetMeta = router.rulesetMeta ∧ router'.rulesets = router.rulesets ∧
      ∀ url path, findRemote router.ruleSet tag = .ok (url, path) → StillLoads E disk disk' url path tag

/-- Data that is no rule set does not change the file it is written to. -/
def Harmless (ruleSet : List RuleSetRef) (disk : Disk) (tag : Str) (a : Attempt) : Prop :=
  ∀ url path data, findRemote ruleSet tag = .ok (url, some path) → a.download = .ok data →
    Rejected E data → a.write.left data = disk path

variable {E ruleCount}

/-- **The file.**  An error leaves the files as they were, exactly if the download is harmless. -/
theorem reload_spec {onDownload : Str → DownloadFault → Ended RuleSet} {onCompile : RuleSetError → Str}
    {ruleSet : List RuleSetRef} {disk : Disk} {tag : Str} {a : Attempt} :
    (∀ text disk', reload E onDownload onCompile ruleSet disk tag a = (.error text, disk') →
      disk' = disk) ↔ Harmless E ruleSet disk tag a := by
  constructor
  · intro h url path data hfind hdownload ⟨e, hload⟩
    have hdisk : writeCache disk data a.write (some path) = disk := by
      rcases hload with hparse | hcompile
      · refine h (ofRuleSet tag (": parse error: ".toList ++ e.toText)) _ ?_
        simp only [reload, hfind, hdownload, hparse]
      · refine h (onCompile e) _ ?_
        simp only [reload, hfind, hdownload, hcompile]
    exact Function.update_eq_self_iff.mp hdisk
  · intro h text disk' hreload
    rw [reload] at hreload
    split at hreload
    · exact (Prod.mk.inj hreload).2.symm
    · rename_i url path hfind
      split at hreload
      · exact (Prod.mk.inj hreload).2.symm
      · rename_i data hdownload
        -- the data is rejected, and then its write has changed nothing
        have hwrite : Rejected E data → writeCache disk data a.write path = disk := by
          intro hrejected
          cases path with
          | none => rfl
          | some path => exact Function.update_eq_self_iff.mpr (h url path data hfind hdownload hrejected)
        simp only at hreload
        split at hreload
        · rename_i e hload
          rw [← (Prod.mk.inj hreload).2]
          exact hwrite ⟨e, .inl hload⟩
        · rename_i e hload
          rw [← (Prod.mk.inj hreload).2]
          exact hwrite ⟨e, .inr hload⟩
        · cases (Prod.mk.inj hreload).1
        · cases (Prod.mk.inj hreload).1

/-- The registry returns the errors of a reload, as it was before. -/
theorem RuleSetRegistry.reloadRemote_error_iff {reg reg' : RuleSetRegistry} {disk disk' : Disk}
    {tag text : Str} {a : Attempt} :
    reg.reloadRemote E ruleCount disk tag a = (.error text, reg', disk') ↔
      reload E (registryDownload tag) (fun e => ofRuleSet tag (": compile error: ".toList ++ e.toText))
        reg.ruleSet disk tag a = (.error text, disk') ∧ reg' = reg := by
  rw [reloadRemote]
  rcases reload E (registryDownload tag)
    (fun e => ofRuleSet tag (": compile error: ".toList ++ e.toText)) reg.ruleSet disk tag a
    with ⟨_ | _ | _, _⟩
  · simp
  · simp only [Prod.mk.injEq, Ended.error.injEq]
    tauto
  · simp

/-- The router fails exactly where the common reload does, with the same text and the same files, and keeps the rule
    sets that it had. -/
theorem Router.reloadRemoteRuleset_error_iff {router router' : Router} {disk disk' : Disk}
    {tag text : Str} {a : Attempt} :
    router.reloadRemoteRuleset E ruleCount disk tag a = (.error text, router', disk') ↔
      reload E (routerDownload tag) RuleSetError.toText router.ruleSet disk tag a
        = (.error text, disk') ∧ router' = router := by
  rw [reloadRemoteRuleset]
  rcases reload E (routerDownload tag) RuleSetError.toText router.ruleSet disk tag a
    with ⟨_ | _ | _, _⟩
  · simp
  · simp only [Prod.mk.injEq, Ended.error.injEq]
    tauto
  · simp

/-- A reload of a remote rule set that ends with an error leaves the files and the metadata as they
    were, exactly if it does not write data into the file of the rule set that cannot be loaded and
    differs from what is there. -/
theorem failsSafely_iff (reg : RuleSetRegistry) (router : Router) (disk : Disk) (tag : Str)
    (a : Attempt) :
    (reg.FailsSafely E ruleCount disk tag a ↔ Harmless E reg.ruleSet disk tag a) ∧
      (router.FailsSafely E ruleCount disk tag a ↔ Harmless E router.ruleSet disk tag a) := by
  refine ⟨?_, ?_⟩
  · rw [← reload_spec]
    constructor
    · intro h text disk' hreload
      exact (h text reg disk' (RuleSetRegistry.reloadRemote_error_iff.mpr ⟨hreload, rfl⟩)).1
    · intro h text reg' disk' herror
      obtain ⟨hreload, rfl⟩ := RuleSetRegistry.reloadRemote_error_iff.mp herror
      obtain rfl := h text disk' hreload
      exact ⟨rfl, rfl, fun _ _ _ _ _ hload => hload⟩
  · rw [← reload_spec]
    constructor
    · intro h text disk' hreload
      exact (h text router disk' (Router.reloadRemoteRuleset_error_iff.mpr ⟨hreload, rfl⟩)).1
    · intro h text router' disk' herror
      obtain ⟨hreload, rfl⟩ := Router.reloadRemoteRuleset_error_iff.mp herror
      obtain rfl := h text disk' hreload
      exact ⟨rfl, rfl, rfl, fun _ _ _ _ _ hload => hload⟩

/-! ### A page in place of a rule set -/

/-- A file that is there is loaded, and nothing else. -/
theorem loadRulesetRemote_of_file {disk : Disk} {path url tag : Str} {data : Bytes}
    (h : disk path = some data) (s : Start) :
    (loadRulesetRemote E disk url (some path) tag s).1 = loadRulesetFromPath E disk path tag := by
  have hfilter : (some path).filter (fun path => (disk path).isSome) = some path := by
    rw [Option.filter_some, if_pos (by rw [h]; rfl)]
  simp only [loadRulesetRemote, hfilter]

/-- One remote rule set. -/
def samplePath : Str := "geo.rrs".toList
def sampleUrl : Str := "http://h/geo.rrs".toList
def sampleRegistry : RuleSetRegistry :=
  { ruleSet := [⟨"geo".toList, .remote, some samplePath, some sampleUrl⟩], metaOf := fun _ => none }

/-- The file of a rule set without rules, and a page that a server may answer with. -/
def emptyRuleSet : Bytes := magic ++ [version, 0] ++ List.replicate 8 0
def samplePage : Bytes := utf8 "<html>".toList

def sampleDisk (data : Bytes) : Disk := fun path => if path = samplePath then some data else none

theorem load_emptyRuleSet : ∃ rs, load Externals.plain emptyRuleSet = .ok rs := ⟨_, rfl⟩

theorem load_samplePage : load Externals.plain samplePage = .parseError .badMagic := rfl

/-- The reload fails, and the rule set that could be loaded before cannot be loaded any more. -/
theorem RuleSetRegistry.not_failsSafely_page : ∃ text disk',
    sampleRegistry.reloadRemote Externals.plain (fun _ => 0) (sampleDisk emptyRuleSet) "geo".toList
        ⟨.ok samplePage, .done, 0⟩ = (.error text, sampleRegistry, disk') ∧
      disk' samplePath ≠ sampleDisk emptyRuleSet samplePath ∧
      ∃ rs, ∀ s,
        (loadRulesetRemote Externals.plain (sampleDisk emptyRuleSet) sampleUrl (some samplePath)
          "geo".toList s).1 = .ok rs ∧
        (loadRulesetRemote Externals.plain disk' sampleUrl (some samplePath) "geo".toList s).1
          = .error RuleSetError.badMagic.toText := by
  have hbefore : sampleDisk emptyRuleSet samplePath = some emptyRuleSet := rfl
  have hafter : writeCache (sampleDisk emptyRuleSet) samplePage .done (some samplePath) samplePath
      = some samplePage := by
    rw [writeCache]
    exact Function.update_self ..
  obtain ⟨rs, hrs⟩ := load_emptyRuleSet
  refine ⟨_, writeCache (sampleDisk emptyRuleSet) samplePage .done (some samplePath), rfl, ?_, rs,
    fun s => ⟨?_, ?_⟩⟩
  · rw [hbefore, hafter]
    decide
  · rw [loadRulesetRemote_of_file hbefore, loadRulesetFromPath, hbefore]
    simp only [hrs]
  · rw [loadRulesetRemote_of_file hafter, loadRulesetFromPath, hafter]
    simp only [load_samplePage]

end Reflex.RulesetRegistry
