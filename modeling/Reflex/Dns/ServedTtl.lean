import Reflex.Dns.CacheLifetime
import Reflex.Dns.FakeCache

namespace Reflex.Dns

open RustStd

/-!
# DNS — the lifetimes in answers from the cache

`handle` returns what `DnsCache::get` finds with nothing but the transaction ID changed: the answers
say what they said when they were stored, however long ago that was, and a stale answer does not say
one second.

* `DnsCache.Source` — the entry a response is served from, and the seconds it has left, `get_source`;
* `Timely` — lifetimes that are not above the seconds left, or one second where none is left;
* `Handler.Dated` — in every run no entry has more left than it was stored for;
* `Handler.served_timely_iff` — when an answer from the cache is timely;
* `Handler.served_stale` — an answer that is good for a minute, and stale.
-/

/-! ### Patching the transaction ID -/

/-- Only the transaction ID is changed: length and all other bytes stay. -/
theorem patchId_frame (resp query : Bytes) :
    (patchId resp query).length = resp.length ∧ (patchId resp query).drop 2 = resp.drop 2 := by
  unfold patchId
  split
  · rename_i hlen
    have htake : (query.take 2).length = 2 := List.length_take_of_le hlen.2
    constructor
    · rw [List.length_append, htake, List.length_drop]
      omega
    · exact List.drop_left' htake
  · exact ⟨rfl, rfl⟩

theorem drop_patchId (resp query : Bytes) (n : Nat) :
    (patchId resp query).drop (2 + n) = resp.drop (2 + n) := by
  rw [← List.drop_drop, ← List.drop_drop, (patchId_frame resp query).2]

/-- The lifetimes of the answers stay as they are. -/
theorem ttlsOf_patchId (resp query : Bytes) : ttlsOf (patchId resp query) = ttlsOf resp := by
  have hcount : beAt (patchId resp query) 6 2 = beAt resp 6 2 := by
    rw [beAt, beAt, drop_patchId resp query 4]
  have hsection : answerSection (patchId resp query) = answerSection resp := by
    rw [answerSection, answerSection, drop_patchId resp query 10]
  rw [ttlsOf, ttlsOf, hsection, hcount]

/-! ### Where a response comes from -/

/-- The lifetimes of the answers are at most the seconds that are left; where none is left, they are
    one second. -/
def Timely (left : Option Nat) (msg : Bytes) : Prop :=
  ∀ t ∈ ttlsOf msg, match left with
    | some secs => t ≤ secs
    | none => t = 1

namespace DnsCache

/-- The cache serves `resp` for `key`, with so many whole seconds left until the entry expires, or
    stale. -/
inductive Source (cfg : CacheConfig) (c : DnsCache) (now nowSecs : Nat) (key : CacheKey) :
    Bytes → Option Nat → Prop
  | memory (entry : CacheEntry) (hentry : c.memory key = some entry) (hlive : now < entry.expires) :
      Source cfg c now nowSecs key entry.resp (some ((entry.expires - now) / second))
  | memoryStale (entry : CacheEntry) (hentry : c.memory key = some entry)
      (hexpired : entry.expires ≤ now) (hserves : cfg.Serves now entry.expires) :
      Source cfg c now nowSecs key entry.resp none
  | disk (raw : Bytes) (expireAt : Nat)
      (hmemory : ∀ entry, c.memory key = some entry → ¬ cfg.Serves now entry.expires)
      (hdisk : c.disk key = some (raw, expireAt)) (hlive : nowSecs < expireAt) :
      Source cfg c now nowSecs key raw (some (expireAt - nowSecs))
  | diskStale (raw : Bytes) (expireAt : Nat)
      (hmemory : ∀ entry, c.memory key = some entry → ¬ cfg.Serves now entry.expires)
      (hdisk : c.disk key = some (raw, expireAt)) (hexpired : expireAt ≤ nowSecs)
      (hserves : cfg.ServesDisk nowSecs expireAt) : Source cfg c now nowSecs key raw none

variable {cfg : CacheConfig} {c c' : DnsCache} {now nowSecs : Nat} {key : CacheKey}
  {result : CacheResult}

/-- What a result of `get` says of the entry it comes from. -/
def SourceOf (cfg : CacheConfig) (c : DnsCache) (now nowSecs : Nat) (key : CacheKey) :
    CacheResult → Prop
  | .hit resp => ∃ secs, c.Source cfg now nowSecs key resp (some secs)
  | .stale resp => c.Source cfg now nowSecs key resp none
  | .miss => True

theorem getDisk_source {c₀ : DnsCache} (hdisk₀ : c.disk = c₀.disk)
    (hmemory : ∀ entry, c₀.memory key = some entry → ¬ cfg.Serves now entry.expires)
    (h : c.getDisk cfg now nowSecs key = (result, c')) :
    c₀.SourceOf cfg now nowSecs key result := by
  unfold getDisk at h
  split at h
  · obtain ⟨rfl, -⟩ := Prod.mk.inj h
    trivial
  · rename_i raw expireAt hraw
    have hdisk : c₀.disk key = some (raw, expireAt) := by
      rw [← hdisk₀]
      exact (Option.ite_none_right_eq_some.mp hraw).2
    split at h
    · rename_i hlive
      obtain ⟨rfl, -⟩ := Prod.mk.inj h
      exact ⟨_, .disk raw expireAt hmemory hdisk hlive⟩
    · rename_i hexpired
      split at h
      · rename_i hstale
        obtain ⟨rfl, -⟩ := Prod.mk.inj h
        obtain ⟨opt, hopt, hlt⟩ := (Option.any_eq_true _ _).mp hstale
        exact .diskStale raw expireAt hmemory hdisk (Nat.not_lt.mp hexpired)
          (.inr ⟨opt, hopt, of_decide_eq_true hlt⟩)
      · obtain ⟨rfl, -⟩ := Prod.mk.inj h
        trivial

/-- **Where `get` finds what it returns**: a hit is from an entry that has some seconds left, and a stale answer from
    one that has none. -/
theorem get_source (h : c.get cfg now nowSecs key = (result, c')) :
    c.SourceOf cfg now nowSecs key result := by
  unfold get at h
  split at h
  · rename_i hnone
    refine getDisk_source rfl (fun entry hentry => ?_) h
    rw [hnone] at hentry
    cases hentry
  · rename_i entry hentry
    split at h
    · rename_i hlive
      obtain ⟨rfl, -⟩ := Prod.mk.inj h
      exact ⟨_, .memory entry hentry hlive⟩
    · rename_i hexpired
      split at h
      · rename_i hstale
        obtain ⟨rfl, -⟩ := Prod.mk.inj h
        obtain ⟨opt, hopt, hlt⟩ := (Option.any_eq_true _ _).mp hstale
        exact .memoryStale entry hentry (Nat.not_lt.mp hexpired)
          (.inr ⟨opt, hopt, of_decide_eq_true hlt⟩)
      · rename_i hgone
        refine getDisk_source (c := c.evict key) rfl (fun entry' hentry' => ?_) h
        obtain rfl := Option.some.inj (hentry.symm.trans hentry')
        rintro (hlive | ⟨opt, hopt, hlt⟩)
        · exact hexpired hlive
        · exact hgone ((Option.any_eq_true _ _).mpr ⟨opt, hopt, decide_eq_true hlt⟩)

/-! ### How much is left -/

/-- The seconds for which `set` stores a response of `handle`. -/
def storedFor (cfg : CacheConfig) (resp : Bytes) : Nat := max (min (passedTtl resp) cfg.ttlCap) 1

/-- No entry has more left than it was stored for. -/
structure Dated (cfg : CacheConfig) (c : DnsCache) (now nowSecs : Nat) : Prop where
  memory : ∀ key entry, c.memory key = some entry →
    entry.expires ≤ now + storedFor cfg entry.resp * second
  disk : ∀ key resp expireAt, c.disk key = some (resp, expireAt) →
    expireAt ≤ nowSecs + storedFor cfg resp
  saves : ∀ key resp expireAt, (key, resp, expireAt) ∈ c.saves →
    expireAt ≤ nowSecs + storedFor cfg resp

theorem dated_init : init.Dated cfg now nowSecs where
  memory key entry h := by cases h
  disk key resp expireAt h := by cases h
  saves key resp expireAt h := by cases h

variable {resp : Bytes} {ttl : Nat}

/-- An insertion for no longer than the response may be stored. -/
theorem Dated.insertMemory (h : c.Dated cfg now nowSecs) (httl : ttl ≤ storedFor cfg resp) :
    (c.insertMemory now key resp ttl).Dated cfg now nowSecs := by
  refine ⟨fun key' entry hentry => ?_, h.disk, h.saves⟩
  rcases Transition.update_eq_some hentry with ⟨rfl, hnew⟩ | ⟨-, hold⟩
  · rw [hnew]
    exact Nat.add_le_add_left (Nat.mul_le_mul_right _ httl) now
  · exact h.memory key' entry hold

theorem Dated.evict (h : c.Dated cfg now nowSecs) (key : CacheKey) :
    (c.evict key).Dated cfg now nowSecs where
  memory key' entry hentry := h.memory key' entry (Transition.update_none_eq_some hentry).2
  disk := h.disk
  saves := h.saves

theorem Dated.purge (h : c.Dated cfg now nowSecs) (key : CacheKey) :
    (c.purge key).Dated cfg now nowSecs where
  memory := h.memory
  disk key' resp expireAt hdisk :=
    h.disk key' resp expireAt (Transition.update_none_eq_some hdisk).2
  saves := h.saves

theorem Dated.flush (h : c.Dated cfg now nowSecs) (ok : Bool) :
    (c.flush ok).Dated cfg now nowSecs := by
  unfold DnsCache.flush
  split
  · exact h
  · rename_i key resp expireAt saves hsaves
    have hrest : ∀ key resp expireAt, (key, resp, expireAt) ∈ saves →
        expireAt ≤ nowSecs + storedFor cfg resp := by
      intro key' resp' expireAt' hmem
      exact h.saves key' resp' expireAt' (by rw [hsaves]; exact List.mem_cons_of_mem _ hmem)
    split
    · refine ⟨h.memory, fun key' resp' expireAt' hdisk => ?_, hrest⟩
      rcases Transition.update_eq_some hdisk with ⟨-, hnew⟩ | ⟨-, hold⟩
      · obtain ⟨rfl, rfl⟩ := Prod.mk.inj hnew
        exact h.saves key resp' expireAt' (by rw [hsaves]; exact List.mem_cons_self ..)
      · exact h.disk key' resp' expireAt' hold
    · exact ⟨h.memory, h.disk, hrest⟩

theorem Dated.set (h : c.Dated cfg now nowSecs) (key : CacheKey) (resp : Bytes) :
    (c.set cfg now nowSecs key resp (passedTtl resp)).Dated cfg now nowSecs := by
  have hinsert : (c.insertMemory now key resp (storedFor cfg resp)).Dated cfg now nowSecs :=
    h.insertMemory (le_refl _)
  unfold DnsCache.set
  simp only
  split
  · refine ⟨hinsert.memory, hinsert.disk, fun key' resp' expireAt' hmem => ?_⟩
    rcases List.mem_append.mp hmem with hold | hnew
    · exact h.saves key' resp' expireAt' hold
    · rw [List.mem_singleton, Prod.mk.injEq, Prod.mk.injEq] at hnew
      obtain ⟨-, rfl, hexpires⟩ := hnew
      exact le_of_eq hexpires
  · exact hinsert

theorem Dated.getDisk (h : c.Dated cfg now nowSecs)
    (hget : c.getDisk cfg now nowSecs key = (result, c')) : c'.Dated cfg now nowSecs := by
  unfold DnsCache.getDisk at hget
  split at hget
  · obtain ⟨-, rfl⟩ := Prod.mk.inj hget
    exact h
  · rename_i raw expireAt hraw
    have hle := h.disk key raw expireAt (Option.ite_none_right_eq_some.mp hraw).2
    split at hget
    · obtain ⟨-, rfl⟩ := Prod.mk.inj hget
      exact h.insertMemory (le_trans (Nat.min_le_left _ _) (by omega))
    · split at hget
      · obtain ⟨-, rfl⟩ := Prod.mk.inj hget
        exact h
      · obtain ⟨-, rfl⟩ := Prod.mk.inj hget
        exact h

theorem Dated.get (h : c.Dated cfg now nowSecs)
    (hget : c.get cfg now nowSecs key = (result, c')) : c'.Dated cfg now nowSecs := by
  unfold DnsCache.get at hget
  split at hget
  · exact h.getDisk hget
  · split at hget
    · obtain ⟨-, rfl⟩ := Prod.mk.inj hget
      exact h
    · split at hget
      · obtain ⟨-, rfl⟩ := Prod.mk.inj hget
        exact h
      · exact (h.evict key).getDisk hget

/-- What is in the cache stays right as time goes on, as time only takes away from what is left. -/
theorem Dated.later (h : c.Dated cfg now nowSecs) {now' nowSecs' : Nat} (hnow : now ≤ now')
    (hsecs : nowSecs ≤ nowSecs') : c.Dated cfg now' nowSecs' where
  memory key entry hentry :=
    le_trans (h.memory key entry hentry) (Nat.add_le_add_right hnow _)
  disk key resp expireAt hdisk :=
    le_trans (h.disk key resp expireAt hdisk) (Nat.add_le_add_right hsecs _)
  saves key resp expireAt hsave :=
    le_trans (h.saves key resp expireAt hsave) (Nat.add_le_add_right hsecs _)

/-- What is left of an entry is at most what it was stored for. -/
theorem Dated.left_le (h : c.Dated cfg now nowSecs) {secs : Nat}
    (hsource : c.Source cfg now nowSecs key resp (some secs)) : secs ≤ storedFor cfg resp := by
  cases hsource with
  | memory entry hentry hlive =>
      have hle := h.memory key entry hentry
      refine Nat.div_le_of_le_mul ?_
      rw [Nat.mul_comm]
      omega
  | disk _ expireAt hmemory hdisk hlive =>
      have hle := h.disk key resp expireAt hdisk
      omega

end DnsCache

/-! ### Whole runs -/

namespace Handler

variable {υ ι : Type} {cfg : Setup υ ι} {s s' : Handler υ}

@[simp] theorem cache_finish (s : Handler υ) (i : Nat) (call : Call) (result : Option Bytes) :
    (s.finish i call result).cache = s.cache := by
  cases result <;> rfl

@[simp] theorem now_finish (s : Handler υ) (i : Nat) (call : Call) (result : Option Bytes) :
    (s.finish i call result).now = s.now := by
  cases result <;> rfl

/-- In every run no entry has more left than it was stored for. -/
def Dated (cfg : Setup υ ι) (s : Handler υ) : Prop :=
  s.cache.Dated cfg.cache s.now (s.unixNow cfg)

theorem Dated.of_eq (h : s.Dated cfg) (hcache : s'.cache = s.cache) (hnow : s'.now = s.now) :
    s'.Dated cfg := by
  rw [Dated, unixNow, hcache, hnow]
  exact h

theorem dated_step {a : Action ι} (hstep : s.step cfg a = some s') (h : s.Dated cfg) :
    s'.Dated cfg := by
  cases a with
  | handle i transport msg disableCache =>
      obtain ⟨-, rfl⟩ := spawn_cases hstep
      exact h
  | lookup i j =>
      obtain ⟨call, result, cache, -, -, hget, hcases⟩ := lookup_cases hstep
      -- `get` may drop entries, and what follows leaves the cache alone
      have hdated : ({ s with cache } : Handler υ).Dated cfg := DnsCache.Dated.get h hget
      rcases hcases with ⟨resp, -, rfl⟩ | ⟨resp, -, hspawn⟩ | ⟨-, rfl⟩
      · exact hdated.of_eq (by simp) (by simp)
      · obtain ⟨-, rfl⟩ := spawn_cases hspawn
        exact hdated.of_eq (by simp) (by simp)
      · exact hdated
  | lead i =>
      obtain ⟨call, -, -, hcases⟩ := lead_cases hstep
      rcases hcases with ⟨-, rfl⟩ | ⟨rx, -, rfl⟩
      · exact h
      · exact h
  | recv i =>
      obtain ⟨call, rx, key, -, -, hcases⟩ := recv_cases hstep
      rcases hcases with ⟨resp, -, rfl⟩ | ⟨-, rfl⟩
      · exact h.of_eq (by simp) (by simp)
      · exact h
  | respond i input =>
      obtain ⟨call, purpose, up, result, -, -, -, hcases⟩ := respond_cases hstep
      rcases hcases with ⟨-, rfl⟩ | ⟨-, -, rfl⟩ | ⟨-, -, rfl⟩ | ⟨resp, -, -, rfl⟩
      · exact h.of_eq (by simp) (by simp)
      · exact h
      · exact h
      · exact h
  | store i =>
      obtain ⟨call, purpose, resp, -, -, hcases⟩ := store_cases hstep
      -- `set` writes with the clock of this moment, unless the response is not cached
      have hdated : (s.cacheSet cfg call.key resp).Dated cfg := by
        unfold cacheSet
        split
        · exact DnsCache.Dated.set h call.key resp
        · exact h
      rcases hcases with ⟨-, rfl⟩ | ⟨-, rfl⟩ | ⟨-, rfl⟩
      · exact hdated
      · exact hdated
      · exact hdated.of_eq (by simp) (by simp)
  | complete i =>
      obtain ⟨call, result, -, -, rfl⟩ := complete_cases hstep
      exact h
  | send i =>
      obtain ⟨call, tx, result, -, -, rfl⟩ := send_cases hstep
      exact h.of_eq (by simp) (by simp)
  | tick nanos =>
      obtain rfl := Option.some.inj hstep
      -- both clocks go on, by as much
      exact DnsCache.Dated.later h (Nat.le_add_right _ _)
        (Nat.add_le_add_left (Nat.div_le_div_right (Nat.le_add_right _ _)) _)
  | evict key =>
      obtain rfl := Option.some.inj hstep
      exact DnsCache.Dated.evict h key
  | flush ok =>
      obtain rfl := Option.some.inj hstep
      exact DnsCache.Dated.flush h ok
  | purge key =>
      obtain rfl := Option.some.inj hstep
      exact DnsCache.Dated.purge h key

theorem dated_of_run {up : υ} {actions : List (Action ι)}
    (hrun : Transition.run (step cfg) (init up) actions = some s) : s.Dated cfg :=
  Transition.invariant_of_steps (fun _ _ _ hstep h => dated_step hstep h) hrun DnsCache.dated_init

/-- Answers that say no less than they were stored for are timely only at the beginning. -/
theorem timely_iff_full {resp : Bytes} {secs : Nat} (hleft : secs ≤ DnsCache.storedFor cfg.cache resp)
    (hstored : ∀ t ∈ ttlsOf resp, DnsCache.storedFor cfg.cache resp ≤ t) :
    Timely (some secs) resp ↔ ttlsOf resp = [] ∨
      secs = DnsCache.storedFor cfg.cache resp ∧
        ∀ t ∈ ttlsOf resp, t = DnsCache.storedFor cfg.cache resp := by
  constructor
  · intro htimely
    by_cases hnil : ttlsOf resp = []
    · exact .inl hnil
    · obtain ⟨t, hmem⟩ := List.exists_mem_of_ne_nil _ hnil
      have hfull : secs = DnsCache.storedFor cfg.cache resp :=
        le_antisymm hleft (le_trans (hstored t hmem) (htimely t hmem))
      refine .inr ⟨hfull, fun t' ht' => ?_⟩
      exact le_antisymm (hfull ▸ htimely t' ht') (hstored t' ht')
  · rintro (hnil | ⟨rfl, hall⟩) t ht
    · rw [hnil] at ht
      cases ht
    · exact le_of_eq (hall t ht)

/-- What a call returns from the cache, and where it comes from. -/
theorem lookup_source {i j : Nat} {call : Call} (hcall : s.calls i = some call)
    (h : s.lookup cfg i j = some s') (hserved : s'.returned ≠ s.returned) :
    ∃ resp left, s.cache.Source cfg.cache s.now (s.unixNow cfg) call.key resp left ∧
      s'.returned = (call, patchId resp call.msg, s.up) :: s.returned := by
  obtain ⟨call', result, cache, hcall', -, hget, hcases⟩ := lookup_cases h
  obtain rfl : call = call' := Option.some.inj (hcall.symm.trans hcall')
  have hsource := DnsCache.get_source hget
  rcases hcases with ⟨resp, rfl, rfl⟩ | ⟨resp, rfl, hspawn⟩ | ⟨-, rfl⟩
  · obtain ⟨secs, hfound⟩ := hsource
    exact ⟨resp, some secs, hfound, rfl⟩
  · obtain ⟨-, rfl⟩ := spawn_cases hspawn
    exact ⟨resp, none, hsource, rfl⟩
  · exact absurd rfl hserved

/-- **Answers from the cache.** Whenever `handle` answers from the cache, in any state, it returns the
    stored response with nothing but the transaction ID changed; so the answer is timely if and only
    if the stored lifetimes are.  In a run, where these are not below what the response was stored
    for, that is so only while the entry has all of it left and none is above it. -/
theorem served_timely_iff {i j : Nat} {call : Call} (hcall : s.calls i = some call)
    (h : s.lookup cfg i j = some s') (hserved : s'.returned ≠ s.returned) :
    ∃ resp left, s.cache.Source cfg.cache s.now (s.unixNow cfg) call.key resp left ∧
      s'.returned = (call, patchId resp call.msg, s.up) :: s.returned ∧
      (patchId resp call.msg).length = resp.length ∧
      (patchId resp call.msg).drop 2 = resp.drop 2 ∧
      (Timely left (patchId resp call.msg) ↔ Timely left resp) ∧
      ∀ secs, left = some secs →
        (∃ up actions, Transition.run (step cfg) (init up) actions = some s) →
        (∀ t ∈ ttlsOf resp, DnsCache.storedFor cfg.cache resp ≤ t) →
        (Timely left (patchId resp call.msg) ↔ ttlsOf resp = [] ∨
          secs = DnsCache.storedFor cfg.cache resp ∧
            ∀ t ∈ ttlsOf resp, t = DnsCache.storedFor cfg.cache resp) := by
  obtain ⟨resp, left, hfound, hreturned⟩ := lookup_source hcall h hserved
  obtain ⟨hlength, hdrop⟩ := patchId_frame resp call.msg
  have htimely : Timely left (patchId resp call.msg) ↔ Timely left resp := by
    rw [Timely, Timely, ttlsOf_patchId]
  refine ⟨resp, left, hfound, hreturned, hlength, hdrop, htimely, ?_⟩
  rintro secs rfl ⟨up, actions, hrun⟩ hstored
  rw [htimely]
  exact timely_iff_full (DnsCache.Dated.left_le (dated_of_run hrun) hfound) hstored

/-- An upstream that answers for `a` with one record that lives for a minute, and a cache that serves
    it stale for another minute. -/
def minuteSetup : Setup Unit Unit where
  cache := ⟨300, some (60 * second), false⟩
  epoch := 0
  query := fun _ _ _ _ => ((), some (Resolver.letterReply 0 0x61))

/-- `a` is asked for and stored, and asked for again after `secs` seconds. -/
def askAgainAfter (secs : Nat) : List (Action Unit) :=
  [.handle 0 [] (Resolver.letterQuery 0 0x61) false, .lookup 0 1, .lead 0, .respond 0 (), .store 0,
    .complete 0, .send 0, .tick (secs * second), .handle 2 [] (Resolver.letterQuery 7 0x61) false]

/-- The second call. -/
def secondCall : Call := ⟨[], Resolver.letterQuery 7 0x61, .lookup⟩

/-- Where the second call finds the entry of the first, and what it returns. -/
def AnsweredAfter (secs : Nat) (s s' : Handler Unit) : Prop :=
  Transition.run (step minuteSetup) (init ()) (askAgainAfter secs) = some s ∧
    s.calls 2 = some secondCall ∧ s.lookup minuteSetup 2 3 = some s' ∧ s.now = secs * second ∧
    s.cache.memory secondCall.key = some ⟨Resolver.letterReply 0 0x61, 60 * second⟩ ∧
    s'.returned.length = s.returned.length + 1 ∧
    s'.returned.head?.map (fun r => ttlsOf r.2.1) = some [60]

theorem exists_answeredAfter (secs : Nat)
    (h : ((Transition.run (step minuteSetup) (init ()) (askAgainAfter secs)).any fun s =>
      (s.lookup minuteSetup 2 3).any fun s' => (s.cache.memory secondCall.key).any fun entry => decide
        (s.calls 2 = some secondCall ∧ s.now = secs * second ∧
          entry.resp = Resolver.letterReply 0 0x61 ∧ entry.expires = 60 * second ∧
          s'.returned.length = s.returned.length + 1 ∧
          s'.returned.head?.map (fun r => ttlsOf r.2.1) = some [60])) = true) :
    ∃ s s', AnsweredAfter secs s s' := by
  obtain ⟨s, hs, h⟩ := (Option.any_eq_true _ _).mp h
  obtain ⟨s', hs', h⟩ := (Option.any_eq_true _ _).mp h
  obtain ⟨⟨resp, expires⟩, hentry, h⟩ := (Option.any_eq_true _ _).mp h
  obtain ⟨hcall, hnow, rfl, rfl, hlength, hhead⟩ := of_decide_eq_true h
  exact ⟨s, s', hs, hcall, hs', hnow, hentry, hlength, hhead⟩

/-- After 90 seconds the stale answer says a minute, and after 30 seconds the fresh one does too. -/
theorem served_stale :
    (∃ s s', AnsweredAfter 90 s s' ∧
      s.cache.Source minuteSetup.cache s.now (s.unixNow minuteSetup) secondCall.key
        (Resolver.letterReply 0 0x61) none ∧
      ∀ r, s'.returned.head? = some r → ¬ Timely none r.2.1) ∧
    ∃ s s', AnsweredAfter 30 s s' ∧
      s.cache.Source minuteSetup.cache s.now (s.unixNow minuteSetup) secondCall.key
        (Resolver.letterReply 0 0x61) (some 30) ∧
      ∀ r, s'.returned.head? = some r → ¬ Timely (some 30) r.2.1 := by
  have hreply : ttlsOf (Resolver.letterReply 0 0x61) = [60] := by decide +kernel
  -- the answer that is returned has the lifetime of the stored one, 60 seconds
  have huntimely (left : Option Nat) (hleft : ¬ Timely left (Resolver.letterReply 0 0x61))
      {s s' : Handler Unit} {secs : Nat} (h : AnsweredAfter secs s s') :
      ∀ r, s'.returned.head? = some r → ¬ Timely left r.2.1 := by
    intro r hr
    obtain ⟨-, -, -, -, -, -, hhead⟩ := h
    have hr60 : ttlsOf r.2.1 = [60] := by
      rw [hr] at hhead
      exact Option.some.inj hhead
    rw [Timely, hreply] at hleft
    rwa [Timely, hr60]
  constructor
  · -- behind its time, and within the stale window
    obtain ⟨s, s', h⟩ := exists_answeredAfter 90 (by decide +kernel)
    refine ⟨s, s', h, ?_, huntimely none ?_ h⟩
    · obtain ⟨-, -, -, hnow, hentry, -⟩ := h
      rw [hnow]
      exact .memoryStale _ hentry (by decide) (.inr ⟨60 * second, rfl, by decide⟩)
    · rw [Timely, hreply]
      decide
  · -- in the middle of its time
    obtain ⟨s, s', h⟩ := exists_answeredAfter 30 (by decide +kernel)
    refine ⟨s, s', h, ?_, huntimely (some 30) ?_ h⟩
    · obtain ⟨-, -, -, hnow, hentry, -⟩ := h
      rw [hnow]
      exact .memory _ hentry (by decide)
    · rw [Timely, hreply]
      decide

/-- Asked for again at once, `a` is answered with the stored response. -/
theorem served_timely_iff_atOnce :
    ∃ s s', AnsweredAfter 0 s s' ∧
      ∃ resp, s'.returned = (secondCall, patchId resp secondCall.msg, s.up) :: s.returned ∧
        (patchId resp secondCall.msg).drop 2 = resp.drop 2 := by
  obtain ⟨s, s', h⟩ := exists_answeredAfter 0 (by decide +kernel)
  refine ⟨s, s', h, ?_⟩
  obtain ⟨-, hcall, hlookup, -, -, hlength, -⟩ := h
  have hserved : s'.returned ≠ s.returned := fun heq => by
    rw [heq] at hlength
    omega
  obtain ⟨resp, left, -, hreturned, -, hdrop, -⟩ := served_timely_iff hcall hlookup hserved
  exact ⟨resp, hreturned, hdrop⟩

end Handler

end Reflex.Dns
