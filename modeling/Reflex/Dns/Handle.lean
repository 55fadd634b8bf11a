import Reflex.Dns.Resolver

namespace Reflex.Dns

open RustStd

/-!
# DNS — `handle` over the cache

`DnsResolver::handle` of `dns/mod.rs` with the cache of `dns/cache.rs` behind it, for any upstreams: what an
upstream does is a parameter.  A step is what one call does between two suspension points or critical sections, the
passing of time, or what happens to the cache on its own.  In particular `complete_inflight` is two steps,
`Inflight.remove` and `Inflight.publish`, because it sends after it has released the table.

* `DnsCache` — `get` and `set` over the memory and the cache file;
* `Handler.step` — the system of calls;
* `lookup_cases`, `respond_cases` and the like — everything that one step of a call can do.
-/

/-! ### The cache -/

/-- One second; instants and durations are in nanoseconds. -/
def second : Nat := 1000000000

/-- What `DnsCache` is built with. -/
structure CacheConfig where
  ttlCap : Nat
  /-- how long a stale entry may still be served, if at all -/
  optimisticTtl : Option Nat
  /-- is there a cache file? -/
  persist : Bool

/-- `CacheEntry`. -/
structure CacheEntry where
  resp : Bytes
  expires : Nat

/-- `DnsCache` without its in-flight table.  The entries of the cache file expire at a time in
    seconds; `saves` are those its writer has yet to write. -/
structure DnsCache where
  memory : CacheKey → Option CacheEntry
  disk : CacheKey → Option (Bytes × Nat)
  saves : List (CacheKey × Bytes × Nat)

namespace DnsCache

/-- Nothing cached. -/
def init : DnsCache where
  memory := fun _ => none
  disk := fun _ => none
  saves := []

/-- `insert_memory`. -/
def insertMemory (c : DnsCache) (now : Nat) (key : CacheKey) (resp : Bytes) (ttlSecs : Nat) :
    DnsCache :=
  { c with memory := Function.update c.memory key (some ⟨resp, now + ttlSecs * second⟩) }

/-- The part of `get` that reads the cache file. -/
def getDisk (cfg : CacheConfig) (c : DnsCache) (now nowSecs : Nat) (key : CacheKey) :
    CacheResult × DnsCache :=
  match (if cfg.persist then c.disk key else none) with
  | none => (.miss, c)
  | some (raw, expireAt) =>
      if nowSecs < expireAt then
        (.hit raw, c.insertMemory now key raw (min (expireAt - nowSecs) cfg.ttlCap))
      else if cfg.optimisticTtl.any fun opt => decide ((nowSecs - expireAt) * second < opt) then
        (.stale raw, c)
      else (.miss, c)

/-- `DnsCache::get`. -/
def get (cfg : CacheConfig) (c : DnsCache) (now nowSecs : Nat) (key : CacheKey) :
    CacheResult × DnsCache :=
  match c.memory key with
  | none => c.getDisk cfg now nowSecs key
  | some entry =>
      if now < entry.expires then (.hit entry.resp, c)
      else if cfg.optimisticTtl.any fun opt => decide (now < entry.expires + opt) then
        (.stale entry.resp, c)
      else { c with memory := Function.update c.memory key none }.getDisk cfg now nowSecs key

/-- `DnsCache::set`. -/
def set (cfg : CacheConfig) (c : DnsCache) (now nowSecs : Nat) (key : CacheKey) (resp : Bytes)
    (ttl : Nat) : DnsCache :=
  let ttl := max (min ttl cfg.ttlCap) 1
  let c := c.insertMemory now key resp ttl
  if cfg.persist then { c with saves := c.saves ++ [(key, resp, nowSecs + ttl)] } else c

/-- The writer of the cache file writes the save that is due, or fails to. -/
def flush (c : DnsCache) (ok : Bool) : DnsCache :=
  match c.saves with
  | [] => c
  | (key, resp, expireAt) :: saves =>
      if ok then { c with disk := Function.update c.disk key (some (resp, expireAt)), saves }
      else { c with saves }

/-- The memory drops an entry: it is the one used longest ago and the capacity is reached, or
    another call has found it expired. -/
def evict (c : DnsCache) (key : CacheKey) : DnsCache :=
  { c with memory := Function.update c.memory key none }

/-- The cleanup of the cache file drops an entry. -/
def purge (c : DnsCache) (key : CacheKey) : DnsCache :=
  { c with disk := Function.update c.disk key none }

end DnsCache

/-! ### The system -/

deriving instance DecidableEq for Purpose

namespace Handler

/-- Where a call is suspended. -/
inductive Stage where
  /-- before `cache.get` -/
  | lookup
  /-- before `try_lead_inflight` -/
  | lead
  /-- in `rx.recv()` -/
  | wait (rx : Nat)
  /-- in `upstream.query` -/
  | query (purpose : Purpose)
  /-- the query returned `resp`, which has yet to be stored -/
  | store (purpose : Purpose) (resp : Bytes)
  /-- before `complete_inflight`; the query of the leader returned `result` -/
  | complete (result : Option Bytes)
  /-- in `complete_inflight`, which took `tx` out of the table and has yet to send -/
  | send (tx : Option Nat) (result : Option Bytes)
  /-- `handle` has returned -/
  | done (result : Option Bytes)
  /-- the background refresh has ended -/
  | refreshed
  deriving DecidableEq

/-- A call of `handle` that its rules sent to the upstream with the tag `transport`, or a
    background refresh. -/
structure Call where
  transport : Str
  msg : Bytes
  stage : Stage
  deriving DecidableEq

/-- The cache key of a call. -/
def Call.key (c : Call) : CacheKey := cacheKey c.transport c.msg

end Handler

/-- The state of the resolver.  `up` is the state of its upstreams.  Calls are numbered.  The last
    three fields only record what happens. -/
structure Handler (υ : Type) where
  /-- the time since the start -/
  now : Nat
  up : υ
  cache : DnsCache
  inflight : Inflight
  calls : Nat → Option Handler.Call
  /-- the call that leads each channel -/
  leaderOf : Nat → Option Nat
  /-- what the waiters received: call, channel, and a response or an error -/
  received : List (Nat × Nat × Option Bytes)
  /-- what was returned to clients: the call, the response, and the upstreams at that moment -/
  returned : List (Handler.Call × Bytes × υ)

/-- What the system is built from: the settings of the cache, the time of the start, and the upstreams. -/
structure Setup (υ ι : Type) where
  cache : CacheConfig
  /-- the time of the start, in seconds -/
  epoch : Nat
  /-- `upstream.query`: the upstream with the given tag answers or fails; what it depends on besides
      its state is an input -/
  query : υ → Str → Bytes → ι → υ × Option Bytes

namespace Handler

variable {υ ι : Type}

/-- No call, and nothing cached. -/
def init (up : υ) : Handler υ where
  now := 0
  up := up
  cache := DnsCache.init
  inflight := Inflight.init
  calls := fun _ => none
  leaderOf := fun _ => none
  received := []
  returned := []

/-- `unix_now`. -/
def unixNow (cfg : Setup υ ι) (s : Handler υ) : Nat := cfg.epoch + s.now / second

/-- Call `i` is now suspended at `stage`. -/
def move (s : Handler υ) (i : Nat) (call : Call) (stage : Stage) : Handler υ :=
  { s with calls := Function.update s.calls i (some { call with stage }) }

/-- `handle` returns to the client of call `i`. -/
def finish (s : Handler υ) (i : Nat) (call : Call) (result : Option Bytes) : Handler υ :=
  let s := s.move i call (.done result)
  match result with
  | some resp => { s with returned := (call, resp, s.up) :: s.returned }
  | none => s

/-- A call starts under a number that no other call has. -/
def spawn (s : Handler υ) (i : Nat) (call : Call) : Option (Handler υ) :=
  match s.calls i with
  | some _ => none
  | none => some { s with calls := Function.update s.calls i (some call) }

/-- `handle` is called, and its rules choose `transport`. -/
def handle (s : Handler υ) (i : Nat) (transport : Str) (msg : Bytes) (disableCache : Bool) :
    Option (Handler υ) :=
  s.spawn i ⟨transport, msg, if disableCache then .query .direct else .lookup⟩

/-- `cache.get` and what follows; a stale entry spawns the refresh `j`. -/
def lookup (cfg : Setup υ ι) (s : Handler υ) (i j : Nat) : Option (Handler υ) :=
  match s.calls i with
  | some ⟨transport, msg, .lookup⟩ =>
      let call : Call := ⟨transport, msg, .lookup⟩
      match s.cache.get cfg.cache s.now (s.unixNow cfg) call.key with
      | (.hit cached, cache) => some ({ s with cache }.finish i call (some (patchId cached msg)))
      | (.stale cached, cache) =>
          ({ s with cache }.finish i call (some (patchId cached msg))).spawn j
            ⟨transport, msg, .query .refresh⟩
      | (.miss, cache) => some ({ s with cache }.move i call .lead)
  | _ => none

/-- `try_lead_inflight` and what follows. -/
def lead (s : Handler υ) (i : Nat) : Option (Handler υ) :=
  match s.calls i with
  | some ⟨transport, msg, .lead⟩ =>
      let call : Call := ⟨transport, msg, .lead⟩
      match s.inflight.tryLeadInflight call.key with
      | (.leader, inflight) =>
          some ({ s with
            inflight, leaderOf := Function.update s.leaderOf s.inflight.next (some i) }.move i call
              (.query .leader))
      | (.waiter rx, inflight) => some ({ s with inflight }.move i call (.wait rx))
  | _ => none

/-- `rx.recv()` and what follows: the value of the leader, or a query of the waiter's own. -/
def recv (s : Handler υ) (i : Nat) : Option (Handler υ) :=
  match s.calls i with
  | some ⟨transport, msg, .wait rx⟩ =>
      let call : Call := ⟨transport, msg, .wait rx⟩
      match s.inflight.channels rx with
      | some ⟨_, .sent resp⟩ =>
          some ({ s with received := (i, rx, some resp) :: s.received }.finish i call
            (some (patchId resp msg)))
      -- the leader failed: every waiter asks for itself, past the in-flight table
      | some ⟨_, .closed⟩ =>
          some ({ s with received := (i, rx, none) :: s.received }.move i call (.query .retry))
      | _ => none
  | _ => none

/-- `upstream.query` returns to call `i`. -/
def respond (cfg : Setup υ ι) (s : Handler υ) (i : Nat) (input : ι) : Option (Handler υ) :=
  match s.calls i with
  | some ⟨transport, msg, .query purpose⟩ =>
      let call : Call := ⟨transport, msg, .query purpose⟩
      let (up, result) := cfg.query s.up transport msg input
      let s := { s with up }
      match purpose, result with
      | .direct, result => some (s.finish i call result)
      | .leader, none => some (s.move i call (.complete none))
      | .retry, none => some (s.finish i call none)
      | .refresh, none => some (s.move i call .refreshed)
      | purpose, some resp => some (s.move i call (.store purpose resp))
  | _ => none

/-- The call of `cache.set` for a response, where it is one to be cached. -/
def cacheSet (cfg : Setup υ ι) (s : Handler υ) (key : CacheKey) (resp : Bytes) : Handler υ :=
  if isCacheableOrNegative resp then
    let ttl := (extractMinTtlOrNegative resp).getD 60
    { s with cache := s.cache.set cfg.cache s.now (s.unixNow cfg) key resp ttl }
  else s

/-- The response of a query is stored. -/
def store (cfg : Setup υ ι) (s : Handler υ) (i : Nat) : Option (Handler υ) :=
  match s.calls i with
  | some ⟨transport, msg, .store purpose resp⟩ =>
      let call : Call := ⟨transport, msg, .store purpose resp⟩
      let s := s.cacheSet cfg call.key resp
      match purpose with
      | .leader => some (s.move i call (.complete (some resp)))
      | .refresh => some (s.move i call .refreshed)
      | _ => some (s.finish i call (some resp))
  | _ => none

/-- The leader calls `complete_inflight`. -/
def complete (s : Handler υ) (i : Nat) : Option (Handler υ) :=
  match s.calls i with
  | some ⟨transport, msg, .complete result⟩ =>
      let call : Call := ⟨transport, msg, .complete result⟩
      let (tx, inflight) := s.inflight.remove call.key
      some ({ s with inflight }.move i call (.send tx result))
  | _ => none

/-- `complete_inflight` sends, and the leader returns. -/
def send (s : Handler υ) (i : Nat) : Option (Handler υ) :=
  match s.calls i with
  | some ⟨transport, msg, .send tx result⟩ =>
      let call : Call := ⟨transport, msg, .send tx result⟩
      some ({ s with inflight := s.inflight.publish tx result }.finish i call result)
  | _ => none

/-- The steps of the system. -/
inductive Action (ι : Type) where
  | handle (i : Nat) (transport : Str) (msg : Bytes) (disableCache : Bool)
  | lookup (i j : Nat)
  | lead (i : Nat)
  | recv (i : Nat)
  | respond (i : Nat) (input : ι)
  | store (i : Nat)
  | complete (i : Nat)
  | send (i : Nat)
  | tick (nanos : Nat)
  | evict (key : CacheKey)
  | flush (ok : Bool)
  | purge (key : CacheKey)

/-- One step of the system. -/
def step (cfg : Setup υ ι) (s : Handler υ) : Action ι → Option (Handler υ)
  | .handle i transport msg disableCache => s.handle i transport msg disableCache
  | .lookup i j => s.lookup cfg i j
  | .lead i => s.lead i
  | .recv i => s.recv i
  | .respond i input => s.respond cfg i input
  | .store i => s.store cfg i
  | .complete i => s.complete i
  | .send i => s.send i
  | .tick nanos => some { s with now := s.now + nanos }
  | .evict key => some { s with cache := s.cache.evict key }
  | .flush ok => some { s with cache := s.cache.flush ok }
  | .purge key => some { s with cache := s.cache.purge key }

end Handler

/-! ### What each step does -/

theorem Inflight.tryLeadInflight_of_none {f : Inflight} {key : CacheKey}
    (h : f.senders key = none) :
    f.tryLeadInflight key = (.leader, (f.tryLeadInflight key).2) := by
  unfold tryLeadInflight
  rw [h]

theorem Inflight.tryLeadInflight_of_some {f : Inflight} {key : CacheKey} {rx : Nat}
    (h : f.senders key = some rx) : f.tryLeadInflight key = (.waiter rx, f) := by
  unfold tryLeadInflight
  rw [h]

namespace Handler

variable {υ ι : Type} {cfg : Setup υ ι} {s s' : Handler υ} {i : Nat}

theorem spawn_cases {call : Call} (h : s.spawn i call = some s') :
    s.calls i = none ∧ s' = { s with calls := Function.update s.calls i (some call) } := by
  unfold spawn at h
  split at h
  · cases h
  · rename_i hnew
    exact ⟨hnew, (Option.some.inj h).symm⟩

/-- A cached response is returned, and a stale one is refreshed; without one the call goes on. -/
theorem lookup_cases {j : Nat} (h : s.lookup cfg i j = some s') :
    ∃ call result cache, s.calls i = some call ∧ call.stage = .lookup ∧
      s.cache.get cfg.cache s.now (s.unixNow cfg) call.key = (result, cache) ∧
      ((∃ resp, result = .hit resp ∧
          s' = { s with cache }.finish i call (some (patchId resp call.msg))) ∨
        (∃ resp, result = .stale resp ∧
          ({ s with cache }.finish i call (some (patchId resp call.msg))).spawn j
            ⟨call.transport, call.msg, .query .refresh⟩ = some s') ∨
        (result = .miss ∧ s' = { s with cache }.move i call .lead)) := by
  unfold lookup at h
  split at h
  · rename_i transport msg hcall
    rcases hget : s.cache.get cfg.cache s.now (s.unixNow cfg)
      (Call.key ⟨transport, msg, .lookup⟩) with ⟨result, cache⟩
    refine ⟨_, result, cache, hcall, rfl, hget, ?_⟩
    simp only [hget] at h
    cases result with
    | hit resp => exact .inl ⟨resp, rfl, (Option.some.inj h).symm⟩
    | stale resp => exact .inr (.inl ⟨resp, rfl, h⟩)
    | miss => exact .inr (.inr ⟨rfl, (Option.some.inj h).symm⟩)
  · cases h

/-- The call leads a new channel, or waits for the one in the table. -/
theorem lead_cases (h : s.lead i = some s') :
    ∃ call, s.calls i = some call ∧ call.stage = .lead ∧
      ((s.inflight.senders call.key = none ∧
          s' = { s with
            inflight := (s.inflight.tryLeadInflight call.key).2
            leaderOf := Function.update s.leaderOf s.inflight.next (some i) }.move i call
              (.query .leader)) ∨
        ∃ rx, s.inflight.senders call.key = some rx ∧ s' = s.move i call (.wait rx)) := by
  unfold lead at h
  split at h
  · rename_i transport msg hcall
    refine ⟨_, hcall, rfl, ?_⟩
    simp only at h
    rcases hsender : s.inflight.senders (Call.key ⟨transport, msg, .lead⟩) with _ | rx
    · rw [Inflight.tryLeadInflight_of_none hsender] at h
      exact .inl ⟨rfl, (Option.some.inj h).symm⟩
    · rw [Inflight.tryLeadInflight_of_some hsender] at h
      exact .inr ⟨rx, rfl, (Option.some.inj h).symm⟩
  · cases h

/-- The waiter returns what its leader sent, or asks for itself. -/
theorem recv_cases (h : s.recv i = some s') :
    ∃ call rx key, s.calls i = some call ∧ call.stage = .wait rx ∧
      ((∃ resp, s.inflight.channels rx = some ⟨key, .sent resp⟩ ∧
          s' = { s with received := (i, rx, some resp) :: s.received }.finish i call
            (some (patchId resp call.msg))) ∨
        (s.inflight.channels rx = some ⟨key, .closed⟩ ∧
          s' = { s with received := (i, rx, none) :: s.received }.move i call
            (.query .retry))) := by
  unfold recv at h
  split at h
  · rename_i transport msg rx hcall
    simp only at h
    split at h
    · rename_i key resp hsent
      exact ⟨_, rx, key, hcall, rfl, .inl ⟨resp, hsent, (Option.some.inj h).symm⟩⟩
    · rename_i key hclosed
      exact ⟨_, rx, key, hcall, rfl, .inr ⟨hclosed, (Option.some.inj h).symm⟩⟩
    · cases h
  · cases h

/-- The call returns, goes on without a response, or goes on to store the one it has. -/
theorem respond_cases {input : ι} (h : s.respond cfg i input = some s') :
    ∃ call purpose up result, s.calls i = some call ∧ call.stage = .query purpose ∧
      cfg.query s.up call.transport call.msg input = (up, result) ∧
      (((purpose = .direct ∨ (purpose = .retry ∧ result = none)) ∧
          s' = { s with up }.finish i call result) ∨
        (purpose = .leader ∧ result = none ∧ s' = { s with up }.move i call (.complete none)) ∨
        (purpose = .refresh ∧ result = none ∧ s' = { s with up }.move i call .refreshed) ∨
        ∃ resp, purpose ≠ .direct ∧ result = some resp ∧
          s' = { s with up }.move i call (.store purpose resp)) := by
  unfold respond at h
  split at h
  · rename_i transport msg purpose hcall
    rcases hquery : cfg.query s.up transport msg input with ⟨up, result⟩
    refine ⟨_, purpose, up, result, hcall, rfl, hquery, ?_⟩
    simp only [hquery] at h
    -- what becomes of the answer depends on what the query was made for
    cases purpose with
    | direct => exact .inl ⟨.inl rfl, (Option.some.inj h).symm⟩
    | leader =>
      cases result with
      | none => exact .inr (.inl ⟨rfl, rfl, (Option.some.inj h).symm⟩)
      | some resp => exact .inr (.inr (.inr ⟨resp, by simp, rfl, (Option.some.inj h).symm⟩))
    | retry =>
      cases result with
      | none => exact .inl ⟨.inr ⟨rfl, rfl⟩, (Option.some.inj h).symm⟩
      | some resp => exact .inr (.inr (.inr ⟨resp, by simp, rfl, (Option.some.inj h).symm⟩))
    | refresh =>
      cases result with
      | none => exact .inr (.inr (.inl ⟨rfl, rfl, (Option.some.inj h).symm⟩))
      | some resp => exact .inr (.inr (.inr ⟨resp, by simp, rfl, (Option.some.inj h).symm⟩))
  · cases h

theorem store_cases (h : s.store cfg i = some s') :
    ∃ call purpose resp, s.calls i = some call ∧ call.stage = .store purpose resp ∧
      ((purpose = .leader ∧
          s' = (s.cacheSet cfg call.key resp).move i call (.complete (some resp))) ∨
        (purpose = .refresh ∧ s' = (s.cacheSet cfg call.key resp).move i call .refreshed) ∨
        ((purpose = .direct ∨ purpose = .retry) ∧
          s' = (s.cacheSet cfg call.key resp).finish i call (some resp))) := by
  unfold store at h
  split at h
  · rename_i transport msg purpose resp hcall
    refine ⟨_, purpose, resp, hcall, rfl, ?_⟩
    cases purpose with
    | leader => exact .inl ⟨rfl, (Option.some.inj h).symm⟩
    | refresh => exact .inr (.inl ⟨rfl, (Option.some.inj h).symm⟩)
    | retry => exact .inr (.inr ⟨.inr rfl, (Option.some.inj h).symm⟩)
    | direct => exact .inr (.inr ⟨.inl rfl, (Option.some.inj h).symm⟩)
  · cases h

theorem complete_cases (h : s.complete i = some s') :
    ∃ call result, s.calls i = some call ∧ call.stage = .complete result ∧
      s' = { s with inflight := (s.inflight.remove call.key).2 }.move i call
        (.send (s.inflight.remove call.key).1 result) := by
  unfold complete at h
  split at h
  · rename_i transport msg result hcall
    exact ⟨_, result, hcall, rfl, (Option.some.inj h).symm⟩
  · cases h

theorem send_cases (h : s.send i = some s') :
    ∃ call tx result, s.calls i = some call ∧ call.stage = .send tx result ∧
      s' = { s with inflight := s.inflight.publish tx result }.finish i call result := by
  unfold send at h
  split at h
  · rename_i transport msg tx result hcall
    exact ⟨_, tx, result, hcall, rfl, (Option.some.inj h).symm⟩
  · cases h

end Handler

end Reflex.Dns
