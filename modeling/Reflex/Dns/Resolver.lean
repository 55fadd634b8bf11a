import Reflex.Dns.Cache
import Reflex.Dns.UdpUpstream

namespace Reflex.Dns

open RustStd

/-!
# DNS — the resolver over one UDP upstream

`DnsResolver::handle` of `dns/mod.rs` for the queries its rules send to one direct UDP upstream,
together with the queries of `resolve_domain` through the same upstream.  A step is what one call
does between two suspension points or critical sections, or a step inside the upstream.  What the
cache finds is left open: it is an input of the step that looks it up.

* `Separate` — every query on the shared socket is sent exclusively;
* `Paired` — queries return, and `handle` stores and broadcasts, responses to the question asked;
* `paired_of_separate` — every interleaving whose steps are separate keeps the responses paired;
* `not_paired_crossed` — two queries at once suffice to break the pairing.
-/

/-! ### The system -/

/-- Why a task queries the upstream. -/
inductive Purpose where
  /-- as the leader of its key -/
  | leader
  /-- as a waiter whose leader failed -/
  | retry
  /-- to refresh a stale entry in the background -/
  | refresh
  /-- past the cache: it is disabled, or the caller is `resolve_domain` -/
  | direct

/-- Where a task is suspended. -/
inductive Stage where
  /-- before `cache.get` -/
  | lookup
  /-- before `try_lead_inflight` -/
  | lead
  /-- in `rx.recv()` -/
  | wait (rx : Nat)
  /-- in `upstream.query` -/
  | query (purpose : Purpose)
  /-- the query returned `resp`, which has yet to be stored -/
  | store (purpose : Purpose) (resp : Bytes)
  /-- before `complete_inflight` -/
  | complete (result : Except QueryError Bytes)
  /-- `handle` has returned -/
  | done (result : Except QueryError Bytes)
  /-- the background refresh has ended -/
  | refreshed

/-- The response a task has in hand and has yet to publish. -/
def Stage.holds : Stage → Option Bytes
  | .store _ resp | .complete (.ok resp) => some resp
  | _ => none

/-- A call of `handle` or `resolve_domain`, or a background refresh. -/
structure Task where
  msg : Bytes
  stage : Stage

/-- The state of the resolver.  Tasks are numbered; the query a task makes has its number. -/
structure Resolver where
  net : Net
  inflight : Inflight
  tasks : Nat → Option Task
  /-- the calls of `DnsCache::set`: key, response and lifetime -/
  stored : List (CacheKey × Bytes × Nat)

namespace Resolver

/-- No task and nothing stored. -/
def init : Resolver where
  net := Net.init
  inflight := Inflight.init
  tasks := fun _ => none
  stored := []

/-- Task `i`, for `msg`, is now suspended at `stage`. -/
def move (s : Resolver) (i : Nat) (msg : Bytes) (stage : Stage) : Resolver :=
  { s with tasks := Function.update s.tasks i (some ⟨msg, stage⟩) }

/-- Task `i` calls `upstream.query`. -/
def query (s : Resolver) (i : Nat) (msg : Bytes) (purpose : Purpose) : Option Resolver :=
  (s.net.call i msg).map fun net => { s with net }.move i msg (.query purpose)

/-- A new task for `msg`, begun by `start`. -/
def spawn (s : Resolver) (i : Nat) (start : Resolver → Option Resolver) : Option Resolver :=
  match s.tasks i with
  | some _ => none
  | none => start s

/-- `handle` is called with the cache in use. -/
def handle (s : Resolver) (i : Nat) (msg : Bytes) : Option Resolver :=
  s.spawn i fun s => some (s.move i msg .lookup)

/-- `handle` is called with the cache disabled, or `resolve_domain` queries the upstream. -/
def direct (s : Resolver) (i : Nat) (msg : Bytes) : Option Resolver :=
  s.spawn i fun s => s.query i msg .direct

/-- `cache.get` and what follows; a stale entry spawns the refresh `j`. -/
def lookup (s : Resolver) (i j : Nat) (found : CacheResult) : Option Resolver :=
  match s.tasks i with
  | some ⟨msg, .lookup⟩ =>
      match found with
      | .hit cached => some (s.move i msg (.done (.ok (patchId cached msg))))
      | .stale cached =>
          (s.move i msg (.done (.ok (patchId cached msg)))).spawn j fun s => s.query j msg .refresh
      | .miss => some (s.move i msg .lead)
  | _ => none

/-- `try_lead_inflight` and what follows. -/
def lead (transport : Str) (s : Resolver) (i : Nat) : Option Resolver :=
  match s.tasks i with
  | some ⟨msg, .lead⟩ =>
      match s.inflight.tryLeadInflight (cacheKey transport msg) with
      | (.leader, inflight) => { s with inflight }.query i msg .leader
      | (.waiter rx, inflight) => some ({ s with inflight }.move i msg (.wait rx))
  | _ => none

/-- `rx.recv()` and what follows: the value of the leader, or a query of the waiter's own. -/
def recv (s : Resolver) (i : Nat) : Option Resolver :=
  match s.tasks i with
  | some ⟨msg, .wait rx⟩ =>
      match s.inflight.channels rx with
      | some ⟨_, .sent resp⟩ => some (s.move i msg (.done (.ok (patchId resp msg))))
      -- the leader failed: every waiter asks for itself, past the in-flight table
      | some ⟨_, .closed⟩ => s.query i msg .retry
      | _ => none
  | _ => none

/-- What a task does with the result of its query. -/
def afterQuery : Purpose → Except QueryError Bytes → Stage
  | .direct, result => .done result
  | .leader, .error e => .complete (.error e)
  | .retry, .error e => .done (.error e)
  | .refresh, .error _ => .refreshed
  | purpose, .ok resp => .store purpose resp

/-- `upstream.query` returns to task `i`. -/
def resume (s : Resolver) (i : Nat) : Option Resolver :=
  match s.tasks i, s.net.queries i with
  | some ⟨msg, .query purpose⟩, some ⟨_, .done result⟩ =>
      (s.net.collect i).map fun net => { s with net }.move i msg (afterQuery purpose result)
  | _, _ => none

/-- The call of `cache.set` for a response, where it is one to be cached. -/
def set (transport : Str) (msg resp : Bytes) : List (CacheKey × Bytes × Nat) :=
  -- the key is made from the query, the value from whatever came back
  if isCacheableOrNegative resp then
    [(cacheKey transport msg, resp, (extractMinTtlOrNegative resp).getD 60)]
  else []

/-- What a task does after it has stored the response. -/
def afterStore : Purpose → Bytes → Stage
  | .leader, resp => .complete (.ok resp)
  | .refresh, _ => .refreshed
  | _, resp => .done (.ok resp)

/-- The response of a query is stored. -/
def store (transport : Str) (s : Resolver) (i : Nat) : Option Resolver :=
  match s.tasks i with
  | some ⟨msg, .store purpose resp⟩ =>
      some ({ s with stored := set transport msg resp ++ s.stored }.move i msg
        (afterStore purpose resp))
  | _ => none

/-- `complete_inflight` of the leader. -/
def complete (transport : Str) (s : Resolver) (i : Nat) : Option Resolver :=
  match s.tasks i with
  | some ⟨msg, .complete result⟩ =>
      let inflight := s.inflight.completeInflight (cacheKey transport msg) result.toOption
      some ({ s with inflight }.move i msg (.done result))
  | _ => none

/-- A step inside the upstream, which the callers of it do not see. -/
def upstream (addr : SocketAddr) (s : Resolver) (a : Net.Action) : Option Resolver :=
  if a.isInternal then (s.net.step addr a).map fun net => { s with net } else none

/-- The steps of the system. -/
inductive Action where
  | handle (i : Nat) (msg : Bytes)
  | direct (i : Nat) (msg : Bytes)
  | lookup (i j : Nat) (found : CacheResult)
  | lead (i : Nat)
  | recv (i : Nat)
  | upstream (a : Net.Action)
  | resume (i : Nat)
  | store (i : Nat)
  | complete (i : Nat)

/-- One step of the system, for the upstream with the tag `transport` and the address `addr`. -/
def step (transport : Str) (addr : SocketAddr) (s : Resolver) : Action → Option Resolver
  | .handle i msg => s.handle i msg
  | .direct i msg => s.direct i msg
  | .lookup i j found => s.lookup i j found
  | .lead i => s.lead transport i
  | .recv i => s.recv i
  | .upstream a => s.upstream addr a
  | .resume i => s.resume i
  | .store i => s.store transport i
  | .complete i => s.complete transport i

/-! ### Pairing -/

/-- Every query on the shared socket is sent exclusively. -/
def Separate (s : Resolver) (a : Action) : Prop :=
  ∀ b, a = .upstream b → s.net.Exclusive b

/-- **Pairing.** A query that returned a message returned one with its transaction ID and question,
    and no key was given a response to another question, neither in the cache nor in a
    broadcast. -/
structure Paired (transport : Str) (s : Resolver) : Prop where
  returned : ∀ i msg resp, s.net.queries i = some ⟨msg, .done (.ok resp)⟩ → Carries msg resp
  stored : ∀ key resp ttl, (key, resp, ttl) ∈ s.stored → cacheKey transport resp = key
  broadcast : ∀ rx key resp, s.inflight.channels rx = some ⟨key, .sent resp⟩ →
    cacheKey transport resp = key

/-- The invariant of separate runs: what tasks hold, what is stored and what is broadcast is for the right
    question. -/
structure Inv (transport : Str) (s : Resolver) : Prop where
  net : s.net.Inv
  inflight : s.inflight.Inv
  /-- the query of a task is for its message -/
  query : ∀ i msg purpose, s.tasks i = some ⟨msg, .query purpose⟩ →
    ∃ phase, s.net.queries i = some ⟨msg, phase⟩
  /-- the response in hand is one to the task's message -/
  holds : ∀ i msg stage resp, s.tasks i = some ⟨msg, stage⟩ → stage.holds = some resp →
    Carries msg resp
  stored : ∀ key resp ttl, (key, resp, ttl) ∈ s.stored → cacheKey transport resp = key
  broadcast : ∀ rx key resp, s.inflight.channels rx = some ⟨key, .sent resp⟩ →
    cacheKey transport resp = key

variable {transport : Str} {addr : SocketAddr}

theorem Inv.paired {s : Resolver} (h : s.Inv transport) : s.Paired transport :=
  ⟨h.net.carries, h.stored, h.broadcast⟩

theorem inv_init : init.Inv transport := by
  refine ⟨Net.inv_init, Inflight.inv_init, ?_, ?_, ?_, ?_⟩
  · intro i msg purpose hi
    cases hi
  · intro i msg stage resp hi
    cases hi
  · intro key resp ttl hmem
    cases hmem
  · intro rx key resp hrx
    cases hrx

/-! ### Frames -/

theorem tasks_move {s : Resolver} {i j : Nat} {msg msg' : Bytes} {stage stage' : Stage}
    (h : (s.move i msg stage).tasks j = some ⟨msg', stage'⟩) :
    (j = i ∧ msg' = msg ∧ stage' = stage) ∨ (j ≠ i ∧ s.tasks j = some ⟨msg', stage'⟩) := by
  by_cases hj : j = i
  · subst hj
    have hself : (s.move j msg stage).tasks j = some ⟨msg, stage⟩ := Function.update_self ..
    rw [hself] at h
    cases h
    exact .inl ⟨rfl, rfl, rfl⟩
  · have hother : (s.move i msg stage).tasks j = s.tasks j := Function.update_of_ne hj ..
    rw [hother] at h
    exact .inr ⟨hj, h⟩

/-- Task `i` moves on to a stage whose own conditions hold. -/
theorem Inv.move {s : Resolver} (h : s.Inv transport) {i : Nat} {msg : Bytes} {stage : Stage}
    (hquery : ∀ purpose, stage = .query purpose → ∃ phase, s.net.queries i = some ⟨msg, phase⟩)
    (hholds : ∀ resp, stage.holds = some resp → Carries msg resp) :
    (s.move i msg stage).Inv transport := by
  refine ⟨h.net, h.inflight, ?_, ?_, h.stored, h.broadcast⟩
  · intro j msg' purpose hj
    rcases tasks_move hj with ⟨rfl, rfl, hstage⟩ | ⟨-, hj⟩
    · exact hquery purpose hstage.symm
    · exact h.query j msg' purpose hj
  · intro j msg' stage' resp hj hresp
    rcases tasks_move hj with ⟨-, rfl, rfl⟩ | ⟨-, hj⟩
    · exact hholds resp hresp
    · exact h.holds j msg' stage' resp hj hresp

/-- The network moves on and keeps the messages of its queries. -/
theorem Inv.net_of_keeps {s : Resolver} (h : s.Inv transport) {net : Net} (hnet : net.Inv)
    (hkeeps : s.net.Keeps net) : { s with net }.Inv transport := by
  refine ⟨hnet, h.inflight, ?_, h.holds, h.stored, h.broadcast⟩
  intro i msg purpose hi
  obtain ⟨phase, hq⟩ := h.query i msg purpose hi
  exact hkeeps i msg phase hq

/-- The in-flight table moves on and sends responses to the question of the key only. -/
theorem Inv.inflight_of_sent {s : Resolver} (h : s.Inv transport) {inflight : Inflight}
    (hinflight : inflight.Inv)
    (hsent : ∀ rx key resp, inflight.channels rx = some ⟨key, .sent resp⟩ →
      cacheKey transport resp = key) : { s with inflight }.Inv transport :=
  ⟨h.net, hinflight, h.query, h.holds, h.stored, hsent⟩

theorem inv_query {s s' : Resolver} {i : Nat} {msg : Bytes} {purpose : Purpose}
    (h : s.Inv transport) (hstep : s.query i msg purpose = some s') : s'.Inv transport := by
  obtain ⟨net, hcall, rfl⟩ := Option.map_eq_some_iff.mp hstep
  -- the call first, then the task, whose query is the one just made
  have hnet := h.net_of_keeps (Net.inv_call h.net hcall) (Net.keeps_call hcall)
  obtain ⟨-, rfl⟩ := Net.call_eq_some hcall
  refine hnet.move ?_ nofun
  intro _ _
  exact ⟨.start, Function.update_self ..⟩

/-! ### One step -/

theorem spawn_eq_some {s s' : Resolver} {i : Nat} {start : Resolver → Option Resolver}
    (h : s.spawn i start = some s') : start s = some s' := by
  unfold spawn at h
  split at h
  · cases h
  · exact h

theorem inv_handle {s s' : Resolver} {i : Nat} {msg : Bytes} (h : s.Inv transport)
    (hstep : s.handle i msg = some s') : s'.Inv transport := by
  cases spawn_eq_some hstep
  exact h.move nofun nofun

theorem inv_direct {s s' : Resolver} {i : Nat} {msg : Bytes} (h : s.Inv transport)
    (hstep : s.direct i msg = some s') : s'.Inv transport :=
  inv_query h (spawn_eq_some hstep)

theorem inv_lookup {s s' : Resolver} {i j : Nat} {found : CacheResult} (h : s.Inv transport)
    (hstep : s.lookup i j found = some s') : s'.Inv transport := by
  unfold lookup at hstep
  split at hstep
  case h_2 => cases hstep
  case h_1 msg hi =>
    cases found with
    | hit cached =>
        cases hstep
        exact h.move nofun nofun
    | stale cached =>
        have hdone : (s.move i msg (.done (.ok (patchId cached msg)))).Inv transport :=
          h.move nofun nofun
        exact inv_query hdone (spawn_eq_some hstep)
    | miss =>
        cases hstep
        exact h.move nofun nofun

theorem inv_lead {s s' : Resolver} {i : Nat} (h : s.Inv transport)
    (hstep : s.lead transport i = some s') : s'.Inv transport := by
  unfold lead at hstep
  split at hstep
  case h_2 => cases hstep
  case h_1 msg hi =>
    -- leader or waiter, the table has moved on in the same way
    have hinflight : { s with
        inflight := (s.inflight.tryLeadInflight (cacheKey transport msg)).2 }.Inv transport := by
      refine h.inflight_of_sent (Inflight.inv_tryLeadInflight h.inflight _) ?_
      intro rx key resp hrx
      exact h.broadcast rx key resp (Inflight.sent_tryLeadInflight hrx)
    split at hstep
    case h_1 inflight htry =>
      rw [htry] at hinflight
      exact inv_query hinflight hstep
    case h_2 rx inflight htry =>
      rw [htry] at hinflight
      cases hstep
      exact hinflight.move nofun nofun

theorem inv_recv {s s' : Resolver} {i : Nat} (h : s.Inv transport) (hstep : s.recv i = some s') :
    s'.Inv transport := by
  unfold recv at hstep
  split at hstep
  case h_2 => cases hstep
  case h_1 msg rx hi =>
    split at hstep
    case h_1 =>
      cases hstep
      exact h.move nofun nofun
    case h_2 => exact inv_query h hstep
    case h_3 => cases hstep

theorem inv_upstream {s s' : Resolver} {a : Net.Action} (h : s.Inv transport)
    (hexcl : s.net.Exclusive a) (hstep : s.upstream addr a = some s') : s'.Inv transport := by
  unfold upstream at hstep
  split at hstep
  case isFalse => cases hstep
  case isTrue hinternal =>
    obtain ⟨net, hnet, rfl⟩ := Option.map_eq_some_iff.mp hstep
    exact h.net_of_keeps (Net.inv_step h.net hnet hexcl) (Net.keeps_step hinternal hnet)

/-- A task that goes on with the response of its query has that response in hand. -/
theorem holds_afterQuery {purpose : Purpose} {result : Except QueryError Bytes} {resp : Bytes}
    (h : (afterQuery purpose result).holds = some resp) : result = .ok resp := by
  cases purpose <;> cases result <;> cases h <;> rfl

theorem inv_resume {s s' : Resolver} {i : Nat} (h : s.Inv transport)
    (hstep : s.resume i = some s') : s'.Inv transport := by
  unfold resume at hstep
  split at hstep
  case h_2 => cases hstep
  case h_1 msg purpose msg' result hi hq =>
    obtain ⟨net, hcollect, rfl⟩ := Option.map_eq_some_iff.mp hstep
    obtain ⟨phase, hq'⟩ := h.query i msg purpose hi
    -- the query that returned is the task's own, by the invariant
    obtain rfl : msg' = msg := by
      rw [hq] at hq'
      cases hq'
      rfl
    have hothers := (Net.collect_eq_some hcollect).2
    refine ⟨Net.inv_collect h.net hcollect, h.inflight, ?_, ?_, h.stored, h.broadcast⟩
    · intro j msg'' purpose' hj
      rcases tasks_move hj with ⟨-, -, hstage⟩ | ⟨hji, hj⟩
      · -- no stage after a query is a query
        cases purpose <;> cases result <;> cases hstage
      · obtain ⟨phase', hq''⟩ := h.query j msg'' purpose' hj
        exact ⟨phase', (hothers j hji).trans hq''⟩
    · intro j msg'' stage resp hj hresp
      rcases tasks_move hj with ⟨-, rfl, rfl⟩ | ⟨-, hj⟩
      · obtain rfl := holds_afterQuery hresp
        exact h.net.carries i msg'' resp hq
      · exact h.holds j msg'' stage resp hj hresp

theorem holds_afterStore {purpose : Purpose} {resp resp' : Bytes}
    (h : (afterStore purpose resp).holds = some resp') : resp' = resp := by
  cases purpose <;> (cases h; try rfl)

/-- A response is stored under the key of its own question, if it carries the question of the
    message. -/
theorem key_of_mem_set {msg resp : Bytes} (hcarries : Carries msg resp) {key : CacheKey}
    {resp' : Bytes} {ttl : Nat} (hmem : (key, resp', ttl) ∈ set transport msg resp) :
    cacheKey transport resp' = key := by
  unfold set at hmem
  split at hmem
  · simp only [List.mem_singleton, Prod.mk.injEq] at hmem
    obtain ⟨rfl, rfl, -⟩ := hmem
    exact cacheKey_eq_of_question_eq (congrArg Prod.snd hcarries) transport
  · cases hmem

theorem inv_store {s s' : Resolver} {i : Nat} (h : s.Inv transport)
    (hstep : s.store transport i = some s') : s'.Inv transport := by
  unfold store at hstep
  split at hstep
  case h_2 => cases hstep
  case h_1 msg purpose resp hi =>
    cases hstep
    have hcarries : Carries msg resp := h.holds i msg _ resp hi rfl
    have hstored : { s with stored := set transport msg resp ++ s.stored }.Inv transport := by
      refine ⟨h.net, h.inflight, h.query, h.holds, ?_, h.broadcast⟩
      intro key resp' ttl hmem
      rcases List.mem_append.mp hmem with hmem | hmem
      · exact key_of_mem_set hcarries hmem
      · exact h.stored key resp' ttl hmem
    -- the task goes on with the response it has just stored
    refine hstored.move ?_ ?_
    · intro purpose' hstage
      cases purpose <;> cases hstage
    · intro resp' hresp
      obtain rfl := holds_afterStore hresp
      exact hcarries

theorem inv_complete {s s' : Resolver} {i : Nat} (h : s.Inv transport)
    (hstep : s.complete transport i = some s') : s'.Inv transport := by
  unfold complete at hstep
  split at hstep
  case h_2 => cases hstep
  case h_1 msg result hi =>
    cases hstep
    refine Inv.move (h.inflight_of_sent (Inflight.inv_completeInflight h.inflight _ _) ?_)
      nofun nofun
    intro rx key resp hrx
    rcases Inflight.sent_completeInflight h.inflight hrx with hrx | ⟨rfl, hresp⟩
    · exact h.broadcast rx key resp hrx
    · -- The leader sends the response it has in hand.
      cases result with
      | error e => cases hresp
      | ok resp' =>
          cases hresp
          have hcarries : Carries msg resp := h.holds i msg _ resp hi rfl
          exact cacheKey_eq_of_question_eq (congrArg Prod.snd hcarries) transport

/-- **Every separate step** keeps the invariant: a task holds responses to its own message only, and what is stored or
    sent stands under its own key. -/
theorem inv_step {s s' : Resolver} {a : Action} (hstep : s.step transport addr a = some s')
    (hsep : s.Separate a) (h : s.Inv transport) : s'.Inv transport := by
  cases a with
  | handle i msg => exact inv_handle h hstep
  | direct i msg => exact inv_direct h hstep
  | lookup i j found => exact inv_lookup h hstep
  | lead i => exact inv_lead h hstep
  | recv i => exact inv_recv h hstep
  | upstream a => exact inv_upstream h (hsep a rfl) hstep
  | resume i => exact inv_resume h hstep
  | store i => exact inv_store h hstep
  | complete i => exact inv_complete h hstep

/-! ### Whole runs -/

/-- **Separate runs.** In every interleaving in which each query on the shared socket is sent while
    nothing with another transaction ID or question is under way on it, every query returns a
    message with its own transaction ID and question, and no key is given a response to another
    question. -/
theorem paired_of_separate (transport : Str) (addr : SocketAddr) (actions : List Action)
    (s : Resolver) (hrun : Transition.run (step transport addr) init actions = some s)
    (hsep : Transition.Guarded (step transport addr) Separate init actions) :
    s.Paired transport :=
  (Transition.invariant_of_run (fun _ _ _ => inv_step) hrun hsep inv_init).paired

/-- The query for the `A` records of a one-letter name, under the transaction ID `id`. -/
def letterQuery (id letter : UInt8) : Bytes :=
  [0, id, 1, 0, 0, 1, 0, 0, 0, 0, 0, 0, 1, letter, 0, 0, 1, 0, 1]

/-- The answer to it, with one record that lives for a minute. -/
def letterReply (id letter : UInt8) : Bytes :=
  [0, id, 0x81, 0x80, 0, 1, 0, 1, 0, 0, 0, 0, 1, letter, 0, 0, 1, 0, 1]
    ++ [0xC0, 0x0C, 0, 1, 0, 1, 0, 0, 0, 60, 0, 4, 192, 0, 2, letter]

/-- The address of the upstream in the runs below. -/
def upstreamAddr : SocketAddr := ⟨.v4 0x0A000001#32, 53⟩

/-- Two clients ask for `a` and a third for `b`.  The server answers `b` first, and the query for
    `a` is the one to receive the answer. -/
def crossedRun : List Action :=
  [.handle 0 (letterQuery 1 97), .handle 1 (letterQuery 2 98), .handle 2 (letterQuery 3 97),
    .lookup 0 0 .miss, .lookup 1 0 .miss, .lookup 2 0 .miss, .lead 0, .lead 1, .lead 2,
    .upstream (.getOrCreateUdpSocket 0), .upstream (.getOrCreateUdpSocket 1),
    .upstream (.fillSlot 0), .upstream (.fillSlot 1),
    .upstream (.sendTo 0), .upstream (.sendTo 1),
    .upstream (.reply 0 1 ⟨upstreamAddr, letterReply 2 98⟩), .upstream (.recvFrom 0),
    .resume 0, .store 0, .complete 0,
    .upstream (.reply 0 0 ⟨upstreamAddr, letterReply 1 97⟩), .upstream (.recvFrom 1)]

/-- The crossed run stores and broadcasts the answer for `b` under the key of `a`, and the query
    for `b` returns the answer for `a`. -/
theorem not_paired_crossed :
    ∃ s, Transition.run (step "udp".toList upstreamAddr) init crossedRun = some s ∧
      (∃ i msg resp, s.net.queries i = some ⟨msg, .done (.ok resp)⟩ ∧ ¬ Carries msg resp) ∧
      (∃ key resp ttl, (key, resp, ttl) ∈ s.stored ∧ cacheKey "udp".toList resp ≠ key) ∧
      ∃ rx key resp, s.inflight.channels rx = some ⟨key, .sent resp⟩ ∧
        cacheKey "udp".toList resp ≠ key := by
  have hquery :
      (Transition.run (step "udp".toList upstreamAddr) init crossedRun).map (·.net.queries 1) =
        some (some ⟨letterQuery 2 98, .done (.ok (letterReply 1 97))⟩) := by
    decide +kernel
  have hstored :
      (Transition.run (step "udp".toList upstreamAddr) init crossedRun).map (·.stored) =
        some [(cacheKey "udp".toList (letterQuery 1 97), letterReply 2 98, 60)] := by
    decide +kernel
  have hchannel :
      (Transition.run (step "udp".toList upstreamAddr) init crossedRun).map
          (·.inflight.channels 0) =
        some (some ⟨cacheKey "udp".toList (letterQuery 1 97), .sent (letterReply 2 98)⟩) := by
    decide +kernel
  have hkey :
      cacheKey "udp".toList (letterReply 2 98) ≠ cacheKey "udp".toList (letterQuery 1 97) := by
    decide +kernel
  have hcarries : ¬ Carries (letterQuery 2 98) (letterReply 1 97) := by decide
  obtain ⟨s, hrun, hs⟩ := Option.map_eq_some_iff.mp hstored
  rw [hrun] at hquery hchannel
  refine ⟨s, hrun, ⟨1, _, _, Option.some.inj hquery, hcarries⟩, ⟨_, _, 60, ?_, hkey⟩,
    0, _, _, Option.some.inj hchannel, hkey⟩
  rw [hs]
  exact List.mem_singleton_self _

/-- A client asks for `a` and misses the cache; another asks for `b`, for which there is a stale entry.  The query of
    the first and the refresh of the other are about to be sent on the socket they share. -/
def untilSend : List Action :=
  [.handle 0 (letterQuery 1 97), .lookup 0 0 .miss, .lead 0,
    .upstream (.getOrCreateUdpSocket 0), .upstream (.fillSlot 0),
    .handle 1 (letterQuery 2 98), .lookup 1 2 (.stale (letterReply 9 98)), .upstream (.getOrCreateUdpSocket 2)]

/-- The query for `a` is answered. -/
def untilAnswered : List Action :=
  [.upstream (.reply 0 0 ⟨upstreamAddr, letterReply 1 97⟩), .upstream (.recvFrom 0)]

/-- A third client waits for `a`.  The query for `b` is answered as well, and both answers are stored. -/
def untilStored : List Action :=
  [.handle 3 (letterQuery 3 97), .lookup 3 0 .miss, .lead 3, .resume 0,
    .upstream (.reply 0 0 ⟨upstreamAddr, letterReply 2 98⟩), .store 0, .upstream (.recvFrom 2),
    .complete 0, .recv 3, .resume 2, .store 2]

/-- The queries are sent in turn: that for `b` when the one for `a` has been answered. -/
def inTurn : List Action :=
  untilSend ++ .upstream (.sendTo 0) :: (untilAnswered ++ .upstream (.sendTo 2) :: untilStored)

theorem separate_of_ne_sendTo {s : Resolver} {a : Action} (h : ∀ i, a ≠ .upstream (.sendTo i)) :
    s.Separate a := by
  rintro b rfl i msg sock rfl
  exact absurd rfl (h i)

/-- A socket that nothing is owed on, that has nothing to read and that no query waits on has nothing under way. -/
theorem not_outstanding_of_idle {n : Net} {sock : Nat}
    (hwaits : ∀ i q, n.queries i = some q → q.phase.waitsOn ≠ some sock) (howed : n.owed sock = [])
    (hunread : n.unread sock = []) (x : Bytes × Question) : ¬ n.Outstanding sock x := by
  rintro (⟨i, msg, phase, hq, hphase, -⟩ | ⟨msg, hmsg, -⟩ | ⟨d, hd, -⟩)
  · exact hwaits i ⟨msg, phase⟩ hq hphase
  · rw [howed] at hmsg
    cases hmsg
  · rw [hunread] at hd
    cases hd

/-- A step inside the upstream is one of the net. -/
theorem net_of_upstream {s s' : Resolver} {a : Net.Action}
    (h : s.step transport addr (.upstream a) = some s') : s.net.step addr a = some s'.net := by
  rw [step, upstream] at h
  split_ifs at h
  obtain ⟨net, hnet, rfl⟩ := Option.map_eq_some_iff.mp h
  exact hnet

/-- When the only query under way on a socket has been answered, and has read the answer, the socket is idle. -/
theorem idle_of_answered {s s' s'' : Resolver} {i sock : Nat} {msg : Bytes} {d : Datagram}
    (hreply : s.step transport addr (.upstream (.reply sock 0 d)) = some s')
    (hrecv : s'.step transport addr (.upstream (.recvFrom i)) = some s'')
    (hquery : s.net.queries i = some ⟨msg, .recv sock⟩) (howed : s.net.owed sock = [msg])
    (hunread : s.net.unread sock = [])
    (hothers : ∀ j q, j ≠ i → s.net.queries j = some q → q.phase.waitsOn ≠ some sock) :
    (∀ j, j ≠ i → s''.net.queries j = s.net.queries j) ∧ ∀ x, ¬ s''.net.Outstanding sock x := by
  replace hreply := net_of_upstream hreply
  replace hrecv := net_of_upstream hrecv
  generalize s.net = n at *
  generalize s'.net = n' at *
  generalize s''.net = n'' at *
  rw [Net.step, Net.reply, howed] at hreply
  dsimp only [List.getElem?_cons_zero] at hreply
  split_ifs at hreply
  obtain rfl := Option.some.inj hreply
  have hread : Function.update n.unread sock (n.unread sock ++ [d]) sock = [d] := by
    rw [Function.update_self, hunread, List.nil_append]
  simp only [Net.step, Net.recvFrom, hquery, hread] at hrecv
  obtain rfl := Option.some.inj hrecv
  have hframe (j : Nat) (hj : j ≠ i) (phase : Phase) :
      Function.update n.queries i (some ⟨msg, phase⟩) j = n.queries j := Function.update_of_ne hj _ _
  refine ⟨fun j hj => hframe j hj _, not_outstanding_of_idle (fun j q hq => ?_) ?_ (Function.update_self ..)⟩
  · by_cases hj : j = i
    · -- the query has left `recv_from`
      subst hj
      obtain rfl := Option.some.inj ((Function.update_self j _ n.queries).symm.trans hq)
      dsimp only
      split_ifs
      all_goals
        intro hwaits
        cases hwaits
    · exact hothers j q hj ((hframe j hj _).symm.trans hq)
  · exact Function.update_self ..

/-- In turn, nothing is under way when a query is sent. -/
theorem guarded_inTurn : Transition.Guarded (step "udp".toList upstreamAddr) Separate init inTurn := by
  have hquiet : ∀ a ∈ untilSend ++ (untilAnswered ++ untilStored), ∀ s : Resolver, s.Separate a := by
    intro a ha s
    apply separate_of_ne_sendTo
    rintro i rfl
    revert ha
    simp [untilSend, untilAnswered, untilStored]
  simp only [List.forall_mem_append] at hquiet
  obtain ⟨huntilSend, huntilAnswered, huntilStored⟩ := hquiet
  refine Transition.guarded_append (Transition.guarded_of_forall huntilSend init) ?_
  rintro _ ⟨⟩
  refine ⟨?_, fun t ht => Transition.guarded_append (Transition.guarded_of_forall huntilAnswered t) ?_⟩
  · rintro _ ⟨⟩ i msg sock ⟨⟩ ⟨⟩ x hx
    exact absurd hx (not_outstanding_of_idle (fun
      | 0, q, hq => by cases hq; nofun
      | 1, q, hq => by cases hq
      | 2, q, hq => by cases hq; nofun
      | j + 3, q, hq => by cases hq) rfl rfl x)
  · obtain rfl := Option.some.inj ht
    intro u hu
    obtain ⟨v, hreply, hrest⟩ := Option.bind_eq_some_iff.mp hu
    obtain ⟨w, hrecv, hend⟩ := Option.bind_eq_some_iff.mp hrest
    obtain rfl := Option.some.inj hend
    obtain ⟨hframe, hidle⟩ := idle_of_answered hreply hrecv rfl rfl rfl fun
      | 0, q, hj, hq => absurd rfl hj
      | 1, q, _, hq => by cases hq
      | 2, q, _, hq => by cases hq; nofun
      | j + 3, q, _, hq => by cases hq
    refine ⟨?_, fun u _ => Transition.guarded_of_forall huntilStored u⟩
    rintro _ ⟨⟩ i msg sock ⟨⟩ hq x hx
    -- the second query has the same socket
    cases (hframe 2 (by decide)).symm.trans hq
    exact absurd hx (hidle x)

theorem paired_of_separate_inTurn :
    ∃ s, Transition.run (step "udp".toList upstreamAddr) init inTurn = some s ∧
      s.stored = [(cacheKey "udp".toList (letterQuery 2 98), letterReply 2 98, 60),
        (cacheKey "udp".toList (letterQuery 1 97), letterReply 1 97, 60)] ∧
      s.Paired "udp".toList := by
  have hstored :
      (Transition.run (step "udp".toList upstreamAddr) init inTurn).map (·.stored) =
        some [(cacheKey "udp".toList (letterQuery 2 98), letterReply 2 98, 60),
          (cacheKey "udp".toList (letterQuery 1 97), letterReply 1 97, 60)] := by
    decide +kernel
  obtain ⟨s, hrun, hs⟩ := Option.map_eq_some_iff.mp hstored
  exact ⟨s, hrun, hs, paired_of_separate _ _ _ s hrun guarded_inTurn⟩

end Resolver

end Reflex.Dns
