import Reflex.Dns.Dedup
import Reflex.Dns.FakeIpFile

namespace Reflex.Dns

open RustStd

/-!
# DNS — FakeIP answers in the cache

`handle` over a FakeIP upstream.  The store recycles its addresses, and the cache keeps the answers
it has given: an address may be taken away while an answer that carries it can still be served.

* `carried` — the name and the address in a FakeIP response, `carried_reply`;
* `Handler.Outstanding` — the responses a call can still be answered with;
* `CleanStart` — what the store and the cache file may bring along from earlier processes;
* `Undisturbed` — no step takes away an address that is still outstanding, or serves an answer to
  another spelling of its name;
* `undisturbed_of_quiet` — it suffices that no step takes away an address at all;
* `faithful_of_undisturbed` — in every run of undisturbed steps each address is returned while it
  stands for the name asked for;
* `not_faithful_recycled` — three names and a range of four addresses suffice to break it, and so does
  a restart that loses the tables of the store and keeps the responses.
-/

/-! ### What a response carries -/

/-- The last `n` bytes. -/
def lastBytes (n : Nat) (bs : Bytes) : Bytes := bs.drop (bs.length - n)

/-- The name a FakeIP response was made for and the address in the record at its end. -/
def carried (resp : Bytes) : Option (Str × IpAddr) :=
  if beAt resp 6 2 = 1 then
    match extractQname resp, extractQtype resp with
    | some domain, some qtype =>
        if qtype = 1 then some (domain, .v4 (.ofOctets (lastBytes 4 (resp.drop 12))))
        else if qtype = 28 then some (domain, .v6 (.ofOctets (lastBytes 16 (resp.drop 12))))
        else none
    | _, _ => none
  else none

/-- A message with one question, asked for in `query`, and `tail` behind it. -/
theorem extract_of_question {query head : Bytes} (tail : Bytes) {domain : Str} {qtype : UInt16}
    (hhead : head.length = 12) (hqname : extractQname query = some domain)
    (hqtype : extractQtype query = some qtype) :
    extractQname (head ++ query.drop 12 ++ tail) = some domain ∧
      extractQtype (head ++ query.drop 12 ++ tail) = some qtype := by
  have hdrop : (head ++ query.drop 12 ++ tail).drop 12 = query.drop 12 ++ tail := by
    rw [List.append_assoc, List.drop_append_of_le_length (by omega),
      List.drop_eq_nil_of_le (by omega), List.nil_append]
  constructor
  · rw [extractQname_eq] at hqname ⊢
    obtain ⟨labels, hlabels, hsome⟩ := Option.bind_eq_some_iff.mp hqname
    rw [hdrop, qnameLabels_append hlabels]
    exact hsome
  · unfold extractQtype at hqtype ⊢
    split at hqtype
    · cases hqtype
    · rename_i hlong
      have hlong' : ¬ (head ++ query.drop 12 ++ tail).length < 13 := by
        simp only [List.length_append, List.length_drop]
        omega
      split at hqtype
      · rename_i hi lo rest hafter
        rw [if_neg hlong', hdrop, afterQname_append hafter]
        exact hqtype
      · cases hqtype

/-- The record at the end of a response with an address is read back. -/
theorem carried_buildIpResponse {query rdata : Bytes} {domain : Str} {qtype : UInt16} {rtype : Nat}
    (hqname : extractQname query = some domain) (hqtype : extractQtype query = some qtype) :
    carried (buildIpResponse query rtype rdata) =
      if qtype = 1 then
        some (domain, .v4 (.ofOctets (lastBytes 4 ((buildIpResponse query rtype rdata).drop 12))))
      else if qtype = 28 then
        some (domain, .v6 (.ofOctets (lastBytes 16 ((buildIpResponse query rtype rdata).drop 12))))
      else none := by
  have hlong : ¬ query.length < 12 := by
    intro hshort
    rw [extractQname, if_pos (by omega)] at hqname
    cases hqname
  obtain ⟨a, b, query', rfl⟩ : ∃ a b query', query = a :: b :: query' := by
    match query, hlong with
    | a :: b :: query', _ => exact ⟨a, b, query', rfl⟩
    | [_], h => simp at h
    | [], h => simp at h
  have hform : ∃ tail, buildIpResponse (a :: b :: query') rtype rdata
      = [a, b, 0x81, 0x80, 0, 1, 0, 1, 0, 0, 0, 0] ++ (a :: b :: query').drop 12 ++ tail := by
    refine ⟨[0xC0, 0x0C] ++ beBytes 2 rtype ++ [0x00, 0x01] ++ beBytes 4 1
      ++ beBytes 2 rdata.length ++ rdata, ?_⟩
    rw [buildIpResponse, if_neg hlong]
    simp
  obtain ⟨tail, htail⟩ := hform
  have hhead : [a, b, 0x81, 0x80, 0, 1, 0, 1, 0, 0, 0, 0].length = 12 := rfl
  have hextract := extract_of_question tail hhead hqname hqtype
  rw [← htail] at hextract
  have hcount : beAt (buildIpResponse (a :: b :: query') rtype rdata) 6 2 = 1 := by
    rw [htail]
    rfl
  rw [carried, if_pos hcount, hextract.1, hextract.2]

theorem lastBytes_buildIpResponse {query : Bytes} (h : ¬ query.length < 12) (rtype : Nat)
    (rdata : Bytes) :
    lastBytes rdata.length ((buildIpResponse query rtype rdata).drop 12) = rdata := by
  rw [buildIpResponse, if_neg h, List.drop_append_of_le_length (by simp; omega), lastBytes,
    List.length_append, Nat.add_sub_cancel, List.drop_left]

/-- An answer with an address is for the name of the query, in the family of its type. -/
theorem FakeIpStore.answer_address {store store' : FakeIpStore} {query : Bytes} {domain : Str}
    {addr : IpAddr} (h : store.answer query = (store', .address domain addr)) :
    extractQname query = some domain ∧
      ((extractQtype query = some 1 ∧ ∃ ip, addr = .v4 ip) ∨
        (extractQtype query = some 28 ∧ ∃ ip, addr = .v6 ip)) := by
  unfold answer at h
  split at h
  · simp at h
  · rename_i qtype hqtype
    split at h
    · simp at h
    · rename_i hfamily
      split at h
      · simp at h
      · rename_i qname hqname
        split at h
        · simp at h
        · split at h
          · rename_i hone
            -- a query for A: the only branch with an address gives one of IPv4
            subst hone
            split at h
            · simp at h
            · split at h
              · obtain ⟨-, rfl, rfl⟩ : _ ∧ qname = domain ∧ IpAddr.v4 _ = addr := by simpa using h
                exact ⟨hqname, .inl ⟨hqtype, _, rfl⟩⟩
              · simp at h
          · -- of the types that are let through, only AAAA is left
            rename_i hone
            split at h
            · simp at h
            · split at h
              · obtain ⟨-, rfl, rfl⟩ : _ ∧ qname = domain ∧ IpAddr.v6 _ = addr := by simpa using h
                have hqtype28 : qtype = 28 := by
                  by_contra hne
                  exact hfamily ⟨hone, hne⟩
                exact ⟨hqname, .inr ⟨hqtype28 ▸ hqtype, _, rfl⟩⟩
              · simp at h

theorem carried_emptyReply (flags rcode : UInt8) (query : Bytes) :
    carried (emptyReply flags rcode query) = none := by
  have hcount : beAt (emptyReply flags rcode query) 6 2 = 0 := by
    unfold emptyReply
    split
    · match query with
      | a :: b :: query' => rfl
      | [_] => simp at *
      | [] => simp at *
    · rfl
  rw [carried, if_neg (by rw [hcount]; decide)]

/-- **What a reply carries** is what the store decided. -/
theorem carried_reply {store store' : FakeIpStore} {query : Bytes} {answer : Answer} {domain : Str}
    {addr : IpAddr} (h : store.answer query = (store', answer)) :
    carried (answer.toBytes query) = some (domain, addr) ↔ answer = .address domain addr := by
  cases answer with
  | noerrorEmpty =>
    rw [Answer.toBytes, makeNoerrorEmpty, carried_emptyReply]
    simp
  | nxdomain =>
    rw [Answer.toBytes, makeNxdomain, carried_emptyReply]
    simp
  | address d a =>
    obtain ⟨hqname, hfamily⟩ := FakeIpStore.answer_address h
    have hlong : ¬ query.length < 12 := by
      intro hshort
      rw [extractQname, if_pos (by omega)] at hqname
      cases hqname
    rcases hfamily with ⟨hqtype, ip, rfl⟩ | ⟨hqtype, ip, rfl⟩
    · have hdata := lastBytes_buildIpResponse hlong 1 ip.octets
      rw [Ipv4Addr.length_octets] at hdata
      rw [Answer.toBytes, carried_buildIpResponse hqname hqtype, if_pos rfl, hdata,
        Ipv4Addr.ofOctets_octets]
      simp
    · have hdata := lastBytes_buildIpResponse hlong 28 ip.octets
      rw [Ipv6Addr.length_octets] at hdata
      rw [Answer.toBytes, carried_buildIpResponse hqname hqtype, if_neg (by decide), if_pos rfl,
        hdata, Ipv6Addr.ofOctets_octets]
      simp

/-- Another transaction ID does not change what a response carries. -/
theorem carried_patchId (resp query : Bytes) : carried (patchId resp query) = carried resp := by
  unfold patchId
  split
  · rename_i hlen
    obtain ⟨hresp, hquery⟩ := hlen
    match resp, query, hresp, hquery with
    | a :: b :: resp, a' :: b' :: query, _, _ =>
      show carried (a' :: b' :: resp) = carried (a :: b :: resp)
      have hcount : beAt (a' :: b' :: resp) 6 2 = beAt (a :: b :: resp) 6 2 := rfl
      have hqname : extractQname (a' :: b' :: resp) = extractQname (a :: b :: resp) := rfl
      have hqtype : extractQtype (a' :: b' :: resp) = extractQtype (a :: b :: resp) := rfl
      have hbody : (a' :: b' :: resp).drop 12 = (a :: b :: resp).drop 12 := rfl
      rw [carried, carried, hcount, hqname, hqtype, hbody]
  · rfl

/-! ### Outstanding responses -/

/-- Is an entry of the memory that expires at `expires` still served? -/
def CacheConfig.Serves (cfg : CacheConfig) (now expires : Nat) : Prop :=
  now < expires ∨ ∃ opt, cfg.optimisticTtl = some opt ∧ now < expires + opt

/-- Is an entry of the cache file still served? -/
def CacheConfig.ServesDisk (cfg : CacheConfig) (nowSecs expireAt : Nat) : Prop :=
  nowSecs < expireAt ∨
    ∃ opt, cfg.optimisticTtl = some opt ∧ (nowSecs - expireAt) * second < opt

/-- The cache may still serve `resp` for `key`. -/
inductive DnsCache.Outstanding (cfg : CacheConfig) (c : DnsCache) (now nowSecs : Nat)
    (key : CacheKey) : Bytes → Prop
  | memory (entry : CacheEntry) (hentry : c.memory key = some entry)
      (hserves : cfg.Serves now entry.expires) : Outstanding cfg c now nowSecs key entry.resp
  | disk (resp : Bytes) (expireAt : Nat) (hdisk : c.disk key = some (resp, expireAt))
      (hserves : cfg.ServesDisk nowSecs expireAt) : Outstanding cfg c now nowSecs key resp
  | save (resp : Bytes) (expireAt : Nat) (hsave : (key, resp, expireAt) ∈ c.saves)
      (hserves : cfg.ServesDisk nowSecs expireAt) : Outstanding cfg c now nowSecs key resp

/-- The response `get` found. -/
def CacheResult.found : CacheResult → Option Bytes
  | .hit resp | .stale resp => some resp
  | .miss => none

namespace DnsCache

variable {cfg : CacheConfig} {c : DnsCache} {now nowSecs : Nat} {key : CacheKey} {resp : Bytes}

/-- What the memory holds after an insertion, it held before, or it is what was inserted. -/
theorem outstanding_insertMemory {key' : CacheKey} {resp' : Bytes} {ttl : Nat}
    (h : (c.insertMemory now key' resp' ttl).Outstanding cfg now nowSecs key resp) :
    c.Outstanding cfg now nowSecs key resp ∨ (key = key' ∧ resp = resp') := by
  cases h with
  | memory entry hentry hserves =>
    rcases Transition.update_eq_some hentry with ⟨rfl, rfl⟩ | ⟨-, hold⟩
    · exact .inr ⟨rfl, rfl⟩
    · exact .inl (.memory entry hold hserves)
  | disk _ expireAt hdisk hserves => exact .inl (.disk _ expireAt hdisk hserves)
  | save _ expireAt hsave hserves => exact .inl (.save _ expireAt hsave hserves)

theorem outstanding_evict {key' : CacheKey}
    (h : (c.evict key').Outstanding cfg now nowSecs key resp) :
    c.Outstanding cfg now nowSecs key resp := by
  cases h with
  | memory entry hentry hserves =>
    exact .memory entry (Transition.update_none_eq_some hentry).2 hserves
  | disk _ expireAt hdisk hserves => exact .disk _ expireAt hdisk hserves
  | save _ expireAt hsave hserves => exact .save _ expireAt hsave hserves

theorem outstanding_purge {key' : CacheKey}
    (h : (c.purge key').Outstanding cfg now nowSecs key resp) :
    c.Outstanding cfg now nowSecs key resp := by
  cases h with
  | memory entry hentry hserves => exact .memory entry hentry hserves
  | disk _ expireAt hdisk hserves =>
    exact .disk _ expireAt (Transition.update_none_eq_some hdisk).2 hserves
  | save _ expireAt hsave hserves => exact .save _ expireAt hsave hserves

theorem outstanding_flush {ok : Bool} (h : (c.flush ok).Outstanding cfg now nowSecs key resp) :
    c.Outstanding cfg now nowSecs key resp := by
  unfold flush at h
  split at h
  · exact h
  · rename_i key' resp' expireAt' saves hsaves
    split at h
    · cases h with
      | memory entry hentry hserves => exact .memory entry hentry hserves
      | disk _ expireAt hdisk hserves =>
        rcases Transition.update_eq_some hdisk with ⟨rfl, heq⟩ | ⟨-, hold⟩
        · cases heq
          exact .save _ _ (by rw [hsaves]; simp) hserves
        · exact .disk _ expireAt hold hserves
      | save _ expireAt hsave hserves =>
        exact .save _ expireAt (by rw [hsaves]; exact List.mem_cons_of_mem _ hsave) hserves
    · cases h with
      | memory entry hentry hserves => exact .memory entry hentry hserves
      | disk _ expireAt hdisk hserves => exact .disk _ expireAt hdisk hserves
      | save _ expireAt hsave hserves =>
        exact .save _ expireAt (by rw [hsaves]; exact List.mem_cons_of_mem _ hsave) hserves

/-- What can be served after a `set`, could be served before, or it is the response under its key. -/
theorem outstanding_set {key' : CacheKey} {resp' : Bytes} {ttl : Nat}
    (h : (c.set cfg now nowSecs key' resp' ttl).Outstanding cfg now nowSecs key resp) :
    c.Outstanding cfg now nowSecs key resp ∨ (key = key' ∧ resp = resp') := by
  unfold set at h
  simp only at h
  split at h
  · cases h with
    | memory entry hentry hserves =>
      exact outstanding_insertMemory (.memory entry hentry hserves)
    | disk _ expireAt hdisk hserves => exact .inl (.disk _ expireAt hdisk hserves)
    | save _ expireAt hsave hserves =>
      rcases List.mem_append.mp hsave with hold | hnew
      · exact .inl (.save _ expireAt hold hserves)
      · simp only [List.mem_singleton, Prod.mk.injEq] at hnew
        exact .inr ⟨hnew.1, hnew.2.1⟩
  · exact outstanding_insertMemory h

/-- The cache file serves what is outstanding, and brings nothing new into the memory. -/
theorem outstanding_getDisk {result : CacheResult} {c' : DnsCache}
    (h : c.getDisk cfg now nowSecs key = (result, c')) :
    (∀ resp, result.found = some resp → c.Outstanding cfg now nowSecs key resp) ∧
      ∀ key' resp, c'.Outstanding cfg now nowSecs key' resp →
        c.Outstanding cfg now nowSecs key' resp := by
  unfold getDisk at h
  split at h
  · cases h
    exact ⟨fun resp hfound => (nomatch hfound), fun _ _ hout => hout⟩
  · rename_i raw expireAt hraw
    have hdisk : c.disk key = some (raw, expireAt) := by
      split at hraw
      · exact hraw
      · cases hraw
    split at h
    · rename_i hlive
      cases h
      have hout : c.Outstanding cfg now nowSecs key raw := .disk raw expireAt hdisk (.inl hlive)
      refine ⟨fun resp hfound => ?_, fun key' resp hresp => ?_⟩
      · cases hfound
        exact hout
      · rcases outstanding_insertMemory hresp with hold | ⟨rfl, rfl⟩
        · exact hold
        · exact hout
    · split at h
      · rename_i hstale
        cases h
        refine ⟨fun resp hfound => ?_, fun _ _ hout => hout⟩
        cases hfound
        obtain ⟨opt, hopt, hlt⟩ := (Option.any_eq_true _ _).mp hstale
        exact .disk raw expireAt hdisk (.inr ⟨opt, hopt, of_decide_eq_true hlt⟩)
      · cases h
        exact ⟨fun resp hfound => (nomatch hfound), fun _ _ hout => hout⟩

/-- **What `get` serves** is outstanding, and nothing becomes so. -/
theorem outstanding_get {result : CacheResult} {c' : DnsCache}
    (h : c.get cfg now nowSecs key = (result, c')) :
    (∀ resp, result.found = some resp → c.Outstanding cfg now nowSecs key resp) ∧
      ∀ key' resp, c'.Outstanding cfg now nowSecs key' resp →
        c.Outstanding cfg now nowSecs key' resp := by
  unfold get at h
  split at h
  · exact outstanding_getDisk h
  · rename_i entry hentry
    split at h
    · rename_i hlive
      cases h
      refine ⟨fun resp hfound => ?_, fun _ _ hout => hout⟩
      cases hfound
      exact .memory entry hentry (.inl hlive)
    · split at h
      · rename_i hstale
        cases h
        refine ⟨fun resp hfound => ?_, fun _ _ hout => hout⟩
        cases hfound
        obtain ⟨opt, hopt, hlt⟩ := (Option.any_eq_true _ _).mp hstale
        exact .memory entry hentry (.inr ⟨opt, hopt, of_decide_eq_true hlt⟩)
      · -- the entry is dropped, and the cache file is asked
        obtain ⟨hfound, hout⟩ := outstanding_getDisk h
        exact ⟨fun resp hresp => outstanding_evict (hfound resp hresp),
          fun key' resp hresp => outstanding_evict (hout key' resp hresp)⟩

/-- What is outstanding later is outstanding now. -/
theorem outstanding_earlier {now' nowSecs' : Nat} (hnow : now ≤ now') (hsecs : nowSecs ≤ nowSecs')
    (h : c.Outstanding cfg now' nowSecs' key resp) : c.Outstanding cfg now nowSecs key resp := by
  have hdisk : ∀ expireAt, cfg.ServesDisk nowSecs' expireAt → cfg.ServesDisk nowSecs expireAt := by
    rintro expireAt (hlt | ⟨opt, hopt, hlt⟩)
    · exact .inl (by omega)
    · refine .inr ⟨opt, hopt, lt_of_le_of_lt ?_ hlt⟩
      exact Nat.mul_le_mul_right _ (by omega)
  cases h with
  | memory entry hentry hserves =>
    refine .memory entry hentry ?_
    rcases hserves with hlt | ⟨opt, hopt, hlt⟩
    · exact .inl (by omega)
    · exact .inr ⟨opt, hopt, by omega⟩
  | disk _ expireAt hentry hserves => exact .disk _ expireAt hentry (hdisk expireAt hserves)
  | save _ expireAt hsave hserves => exact .save _ expireAt hsave (hdisk expireAt hserves)

end DnsCache

namespace Handler

variable {υ ι : Type}

/-- The response a call has in hand. -/
def Stage.holds : Stage → Option Bytes
  | .store _ resp => some resp
  | .complete result | .send _ result => result
  | _ => none

/-- A call has yet to publish `resp` for `key`. -/
def Held (s : Handler υ) (key : CacheKey) (resp : Bytes) : Prop :=
  ∃ i call, s.calls i = some call ∧ call.stage.holds = some resp ∧ call.key = key

/-- A waiter has yet to receive `resp` for `key`. -/
def Unread (s : Handler υ) (key : CacheKey) (resp : Bytes) : Prop :=
  ∃ i call rx, s.calls i = some call ∧ call.stage = .wait rx ∧
    s.inflight.channels rx = some ⟨key, .sent resp⟩

/-- A call for `key` can still be answered with `resp`. -/
def Outstanding (cfg : Setup υ ι) (s : Handler υ) (key : CacheKey) (resp : Bytes) : Prop :=
  s.cache.Outstanding cfg.cache s.now (s.unixNow cfg) key resp ∨ s.Held key resp ∨
    s.Unread key resp

/-- The cached or broadcast response that a step is about to return, and the call it is for. -/
def offers (cfg : Setup υ ι) (s : Handler υ) : Action ι → Option (Call × Bytes)
  | .lookup i _ => do
      let call ← s.calls i
      let resp ← (s.cache.get cfg.cache s.now (s.unixNow cfg) call.key).1.found
      return (call, resp)
  | .recv i => do
      let call ← s.calls i
      match call.stage with
      | .wait rx =>
          match s.inflight.channels rx with
          | some ⟨_, .sent resp⟩ => return (call, resp)
          | _ => none
      | _ => none
  | _ => none

end Handler

/-! ### The system over a FakeIP upstream -/

/-- The upstream with the given tag is a FakeIP store; the others answer what they are told. -/
def fakeSetup (cache : CacheConfig) (epoch : Nat) (tag : Str) :
    Setup FakeIpStore (Option Bytes) where
  cache := cache
  epoch := epoch
  query := fun store transport msg other =>
    if transport = tag then ((store.reply msg).1, some (store.reply msg).2) else (store, other)

namespace Handler

/-- The name and the address that a step is about to have the store answer with. -/
def allocates (tag : Str) (s : Handler FakeIpStore) : Action (Option Bytes) → Option (Str × IpAddr)
  | .respond i _ => do
      let call ← s.calls i
      if call.transport = tag then
        match (s.up.answer call.msg).2 with
        | .address domain addr => return (domain, addr)
        | _ => none
      else none
  | _ => none

/-- **Undisturbed steps.** The store hands out no address that an outstanding response carries for
    another name, and no response is served to another spelling of its name. -/
structure Undisturbed (cfg : Setup FakeIpStore (Option Bytes)) (tag : Str)
    (s : Handler FakeIpStore) (a : Action (Option Bytes)) : Prop where
  kept : ∀ domain addr, s.allocates tag a = some (domain, addr) → ∀ key resp domain',
    s.Outstanding cfg key resp → key.transport = tag → carried resp = some (domain', addr) →
      domain' = domain
  spelled : ∀ call resp domain addr, s.offers cfg a = some (call, resp) → call.transport = tag →
    carried resp = some (domain, addr) → extractQname call.msg = some domain

/-- The state in which a process starts: the cache file may hold responses. -/
def boot (store : FakeIpStore) (disk : CacheKey → Option (Bytes × Nat)) : Handler FakeIpStore :=
  { init store with cache := { DnsCache.init with disk } }

/-- **A clean start.** The tables of the store are inverse, which they are when it is new and when it is
    rebuilt from a file of earlier processes (`FakeIpStore.inverse_new`, `Deployment.boot_spec`).  A
    response of the cache file that can still be served stands for the address that it carries. -/
structure CleanStart (cfg : Setup FakeIpStore (Option Bytes)) (tag : Str) (store : FakeIpStore)
    (disk : CacheKey → Option (Bytes × Nat)) : Prop where
  inverse : store.inner.Inverse
  current : ∀ key resp expireAt domain addr, disk key = some (resp, expireAt) →
    cfg.cache.ServesDisk cfg.epoch expireAt → key.transport = tag →
      carried resp = some (domain, addr) → store.lookup addr = some domain

/-- A response to a call, at the moment it is returned: the address in it stands for the name the
    client asked for. -/
def FaithfulReply (tag : Str) (call : Call) (resp : Bytes) (store : FakeIpStore) : Prop :=
  call.transport = tag → ∀ domain addr, carried resp = some (domain, addr) →
    store.lookup addr = extractQname call.msg

/-- Every response so far was faithful when it was returned. -/
def Faithful (tag : Str) (s : Handler FakeIpStore) : Prop :=
  ∀ call resp store, (call, resp, store) ∈ s.returned → FaithfulReply tag call resp store

/-- The invariant of undisturbed runs: the store knows every address that may still be served for its server, by the
    name that was asked for. -/
structure Coherent (cfg : Setup FakeIpStore (Option Bytes)) (tag : Str)
    (s : Handler FakeIpStore) : Prop where
  inverse : s.up.inner.Inverse
  current : ∀ key resp domain addr, s.Outstanding cfg key resp → key.transport = tag →
    carried resp = some (domain, addr) → s.up.lookup addr = some domain
  named : ∀ i call resp domain addr, s.calls i = some call → call.stage.holds = some resp →
    call.transport = tag → carried resp = some (domain, addr) →
      extractQname call.msg = some domain
  faithful : s.Faithful tag

end Handler

namespace Handler

variable {cfg : Setup FakeIpStore (Option Bytes)} {tag : Str} {s s' : Handler FakeIpStore}

/-! ### Frames -/

/-- A call moves: what is outstanding was so before, or the call has it in hand, or waits for it. -/
theorem outstanding_move {i : Nat} {call : Call} {stage : Stage} {key : CacheKey} {resp : Bytes}
    (h : (s.move i call stage).Outstanding cfg key resp) :
    s.Outstanding cfg key resp ∨ (call.key = key ∧ stage.holds = some resp) ∨
      ∃ rx, stage = .wait rx ∧ s.inflight.channels rx = some ⟨key, .sent resp⟩ := by
  rcases h with hcached | ⟨j, c, hj, hholds, hkey⟩ | ⟨j, c, rx, hj, hwait, hsent⟩
  · exact .inl (.inl hcached)
  · rcases Transition.update_eq_some hj with ⟨rfl, rfl⟩ | ⟨-, hj⟩
    · exact .inr (.inl ⟨hkey, hholds⟩)
    · exact .inl (.inr (.inl ⟨j, c, hj, hholds, hkey⟩))
  · rcases Transition.update_eq_some hj with ⟨rfl, rfl⟩ | ⟨-, hj⟩
    · exact .inr (.inr ⟨rx, hwait, hsent⟩)
    · exact .inl (.inr (.inr ⟨j, c, rx, hj, hwait, hsent⟩))

/-- A call goes on to a stage whose own conditions hold. -/
theorem Coherent.move (h : s.Coherent cfg tag) {i : Nat} {call : Call} {stage : Stage}
    (hholds : ∀ resp domain addr, stage.holds = some resp → call.transport = tag →
      carried resp = some (domain, addr) →
        s.up.lookup addr = some domain ∧ extractQname call.msg = some domain)
    (hwait : ∀ rx key resp, stage = .wait rx →
      s.inflight.channels rx ≠ some ⟨key, .sent resp⟩) : (s.move i call stage).Coherent cfg tag := by
  refine ⟨h.inverse, ?_, ?_, h.faithful⟩
  · intro key resp domain addr hout htag hcarried
    rcases outstanding_move hout with hold | ⟨rfl, hstage⟩ | ⟨rx, hstage, hsent⟩
    · exact h.current key resp domain addr hold htag hcarried
    · exact (hholds resp domain addr hstage htag hcarried).1
    · exact absurd hsent (hwait rx key resp hstage)
  · intro j c resp domain addr hj hc htag hcarried
    rcases Transition.update_eq_some hj with ⟨rfl, rfl⟩ | ⟨-, hj⟩
    · exact (hholds resp domain addr hc htag hcarried).2
    · exact h.named j c resp domain addr hj hc htag hcarried

/-- A call goes on to a stage with no response in hand. -/
theorem Coherent.move_empty (h : s.Coherent cfg tag) {i : Nat} {call : Call} {stage : Stage}
    (hholds : stage.holds = none) (hwait : ∀ rx, stage ≠ .wait rx) :
    (s.move i call stage).Coherent cfg tag := by
  refine h.move ?_ ?_
  · intro resp domain addr hstage
    rw [hholds] at hstage
    cases hstage
  · intro rx key resp hstage
    exact absurd hstage (hwait rx)

/-- `handle` returns a faithful response, or an error. -/
theorem Coherent.finish (h : s.Coherent cfg tag) {i : Nat} {call : Call} {result : Option Bytes}
    (hresult : ∀ resp, result = some resp → FaithfulReply tag call resp s.up) :
    (s.finish i call result).Coherent cfg tag := by
  have hmove : (s.move i call (.done result)).Coherent cfg tag := h.move_empty rfl (by simp)
  cases result with
  | none => exact hmove
  | some resp =>
    refine ⟨hmove.inverse, hmove.current, hmove.named, ?_⟩
    intro c r store hmem
    rcases List.mem_cons.mp hmem with heq | hold
    · cases heq
      exact hresult resp rfl
    · exact h.faithful c r store hold

/-- The cache changes, and may only serve what was outstanding. -/
theorem Coherent.cache (h : s.Coherent cfg tag) {cache : DnsCache}
    (hcache : ∀ key resp, cache.Outstanding cfg.cache s.now (s.unixNow cfg) key resp →
      s.Outstanding cfg key resp) : ({ s with cache } : Handler FakeIpStore).Coherent cfg tag := by
  refine ⟨h.inverse, ?_, h.named, h.faithful⟩
  intro key resp domain addr hout
  refine h.current key resp domain addr ?_
  rcases hout with hcached | hheld
  · exact hcache key resp hcached
  · exact .inr hheld

/-- The in-flight table changes, and a waiter may only be sent what was outstanding. -/
theorem Coherent.inflight (h : s.Coherent cfg tag) {inflight : Inflight}
    {leaderOf : Nat → Option Nat}
    (hsent : ∀ rx key resp, inflight.channels rx = some ⟨key, .sent resp⟩ →
      s.inflight.channels rx = some ⟨key, .sent resp⟩ ∨ s.Outstanding cfg key resp) :
    ({ s with inflight, leaderOf } : Handler FakeIpStore).Coherent cfg tag := by
  refine ⟨h.inverse, ?_, h.named, h.faithful⟩
  intro key resp domain addr hout
  refine h.current key resp domain addr ?_
  rcases hout with hcached | hheld | ⟨j, c, rx, hj, hwait, hrx⟩
  · exact .inl hcached
  · exact .inr (.inl hheld)
  · rcases hsent rx key resp hrx with hold | hold
    · exact .inr (.inr ⟨j, c, rx, hj, hwait, hold⟩)
    · exact hold

/-- The store answers, and every outstanding response stays current. -/
theorem Coherent.upstream (h : s.Coherent cfg tag) {up : FakeIpStore} (hinverse : up.inner.Inverse)
    (hcurrent : ∀ key resp domain addr, s.Outstanding cfg key resp → key.transport = tag →
      carried resp = some (domain, addr) → up.lookup addr = some domain) :
    ({ s with up } : Handler FakeIpStore).Coherent cfg tag :=
  ⟨hinverse, hcurrent, h.named, h.faithful⟩

theorem coherent_spawn (h : s.Coherent cfg tag) {i : Nat} {call : Call}
    (hholds : call.stage.holds = none) (hwait : ∀ rx, call.stage ≠ .wait rx)
    (hstep : s.spawn i call = some s') : s'.Coherent cfg tag := by
  obtain ⟨-, rfl⟩ := spawn_cases hstep
  exact h.move_empty hholds hwait

/-! ### Steps -/

/-- The response of the cache is faithful for the call it is offered to. -/
theorem faithful_of_offers (h : s.Coherent cfg tag) {a : Action (Option Bytes)}
    (hguard : s.Undisturbed cfg tag a) {call : Call} {resp : Bytes} {key : CacheKey}
    (hoffers : s.offers cfg a = some (call, resp)) (hout : s.Outstanding cfg key resp)
    (hkey : key.transport = call.transport) (msg : Bytes) :
    FaithfulReply tag call (patchId resp msg) s.up := by
  intro htag domain addr hcarried
  rw [carried_patchId] at hcarried
  have hlookup := h.current key resp domain addr hout (hkey.trans htag) hcarried
  have hname := hguard.spelled call resp domain addr hoffers htag hcarried
  rw [hlookup, hname]

theorem coherent_lookup (h : s.Coherent cfg tag) {i j : Nat}
    (hguard : s.Undisturbed cfg tag (.lookup i j)) (hstep : s.lookup cfg i j = some s') :
    s'.Coherent cfg tag := by
  obtain ⟨call, result, cache, hcall, hstage, hget, hnext⟩ := lookup_cases hstep
  obtain ⟨transport, msg, stage⟩ := call
  obtain rfl : stage = .lookup := hstage
  obtain ⟨hfound, hcache⟩ := DnsCache.outstanding_get hget
  have hcached : ({ s with cache } : Handler FakeIpStore).Coherent cfg tag :=
    h.cache fun key resp hout => .inl (hcache key resp hout)
  -- a hit and a stale entry are both offered to the call
  have hfaithful : ∀ resp, result.found = some resp →
      FaithfulReply tag ⟨transport, msg, .lookup⟩ (patchId resp msg) s.up := by
    intro resp hresp
    have hout : s.Outstanding cfg (Call.key ⟨transport, msg, .lookup⟩) resp :=
      .inl (hfound resp hresp)
    refine faithful_of_offers h hguard ?_ hout rfl msg
    simp only [offers, hcall, Option.bind_eq_bind, Option.bind_some, hget, hresp]
    rfl
  rcases hnext with ⟨resp, rfl, rfl⟩ | ⟨resp, rfl, hspawn⟩ | ⟨-, rfl⟩
  · exact hcached.finish fun r hr => (Option.some.inj hr) ▸ hfaithful resp rfl
  · refine coherent_spawn (hcached.finish fun r hr => ?_) rfl (by simp) hspawn
    exact (Option.some.inj hr) ▸ hfaithful resp rfl
  · exact hcached.move_empty rfl (by simp)

theorem coherent_lead (h : s.Coherent cfg tag) (hdedup : s.dedup.Inv) {i : Nat}
    (hstep : s.lead i = some s') : s'.Coherent cfg tag := by
  obtain ⟨call, hcall, -, ⟨-, rfl⟩ | ⟨rx, hsender, rfl⟩⟩ := lead_cases hstep
  · refine Coherent.move_empty (h.inflight fun rx key resp hrx => ?_) rfl (by simp)
    exact .inl (Inflight.sent_tryLeadInflight hrx)
  · refine h.move (by simp [Stage.holds]) ?_
    intro rx' key resp hstage hsent
    obtain rfl : rx = rx' := by simpa using hstage
    -- the channel that is in the table is open
    have hlive := hdedup.table.registered _ rx hsender
    have : some _ = some _ := hlive.symm.trans hsent
    cases this

theorem coherent_recv (h : s.Coherent cfg tag) (hdedup : s.dedup.Inv) {i : Nat}
    (hguard : s.Undisturbed cfg tag (.recv i)) (hstep : s.recv i = some s') :
    s'.Coherent cfg tag := by
  have hlog : ∀ received, ({ s with received } : Handler FakeIpStore).Coherent cfg tag :=
    fun _ => ⟨h.inverse, h.current, h.named, h.faithful⟩
  obtain ⟨call, rx, key, hcall, hstage, ⟨resp, hsent, rfl⟩ | ⟨-, rfl⟩⟩ := recv_cases hstep
  · obtain ⟨transport, msg, stage⟩ := call
    obtain rfl : stage = .wait rx := hstage
    refine (hlog _).finish fun r hr => ?_
    obtain ⟨state, hchannel⟩ := hdedup.waiting i _ rx hcall rfl
    have hkey : key = Call.key ⟨transport, msg, .wait rx⟩ :=
      congrArg Channel.key (Option.some.inj (hsent.symm.trans hchannel))
    refine (Option.some.inj hr) ▸ faithful_of_offers h hguard ?_
      (.inr (.inr ⟨i, _, rx, hcall, rfl, hsent⟩)) (by rw [hkey]; rfl) msg
    simp only [offers, hcall, Option.bind_eq_bind, Option.bind_some, hsent]
    rfl
  · exact (hlog _).move_empty rfl (by simp)

/-- The FakeIP store answers the query of a call: the system stays coherent, and an address in the answer is one that
    the store returns the asked name for. -/
theorem coherent_reply (h : s.Coherent cfg tag) {i : Nat} {call : Call} {input : Option Bytes}
    (hguard : s.Undisturbed cfg tag (.respond i input)) (hcall : s.calls i = some call)
    (htag : call.transport = tag) :
    ({ s with up := (s.up.reply call.msg).1 } : Handler FakeIpStore).Coherent cfg tag ∧
      ∀ domain addr, carried (s.up.reply call.msg).2 = some (domain, addr) →
        (s.up.reply call.msg).1.lookup addr = some domain ∧
          extractQname call.msg = some domain := by
  rcases hanswer : s.up.answer call.msg with ⟨store, answer⟩
  have hreply : s.up.reply call.msg = (store, answer.toBytes call.msg) := by
    rw [FakeIpStore.reply, hanswer]
  have houtcome := FakeIpStore.answer_outcome h.inverse call.msg
  rw [hanswer] at houtcome
  rw [hreply]
  cases answer with
  | address domain addr =>
    have hanswered : s.up.Answered store domain addr := houtcome
    have hallocates : s.allocates tag (.respond i input) = some (domain, addr) := by
      simp only [allocates, hcall, Option.bind_eq_bind, Option.bind_some, htag, if_true, hanswer]
      rfl
    constructor
    · refine h.upstream hanswered.inverse ?_
      intro key resp domain' addr' hout hkey hcarried
      show store.inner.addrToDomain addr' = some domain'
      rw [hanswered.addrToDomain]
      by_cases haddr : addr' = addr
      · -- the address was outstanding, so it stays with its name
        subst haddr
        rw [Function.update_self,
          hguard.kept domain addr' hallocates key resp domain' hout hkey hcarried]
      · rw [Function.update_of_ne haddr]
        exact h.current key resp domain' addr' hout hkey hcarried
    · intro domain' addr' hcarried
      cases (carried_reply hanswer).mp hcarried
      refine ⟨?_, (FakeIpStore.answer_address hanswer).1⟩
      show store.inner.addrToDomain addr = some domain
      rw [hanswered.addrToDomain, Function.update_self]
  | noerrorEmpty =>
    -- an answer without an address leaves the store as it was
    obtain rfl : store = s.up := houtcome
    refine ⟨h, fun domain' addr' hcarried => ?_⟩
    cases (carried_reply hanswer).mp hcarried
  | nxdomain =>
    obtain rfl : store = s.up := houtcome
    refine ⟨h, fun domain' addr' hcarried => ?_⟩
    cases (carried_reply hanswer).mp hcarried

/-- What a call has in hand is current, and for its own name. -/
theorem Coherent.of_holds (h : s.Coherent cfg tag) {i : Nat} {call : Call} {resp : Bytes}
    (hcall : s.calls i = some call) (hholds : call.stage.holds = some resp) {domain : Str}
    {addr : IpAddr} (htag : call.transport = tag) (hcarried : carried resp = some (domain, addr)) :
    s.up.lookup addr = some domain ∧ extractQname call.msg = some domain :=
  ⟨h.current call.key resp domain addr (.inr (.inl ⟨i, call, hcall, hholds, rfl⟩)) htag hcarried,
    h.named i call resp domain addr hcall hholds htag hcarried⟩

theorem Coherent.faithful_of_holds (h : s.Coherent cfg tag) {i : Nat} {call : Call} {resp : Bytes}
    (hcall : s.calls i = some call) (hholds : call.stage.holds = some resp) :
    FaithfulReply tag call resp s.up := by
  intro htag domain addr hcarried
  obtain ⟨hlookup, hname⟩ := h.of_holds hcall hholds htag hcarried
  rw [hlookup, hname]

/-- `cache.set` for a response that a call holds keeps the system coherent. -/
theorem Coherent.cacheSet (h : s.Coherent cfg tag) {i : Nat} {call : Call} {resp : Bytes}
    (hcall : s.calls i = some call) (hholds : call.stage.holds = some resp) :
    (s.cacheSet cfg call.key resp).Coherent cfg tag := by
  unfold Handler.cacheSet
  split
  · refine h.cache fun key resp' hout => ?_
    rcases DnsCache.outstanding_set hout with hold | ⟨rfl, rfl⟩
    · exact .inl hold
    · exact .inr (.inl ⟨i, call, hcall, hholds, rfl⟩)
  · exact h

theorem cacheSet_calls (key : CacheKey) (resp : Bytes) :
    (s.cacheSet cfg key resp).calls = s.calls := by
  unfold cacheSet
  split <;> rfl

theorem coherent_store (h : s.Coherent cfg tag) {i : Nat} (hstep : s.store cfg i = some s') :
    s'.Coherent cfg tag := by
  obtain ⟨call, purpose, resp, hcall, hstage, hnext⟩ := store_cases hstep
  have hholds : call.stage.holds = some resp := by
    rw [hstage]
    rfl
  have hset := h.cacheSet hcall hholds
  have hcall' : (s.cacheSet cfg call.key resp).calls i = some call := by
    rw [cacheSet_calls]
    exact hcall
  rcases hnext with ⟨-, rfl⟩ | ⟨-, rfl⟩ | ⟨-, rfl⟩
  · refine hset.move (fun resp' domain addr hholds' htag hcarried => ?_) (by simp)
    obtain rfl := Option.some.inj hholds'
    exact hset.of_holds hcall' hholds htag hcarried
  · exact hset.move_empty rfl (by simp)
  · exact hset.finish fun r hr => (Option.some.inj hr) ▸ hset.faithful_of_holds hcall' hholds

theorem coherent_complete (h : s.Coherent cfg tag) {i : Nat} (hstep : s.complete i = some s') :
    s'.Coherent cfg tag := by
  obtain ⟨call, result, hcall, hstage, rfl⟩ := complete_cases hstep
  -- the table loses a sender, and no channel changes
  have htable : ({ s with inflight := (s.inflight.remove call.key).2 }
      : Handler FakeIpStore).Coherent cfg tag := h.inflight fun rx key resp hrx => .inl hrx
  refine htable.move ?_ (by simp)
  intro resp domain addr hholds htag hcarried
  have hholds' : call.stage.holds = some resp := by
    rw [hstage]
    exact hholds
  exact h.of_holds hcall hholds' htag hcarried

theorem coherent_send (h : s.Coherent cfg tag) (hdedup : s.dedup.Inv) {i : Nat}
    (hstep : s.send i = some s') : s'.Coherent cfg tag := by
  obtain ⟨call, tx, result, hcall, hstage, rfl⟩ := send_cases hstep
  obtain ⟨rx, rfl, -, hlive, -⟩ := hdedup.live_of_send hcall hstage
  have hholds : call.stage.holds = result := by
    rw [hstage]
    rfl
  refine Coherent.finish (h.inflight fun rx' key resp hrx' => ?_) fun resp hresp => ?_
  · by_cases hne : rx' = rx
    · -- what is sent is what the leader has in hand
      subst hne
      have hlive' : s.inflight.channels rx' = some ⟨call.key, .live⟩ := hlive
      rw [Dedup.publish_self hlive' result] at hrx'
      cases result with
      | none => cases hrx'
      | some resp' =>
        cases hrx'
        exact .inr (.inr (.inl ⟨i, call, hcall, hholds, rfl⟩))
    · exact .inl ((Function.update_of_ne hne ..).symm.trans hrx')
  · exact h.faithful_of_holds hcall (hholds.trans hresp)

end Handler

namespace Handler

variable {cache : CacheConfig} {epoch : Nat} {tag : Str} {s s' : Handler FakeIpStore}

/-- What a query leaves behind, for the store's own tag and for any other. -/
theorem coherent_query (h : s.Coherent (fakeSetup cache epoch tag) tag) {i : Nat} {call : Call}
    {input result : Option Bytes} {up : FakeIpStore}
    (hguard : s.Undisturbed (fakeSetup cache epoch tag) tag (.respond i input))
    (hcall : s.calls i = some call)
    (hquery : (fakeSetup cache epoch tag).query s.up call.transport call.msg input
      = (up, result)) :
    ({ s with up } : Handler FakeIpStore).Coherent (fakeSetup cache epoch tag) tag ∧
      ∀ resp domain addr, result = some resp → call.transport = tag →
        carried resp = some (domain, addr) →
          up.lookup addr = some domain ∧ extractQname call.msg = some domain := by
  by_cases htag : call.transport = tag
  · have hfake : (fakeSetup cache epoch tag).query s.up call.transport call.msg input
        = ((s.up.reply call.msg).1, some (s.up.reply call.msg).2) := if_pos htag
    rw [hfake] at hquery
    obtain ⟨rfl, rfl⟩ := Prod.mk.inj hquery
    obtain ⟨hcoherent, hcarried⟩ := coherent_reply h hguard hcall htag
    refine ⟨hcoherent, fun resp domain addr hresp _ hc => ?_⟩
    obtain rfl := Option.some.inj hresp
    exact hcarried domain addr hc
  · have hother : (fakeSetup cache epoch tag).query s.up call.transport call.msg input
        = (s.up, input) := if_neg htag
    rw [hother] at hquery
    obtain ⟨rfl, rfl⟩ := Prod.mk.inj hquery
    exact ⟨h, fun _ _ _ _ htag' => absurd htag' htag⟩

theorem coherent_respond (h : s.Coherent (fakeSetup cache epoch tag) tag) {i : Nat}
    {input : Option Bytes} (hguard : s.Undisturbed (fakeSetup cache epoch tag) tag (.respond i input))
    (hstep : s.respond (fakeSetup cache epoch tag) i input = some s') :
    s'.Coherent (fakeSetup cache epoch tag) tag := by
  obtain ⟨call, purpose, up, result, hcall, -, hquery, hnext⟩ := respond_cases hstep
  obtain ⟨hup, hresult⟩ := coherent_query h hguard hcall hquery
  rcases hnext with ⟨-, rfl⟩ | ⟨-, -, rfl⟩ | ⟨-, -, rfl⟩ | ⟨resp, -, rfl, rfl⟩
  · refine hup.finish fun resp hresp htag domain addr hcarried => ?_
    obtain ⟨hlookup, hname⟩ := hresult resp domain addr hresp htag hcarried
    rw [hlookup, hname]
  · exact hup.move_empty rfl (by simp)
  · exact hup.move_empty rfl (by simp)
  · refine hup.move (fun resp' domain addr hholds htag hcarried => ?_) (by simp)
    obtain rfl := Option.some.inj hholds
    exact hresult resp domain addr rfl htag hcarried

theorem coherent_tick (h : s.Coherent (fakeSetup cache epoch tag) tag) (nanos : Nat) :
    ({ s with now := s.now + nanos } : Handler FakeIpStore).Coherent (fakeSetup cache epoch tag)
      tag := by
  refine ⟨h.inverse, ?_, h.named, h.faithful⟩
  intro key resp domain addr hout
  refine h.current key resp domain addr ?_
  rcases hout with hcached | hheld
  · refine .inl (DnsCache.outstanding_earlier (Nat.le_add_right s.now nanos) ?_ hcached)
    exact Nat.add_le_add_left (Nat.div_le_div_right (Nat.le_add_right s.now nanos)) epoch
  · exact .inr hheld

/-- **One undisturbed step**, of whichever kind, keeps every answer in the system one that the store can be asked
    back. -/
theorem coherent_step {a : Action (Option Bytes)} (h : s.Coherent (fakeSetup cache epoch tag) tag)
    (hdedup : s.dedup.Inv) (hguard : s.Undisturbed (fakeSetup cache epoch tag) tag a)
    (hstep : s.step (fakeSetup cache epoch tag) a = some s') :
    s'.Coherent (fakeSetup cache epoch tag) tag := by
  cases a with
  | handle i transport msg disableCache =>
    cases disableCache with
    | true => exact coherent_spawn h rfl (by simp) hstep
    | false => exact coherent_spawn h rfl (by simp) hstep
  | lookup i j => exact coherent_lookup h hguard hstep
  | lead i => exact coherent_lead h hdedup hstep
  | recv i => exact coherent_recv h hdedup hguard hstep
  | respond i input => exact coherent_respond h hguard hstep
  | store i => exact coherent_store h hstep
  | complete i => exact coherent_complete h hstep
  | send i => exact coherent_send h hdedup hstep
  | tick nanos =>
    obtain rfl := Option.some.inj hstep
    exact coherent_tick h nanos
  | evict key =>
    obtain rfl := Option.some.inj hstep
    exact h.cache fun key resp hout => .inl (DnsCache.outstanding_evict hout)
  | flush ok =>
    obtain rfl := Option.some.inj hstep
    exact h.cache fun key resp hout => .inl (DnsCache.outstanding_flush hout)
  | purge key =>
    obtain rfl := Option.some.inj hstep
    exact h.cache fun key resp hout => .inl (DnsCache.outstanding_purge hout)

theorem coherent_boot {store : FakeIpStore} {disk : CacheKey → Option (Bytes × Nat)}
    (hstart : CleanStart (fakeSetup cache epoch tag) tag store disk) :
    (boot store disk).Coherent (fakeSetup cache epoch tag) tag := by
  refine ⟨hstart.inverse, ?_, ?_, ?_⟩
  · rintro key resp domain addr (hcached | ⟨i, call, hcall, -⟩ | ⟨i, call, rx, hcall, -⟩) htag hcarried
    · cases hcached with
      | memory entry hentry _ => cases hentry
      | disk _ expireAt hdisk hserves =>
        -- no time has passed
        rw [unixNow, show (boot store disk).now / second = 0 from Nat.zero_div _] at hserves
        exact hstart.current key resp expireAt domain addr hdisk hserves htag hcarried
      | save _ _ hsave _ => cases hsave
    · cases hcall
    · cases hcall
  · intro i call resp domain addr hcall
    cases hcall
  · intro call resp store' hmem
    cases hmem

/-! ### Whole runs -/

/-- The invariant of undisturbed runs, together with that of the in-flight table. -/
def Sound (cache : CacheConfig) (epoch : Nat) (tag : Str) (s : Handler FakeIpStore) : Prop :=
  s.dedup.Inv ∧ s.Coherent (fakeSetup cache epoch tag) tag

theorem sound_step {a : Action (Option Bytes)}
    (hstep : s.step (fakeSetup cache epoch tag) a = some s')
    (hguard : s.Undisturbed (fakeSetup cache epoch tag) tag a) (h : Sound cache epoch tag s) :
    Sound cache epoch tag s' :=
  ⟨dedup_inv_step hstep h.1, coherent_step h.2 h.1 hguard hstep⟩

theorem sound_boot {store : FakeIpStore} {disk : CacheKey → Option (Bytes × Nat)}
    (hstart : CleanStart (fakeSetup cache epoch tag) tag store disk) :
    Sound cache epoch tag (boot store disk) :=
  ⟨Dedup.inv_init, coherent_boot hstart⟩

/-- **Whole runs.** From any clean start and for any cache configuration, in every run of undisturbed
    steps each response that `handle` returned for the FakeIP upstream carried an address that stood, at
    that moment, for the name the client asked for. -/
theorem faithful_of_undisturbed (store : FakeIpStore) (disk : CacheKey → Option (Bytes × Nat))
    (cache : CacheConfig) (epoch : Nat) (tag : Str) (actions : List (Action (Option Bytes)))
    (s : Handler FakeIpStore) (hstart : CleanStart (fakeSetup cache epoch tag) tag store disk)
    (hrun : Transition.run (step (fakeSetup cache epoch tag)) (boot store disk) actions = some s)
    (hguard : Transition.Guarded (step (fakeSetup cache epoch tag))
      (Undisturbed (fakeSetup cache epoch tag) tag) (boot store disk) actions) : s.Faithful tag := by
  have hfinal : Sound cache epoch tag s :=
    Transition.invariant_of_run (fun _ _ _ => sound_step) hrun hguard (sound_boot hstart)
  exact hfinal.2.faithful

/-! ### Quiet steps -/

/-- No address is taken away from a name at all, and a response that is offered is for the name as the
    query spells it. -/
def quiet (cfg : Setup FakeIpStore (Option Bytes)) (tag : Str) (s : Handler FakeIpStore)
    (a : Action (Option Bytes)) : Bool :=
  (s.allocates tag a).all (fun p => (s.up.lookup p.2).all fun domain => domain == p.1) &&
    (s.offers cfg a).all fun p => p.1.transport != tag ||
      (carried p.2).all fun q => extractQname p.1.msg == some q.1

/-- **Quiet steps** are undisturbed: an outstanding response stands for its address, which the step does
    not take away. -/
theorem undisturbed_of_quiet {cfg : Setup FakeIpStore (Option Bytes)} {a : Action (Option Bytes)}
    (h : s.Coherent cfg tag) (hquiet : s.quiet cfg tag a = true) : s.Undisturbed cfg tag a := by
  obtain ⟨hkept, hspelled⟩ := (Bool.and_eq_true _ _).mp hquiet
  refine ⟨fun domain addr halloc key resp domain' hout htag hcarried => ?_,
    fun call resp domain addr hoffers htag hcarried => ?_⟩
  · have hlookup := h.current key resp domain' addr hout htag hcarried
    rw [halloc, Option.all_some, hlookup, Option.all_some] at hkept
    exact eq_of_beq hkept
  · rw [hoffers, Option.all_some, htag, bne_self_eq_false, Bool.false_or, hcarried,
      Option.all_some] at hspelled
    exact eq_of_beq hspelled

/-- A run of quiet steps from a clean start is undisturbed. -/
theorem guarded_of_quiet {store : FakeIpStore} {disk : CacheKey → Option (Bytes × Nat)}
    {actions : List (Action (Option Bytes))}
    (hstart : CleanStart (fakeSetup cache epoch tag) tag store disk)
    (hquiet : Transition.Guarded (step (fakeSetup cache epoch tag))
      (fun s a => s.quiet (fakeSetup cache epoch tag) tag a = true) (boot store disk) actions) :
    Transition.Guarded (step (fakeSetup cache epoch tag))
      (Undisturbed (fakeSetup cache epoch tag) tag) (boot store disk) actions :=
  Transition.Guarded.imp_of_inv
    (fun _ _ _ hstep hq h => sound_step hstep (undisturbed_of_quiet h.2 hq) h)
    (fun _ _ h hq => undisturbed_of_quiet h.2 hq) (sound_boot hstart) hquiet

/-! ### A small range -/

/-- The range of the runs below: its two addresses are `198.18.0.2` and `198.18.0.1`. -/
def smallRange : FakeIpConfig := { inet4Range := some "198.18.0.0/30".toList }

/-- A cache with a file and without a stale window. -/
def fileSetup : Setup FakeIpStore (Option Bytes) := fakeSetup ⟨300, none, true⟩ 0 []

/-- Call `i` asks for a one-letter name that is not cached, and returns. -/
def askUncached (i : Nat) (letter : UInt8) : List (Action (Option Bytes)) :=
  [.handle i [] (Resolver.letterQuery (UInt8.ofNat i) letter) false, .lookup i 100, .lead i,
    .respond i none, .store i, .complete i, .send i]

/-- Call `i` asks for a one-letter name that is cached. -/
def askCached (i : Nat) (letter : UInt8) : List (Action (Option Bytes)) :=
  [.handle i [] (Resolver.letterQuery (UInt8.ofNat i) letter) false, .lookup i 100]

/-- A cache file that has the response of a process with the same range for `a`, for ten seconds. -/
def savedA (key : CacheKey) : Option (Bytes × Nat) :=
  if key = cacheKey [] (Resolver.letterQuery 0 0x61) then
    some (buildIpResponse (Resolver.letterQuery 0 0x61) 1 [198, 18, 0, 2], 10)
  else none

/-- The latest response is for `a` and carries `198.18.0.2`, which stands for `name`. -/
def ReturnsA (name : Option Str) (s : Handler FakeIpStore) : Bool :=
  s.returned.head?.any fun r => decide (r.1.transport = [] ∧
    carried r.2.1 = some ("a".toList, .v4 0xC6120002) ∧ r.2.2.lookup (.v4 0xC6120002) = name ∧
    extractQname r.1.msg = some "a".toList)

theorem not_faithful_of_returnsA (name : Option Str) (hname : name ≠ some "a".toList)
    {s : Handler FakeIpStore} (h : ReturnsA name s = true) : ¬ s.Faithful [] := by
  obtain ⟨⟨call, resp, store⟩, hmem, hreply⟩ := (Option.any_eq_true _ _).mp h
  obtain ⟨htag, hcarried, hlookup, hmsg⟩ := of_decide_eq_true hreply
  intro hfaithful
  have hequal := hfaithful call resp store (List.mem_of_mem_head? hmem) htag _ _ hcarried
  rw [hlookup, hmsg] at hequal
  exact hname hequal

/-- Within one second `a`, `b` and `c` are asked for, and then `a` again: its cached answer has the
    address that now stands for `c`.  And a new store does not know the address in the file. -/
theorem not_faithful_recycled :
    (∃ store actions s, FakeIpStore.new smallRange = .ok store ∧
      Transition.run (step fileSetup) (init store) actions = some s ∧ ¬ s.Faithful []) ∧
    ∃ store actions s, FakeIpStore.new smallRange = .ok store ∧
      Transition.run (step fileSetup) (boot store savedA) actions = some s ∧ ¬ s.Faithful [] := by
  constructor
  · obtain ⟨store, hnew, hrun⟩ := exists_eq_ok_of_any (x := FakeIpStore.new smallRange)
      (p := fun store => (Transition.run (step fileSetup) (init store)
        (askUncached 0 0x61 ++ askUncached 1 0x62 ++ askUncached 2 0x63 ++ askCached 3 0x61)).any
          (ReturnsA (some "c".toList)))
      (by decide +kernel)
    obtain ⟨s, hs, hlast⟩ := (Option.any_eq_true _ _).mp hrun
    exact ⟨store, _, s, hnew, hs, not_faithful_of_returnsA _ (by decide) hlast⟩
  · obtain ⟨store, hnew, hrun⟩ := exists_eq_ok_of_any (x := FakeIpStore.new smallRange)
      (p := fun store => (Transition.run (step fileSetup) (boot store savedA) (askCached 0 0x61)).any
        (ReturnsA none))
      (by decide +kernel)
    obtain ⟨s, hs, hlast⟩ := (Option.any_eq_true _ _).mp hrun
    exact ⟨store, _, s, hnew, hs, not_faithful_of_returnsA none nofun hlast⟩

/-- A store that is rebuilt from the row of `a`, and the file with its response. -/
theorem cleanStart_savedA {fakeip : FakeIpConfig} {store : FakeIpStore}
    (hnew : FakeIpStore.new fakeip = .ok store)
    (hcontains : store.contains (.v4 0xC6120002) = true) :
    CleanStart fileSetup [] (store.restore [(.v4 0xC6120002, "a".toList)]) savedA := by
  obtain ⟨hinv, hempty⟩ := FakeIpStore.inverse_new hnew
  -- the store was empty, so it has the one address that is restored
  have honly : ∀ ip d, inRange store.contains
      (Function.update (fun _ => none) (.v4 0xC6120002) (some "a".toList)) ip = some d →
        ip = .v4 0xC6120002 := by
    intro ip d h
    rcases Transition.update_eq_some (inRange_eq_some.mp h).2 with ⟨heq, -⟩ | ⟨-, hnone⟩
    · exact heq
    · cases hnone
  have hone : OneAddress (inRange store.contains
      (Function.update (fun _ => none) (.v4 0xC6120002) (some "a".toList))) :=
    ⟨fun _ _ d ha ha' => v4_injective ((honly _ d ha).trans (honly _ d ha').symm),
      fun _ _ d ha _ => nomatch honly _ d ha⟩
  have hrows : ∀ ip d, (ip, d) ∈ [(IpAddr.v4 0xC6120002, "a".toList)] ↔
      Function.update (fun _ => none) (.v4 0xC6120002) (some "a".toList) ip = some d := by
    intro ip d
    rw [List.mem_singleton, Prod.mk.injEq]
    constructor
    · rintro ⟨rfl, rfl⟩
      exact Function.update_self ..
    · intro hrow
      rcases Transition.update_eq_some hrow with hrow | ⟨-, hnone⟩
      · exact hrow
      · cases hnone
  obtain ⟨hinverse, hlookup⟩ := FakeIpStore.restore_spec hone hinv hempty hrows
  refine ⟨hinverse, fun key resp expireAt domain addr hdisk _ _ hcarried => ?_⟩
  rw [savedA] at hdisk
  split at hdisk
  · obtain ⟨rfl, -⟩ := Prod.mk.inj (Option.some.inj hdisk)
    -- the record of the file carries this address, for this name
    have hrow : carried (buildIpResponse (Resolver.letterQuery 0 0x61) 1 [198, 18, 0, 2])
        = some ("a".toList, .v4 0xC6120002) := by decide +kernel
    obtain ⟨rfl, rfl⟩ := Prod.mk.inj (Option.some.inj (hrow.symm.trans hcarried))
    rw [hlookup]
    exact inRange_eq_some.mpr ⟨hcontains, Function.update_self _ _ _⟩
  · cases hdisk

/-- A range with more addresses. -/
def widerRange : FakeIpConfig := { inet4Range := some "198.18.0.0/29".toList }

/-- `a` is asked for, then `b`, and `a` again: both answers for `a` come from the cache, the first from
    its file and the second from memory. -/
theorem faithful_of_undisturbed_cached :
    ∃ store s, CleanStart fileSetup [] store savedA ∧
      Transition.run (step fileSetup) (boot store savedA)
        (askCached 0 0x61 ++ askUncached 1 0x62 ++ askCached 2 0x61) = some s ∧
      s.returned.length = 3 ∧ s.Faithful [] := by
  obtain ⟨store, hnew, hall⟩ := exists_eq_ok_of_any (x := FakeIpStore.new widerRange)
    (p := fun store => store.contains (.v4 0xC6120002) &&
      decide (Transition.Guarded (step fileSetup) (fun s a => s.quiet fileSetup [] a = true)
        (boot (store.restore [(.v4 0xC6120002, "a".toList)]) savedA)
        (askCached 0 0x61 ++ askUncached 1 0x62 ++ askCached 2 0x61)) &&
      (Transition.run (step fileSetup) (boot (store.restore [(.v4 0xC6120002, "a".toList)]) savedA)
        (askCached 0 0x61 ++ askUncached 1 0x62 ++ askCached 2 0x61)).any
          fun (s : Handler FakeIpStore) => decide (s.returned.length = 3))
    (by decide +kernel)
  obtain ⟨hfirst, hlength⟩ := (Bool.and_eq_true _ _).mp hall
  obtain ⟨hcontains, hquiet⟩ := (Bool.and_eq_true _ _).mp hfirst
  obtain ⟨s, hs, hlength⟩ := (Option.any_eq_true _ _).mp hlength
  have hstart := cleanStart_savedA hnew hcontains
  have hguard := guarded_of_quiet hstart (of_decide_eq_true hquiet)
  exact ⟨_, s, hstart, hs, of_decide_eq_true hlength,
    faithful_of_undisturbed _ savedA ⟨300, none, true⟩ 0 [] _ s hstart hs hguard⟩

end Handler

end Reflex.Dns
