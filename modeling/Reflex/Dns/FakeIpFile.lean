import Reflex.Dns.FakeIp
import Reflex.Experimental.CacheFile
import Reflex.Lib.Journal
import Reflex.Lib.Transition

namespace Reflex.Dns

open RustStd PartialInverse Experimental Journal

/-!
# DNS — the FakeIP store and its cache file

`FakeIpStore::new_with_cache` of `dns/upstream.rs`: each answer leaves a message for the writer of
the cache file, and a restart rebuilds the tables from what the writer had applied.

* `restore_spec` — the tables rebuilt from rows that give no domain two addresses;
* `Deployment` — a process, its pending messages and its file, through any number of restarts;
* `Consistent` — wherever the queue is cut, the file gives no domain of the range two addresses.
-/

/-! ### The store with a cache file -/

namespace FakeIpStore

/-- One record of the loop of `new_with_cache`: it counts if the range holds its address. -/
def restoreRecord (store : FakeIpStore) : IpAddr × Str → FakeIpStore
  | (.v4 v4, domain) =>
      if store.contains (.v4 v4) then
        { store with inner :=
          { store.inner with
            addrToDomain := Function.update store.inner.addrToDomain (.v4 v4) (some domain)
            domainToV4 := Function.update store.inner.domainToV4 domain (some v4)
            inet4Current := store.inner.inet4Current.map fun cur =>
              if cur ≤ v4 then ipNext v4 else cur } }
      else store
  | (.v6 v6, domain) =>
      if store.contains (.v6 v6) then
        { store with inner :=
          { store.inner with
            addrToDomain := Function.update store.inner.addrToDomain (.v6 v6) (some domain)
            domainToV6 := Function.update store.inner.domainToV6 domain (some v6)
            inet6Current := store.inner.inet6Current.map fun cur =>
              if cur ≤ v6 then ipNext v6 else cur } }
      else store

/-- A cursor at or behind the end of its range goes back to the start. -/
def rewind {w : Nat} (net : Option (BitVec w × BitVec w)) (current : Option (BitVec w)) :
    Option (BitVec w) :=
  match net with
  | some (start, last) => if current.any fun c => decide (last ≤ c) then some (ipNext start) else current
  | none => current

/-- What `new_with_cache` does with the records of the file. -/
def restore (store : FakeIpStore) (records : List (IpAddr × Str)) : FakeIpStore :=
  let store := records.foldl restoreRecord store
  { store with inner :=
    { store.inner with
      inet4Current := rewind store.inet4Net store.inner.inet4Current
      inet6Current := rewind store.inet6Net store.inner.inet6Current } }

/-- `FakeIpStore::new_with_cache`. -/
def newWithCache (cfg : FakeIpConfig) (cacheFile : Option CacheFile)
    (cacheReader : Option Database) : Except Str FakeIpStore := do
  let store ← new cfg
  match cacheReader, cacheFile with
  | some db, some file =>
      if file.storeFakeip then return store.restore (loadAllFakeip db) else return store
  | _, _ => return store

/-- The messages `allocate_v4` and `allocate_v6` send when they return `addr`: a touch if the domain
    had the address already. -/
def allocateWrites (file : CacheFile) (hasAddress : Bool) (domain : Str) (addr : IpAddr)
    (now : Nat) : List WriteOp :=
  if hasAddress then file.touchFakeipEntry addr now else file.storeFakeipEntry addr domain now

/-- The messages of one query, from the store as it was before it. -/
def replyWrites (store : FakeIpStore) (file : CacheFile) (now : Nat) : Answer → List WriteOp
  | .address domain (.v4 ip) =>
      allocateWrites file (store.inner.domainToV4 domain).isSome domain (.v4 ip) now
  | .address domain (.v6 ip) =>
      allocateWrites file (store.inner.domainToV6 domain).isSome domain (.v6 ip) now
  | _ => []

end FakeIpStore

/-! ### A process and its file -/

/-- A running process, the file it writes and the messages the writer has not applied yet.  `stored`
    and `answers` record what happened, the latest first: the stores the writer applied, and the
    answers with their times. -/
structure Deployment where
  store : FakeIpStore
  file : CacheFile
  fakeipTtlDays : UInt32
  queue : List WriteOp
  db : Database
  now : Nat
  stored : List (Str × Str)
  answers : List (IpAddr × Str × Nat)

/-- What can happen: queries, messages of the other parts of the program, a step of the writer, a
    clean-up, the passing of time, and a restart, which loses the pending messages. -/
inductive FileEvent where
  | reply (query : Bytes)
  | setStrategy (s : ResolveStrategy)
  | send (op : WriteOp)
  | write
  | cleanup
  | clock (t : Nat)
  | restart (cfg : FakeIpConfig) (storeFakeip : Bool) (fakeipTtlDays : UInt32) (storeDns : Bool)

/-- The key is the text of an address outside of the range. -/
def isForeignKey (contains : IpAddr → Bool) (k : Str) : Bool :=
  (IpAddr.fromStr k).any fun ip => decide (k = ip.display) && !contains ip

/-- The messages other parts of the program send: they are not about addresses of this store. -/
def isForeign (contains : IpAddr → Bool) : WriteOp → Bool
  | .storeFakeip ip _ _ => isForeignKey contains ip
  | .touchFakeip ip _ => isForeignKey contains ip
  | .saveDns .. => true
  | .storeSelected .. => true
  | .storeRuleset .. => true
  | .cleanup => false
  | .shutdown => false

namespace Deployment

/-- A process starts on the database: `open_cache_file`, then `new_with_cache`. -/
def boot (db : Database) (now : Nat) (stored : List (Str × Str)) (answers : List (IpAddr × Str × Nat))
    (cfg : FakeIpConfig) (storeFakeip : Bool) (fakeipTtlDays : UInt32) (storeDns : Bool) :
    Except Str Deployment := do
  let (file, db) := openCacheFile db storeFakeip fakeipTtlDays storeDns now
  let store ← FakeIpStore.newWithCache cfg (some file) (some db)
  return { store, file, fakeipTtlDays, queue := [], db, now, stored, answers }

/-- Record an answer. -/
def recordAnswer (answers : List (IpAddr × Str × Nat)) (now : Nat) :
    Answer → List (IpAddr × Str × Nat)
  | .address domain addr => (addr, domain, now) :: answers
  | _ => answers

/-- Record a message the writer applied. -/
def recordStored (stored : List (Str × Str)) : WriteOp → List (Str × Str)
  | .storeFakeip ip domain _ => (ip, domain) :: stored
  | _ => stored

/-- One event; `none` where it cannot happen. -/
def step (s : Deployment) : FileEvent → Option Deployment
  | .reply query =>
      let (store, answer) := s.store.answer query
      some { s with
        store
        queue := s.queue ++ s.store.replyWrites s.file s.now answer
        answers := recordAnswer s.answers s.now answer }
  | .setStrategy strategy => some { s with store := s.store.setStrategy strategy }
  | .send op =>
      if isForeign s.store.contains op then some { s with queue := s.queue ++ [op] } else none
  | .write =>
      match s.queue with
      | [] => none
      | op :: queue =>
          (writeLoopRecv s.db s.fakeipTtlDays s.now op).map fun db =>
            { s with queue, db, stored := recordStored s.stored op }
  | .cleanup => some { s with db := doCleanup s.db s.fakeipTtlDays s.now }
  | .clock t => some { s with now := t }
  | .restart cfg storeFakeip fakeipTtlDays storeDns =>
      match boot s.db s.now s.stored s.answers cfg storeFakeip fakeipTtlDays storeDns with
      | .ok s' =>
          -- with unchanged ranges
          if s'.store.inet4Net = s.store.inet4Net ∧ s'.store.inet6Net = s.store.inet6Net then some s'
          else none
      | .error _ => none

/-- The first start, on a new database. -/
def start (now : Nat) (cfg : FakeIpConfig) (storeFakeip : Bool) (fakeipTtlDays : UInt32)
    (storeDns : Bool) : Except Str Deployment :=
  boot Database.create now [] [] cfg storeFakeip fakeipTtlDays storeDns

end Deployment

/-! ### Rebuilding the tables -/

/-- No domain has two addresses in one family. -/
structure OneAddress (g : IpAddr → Option Str) : Prop where
  v4 : ∀ a a' d, g (.v4 a) = some d → g (.v4 a') = some d → a = a'
  v6 : ∀ a a' d, g (.v6 a) = some d → g (.v6 a') = some d → a = a'

theorem OneAddress.mono {g g' : IpAddr → Option Str} (hone : OneAddress g')
    (h : ∀ ip d, g ip = some d → g' ip = some d) : OneAddress g :=
  ⟨fun a a' d ha ha' => hone.v4 a a' d (h _ d ha) (h _ d ha'),
    fun a a' d ha ha' => hone.v6 a a' d (h _ d ha) (h _ d ha')⟩

theorem FakeIpInner.Inverse.oneAddress {inner : FakeIpInner} (h : inner.Inverse) :
    OneAddress inner.addrToDomain := by
  constructor
  · intro a a' d ha ha'
    exact Option.some.inj (((h.v4 d a).mpr ha).symm.trans ((h.v4 d a').mpr ha'))
  · intro a a' d ha ha'
    exact Option.some.inj (((h.v6 d a).mpr ha).symm.trans ((h.v6 d a').mpr ha'))

/-- The part of a table that a range covers. -/
def inRange (covers : IpAddr → Bool) (g : IpAddr → Option Str) (ip : IpAddr) : Option Str :=
  if covers ip then g ip else none

theorem inRange_eq_some {covers : IpAddr → Bool} {g : IpAddr → Option Str} {ip : IpAddr} {d : Str} :
    inRange covers g ip = some d ↔ covers ip = true ∧ g ip = some d := by
  unfold inRange
  split
  · rename_i h
    exact ⟨fun hg => ⟨h, hg⟩, fun hg => hg.2⟩
  · rename_i h
    exact ⟨fun hg => (nomatch hg), fun hg => absurd hg.1 h⟩

/-- The tables of the store are inverse and say nothing that `g` does not say. -/
structure Agrees (covers : IpAddr → Bool) (g : IpAddr → Option Str) (store : FakeIpStore) : Prop where
  contains : store.contains = covers
  inverse : store.inner.Inverse
  sound : ∀ ip d, store.lookup ip = some d → inRange covers g ip = some d

namespace FakeIpStore

section Restore

variable {covers : IpAddr → Bool} {g : IpAddr → Option Str} {store : FakeIpStore}

/-- **One record** of the file goes into the store exactly if its address is in a range; another lookup does not
    change. -/
theorem restoreRecord_spec (hone : OneAddress (inRange covers g)) (h : Agrees covers g store)
    {ip : IpAddr} {domain : Str} (hrecord : g ip = some domain) :
    Agrees covers g (store.restoreRecord (ip, domain)) ∧
      (store.restoreRecord (ip, domain)).lookup
        = if covers ip then Function.update store.lookup ip (some domain) else store.lookup := by
  by_cases hcovers : covers ip = true
  · have hrow : inRange covers g ip = some domain := inRange_eq_some.mpr ⟨hcovers, hrecord⟩
    -- what the table holds for the address is the same row
    have hsame : ∀ d, store.lookup ip = some d → d = domain := fun d hd =>
      Option.some.inj ((h.sound ip d hd).symm.trans hrow)
    have hsound : ∀ ip' d, Function.update store.lookup ip (some domain) ip' = some d →
        inRange covers g ip' = some d := by
      intro ip' d hd
      rcases Transition.update_eq_some hd with ⟨rfl, rfl⟩ | ⟨-, hold⟩
      · exact hrow
      · exact h.sound ip' d hold
    rw [if_pos hcovers]
    cases ip with
    | v4 v4 =>
        have hcond : store.contains (.v4 v4) = true := by rw [h.contains]; exact hcovers
        have heq : store.restoreRecord (.v4 v4, domain) = _ := if_pos hcond
        have hfree : ∀ a, store.inner.domainToV4 domain = some a → a = v4 := fun a ha =>
          hone.v4 a v4 domain (h.sound _ _ ((h.inverse.v4 domain a).mp ha)) hrow
        rw [heq]
        refine ⟨⟨h.contains, ⟨?_, ?_⟩, hsound⟩, rfl⟩
        · have hins := h.inverse.v4.insert hfree hsame
          rwa [← view_update v4_injective] at hins
        · show MutuallyInverse store.inner.domainToV6 _
          rw [view_other fun a => by simp]
          exact h.inverse.v6
    | v6 v6 =>
        have hcond : store.contains (.v6 v6) = true := by rw [h.contains]; exact hcovers
        have heq : store.restoreRecord (.v6 v6, domain) = _ := if_pos hcond
        have hfree : ∀ a, store.inner.domainToV6 domain = some a → a = v6 := fun a ha =>
          hone.v6 a v6 domain (h.sound _ _ ((h.inverse.v6 domain a).mp ha)) hrow
        rw [heq]
        refine ⟨⟨h.contains, ⟨?_, ?_⟩, hsound⟩, rfl⟩
        · show MutuallyInverse store.inner.domainToV4 _
          rw [view_other fun a => by simp]
          exact h.inverse.v4
        · have hins := h.inverse.v6.insert hfree hsame
          rwa [← view_update v6_injective] at hins
  · have hidle : store.restoreRecord (ip, domain) = store := by
      cases ip with
      | v4 v4 => exact if_neg (by rw [h.contains]; exact hcovers)
      | v6 v6 => exact if_neg (by rw [h.contains]; exact hcovers)
    rw [if_neg hcovers, hidle]
    exact ⟨h, rfl⟩

/-- All records: what was there stays, and every record of the range is added. -/
theorem foldl_restoreRecord (hone : OneAddress (inRange covers g)) (records : List (IpAddr × Str))
    (hrecords : ∀ r ∈ records, g r.1 = some r.2) (h : Agrees covers g store) :
    Agrees covers g (records.foldl restoreRecord store) ∧
      ∀ ip d, store.lookup ip = some d ∨ ((ip, d) ∈ records ∧ covers ip = true) →
        (records.foldl restoreRecord store).lookup ip = some d := by
  induction records generalizing store with
  | nil => exact ⟨h, fun ip d hor => hor.resolve_right fun hmem => (nomatch hmem.1)⟩
  | cons r records ih =>
      obtain ⟨ip₀, d₀⟩ := r
      have hrow := hrecords _ (List.mem_cons_self ..)
      obtain ⟨hagrees, hlookup⟩ := restoreRecord_spec hone h hrow
      obtain ⟨hall, hcomplete⟩ := ih (fun r hr => hrecords r (List.mem_cons_of_mem _ hr)) hagrees
      refine ⟨hall, fun ip d hor => hcomplete ip d ?_⟩
      -- an address of the range holds the one domain the file has for it
      have hadd : covers ip₀ = true →
          (store.restoreRecord (ip₀, d₀)).lookup ip₀ = some d₀ := fun hc => by
        rw [hlookup, if_pos hc, Function.update_self]
      rcases hor with hold | ⟨hmem, hc⟩
      · refine .inl ?_
        rw [hlookup]
        split
        · by_cases hip : ip = ip₀
          · subst hip
            have hd := inRange_eq_some.mp (h.sound ip d hold)
            rw [Function.update_self, ← hd.2]
            exact hrow.symm
          · rw [Function.update_of_ne hip]
            exact hold
        · exact hold
      · rcases List.mem_cons.mp hmem with heq | htail
        · obtain ⟨rfl, rfl⟩ := Prod.mk.inj heq
          exact .inl (hadd hc)
        · exact .inr ⟨htail, hc⟩

end Restore

theorem restoreRecord_nets (store : FakeIpStore) (r : IpAddr × Str) :
    (store.restoreRecord r).inet4Net = store.inet4Net ∧
      (store.restoreRecord r).inet6Net = store.inet6Net := by
  obtain ⟨ip, domain⟩ := r
  by_cases h : store.contains ip = true
  · cases ip with
    | v4 v4 =>
        rw [show store.restoreRecord (.v4 v4, domain) = _ from if_pos h]
        exact ⟨rfl, rfl⟩
    | v6 v6 =>
        rw [show store.restoreRecord (.v6 v6, domain) = _ from if_pos h]
        exact ⟨rfl, rfl⟩
  · cases ip with
    | v4 v4 =>
        rw [show store.restoreRecord (.v4 v4, domain) = store from if_neg h]
        exact ⟨rfl, rfl⟩
    | v6 v6 =>
        rw [show store.restoreRecord (.v6 v6, domain) = store from if_neg h]
        exact ⟨rfl, rfl⟩

/-- Rebuilding the tables leaves the ranges as they are. -/
theorem restore_nets (store : FakeIpStore) (records : List (IpAddr × Str)) :
    (store.restore records).inet4Net = store.inet4Net ∧
      (store.restore records).inet6Net = store.inet6Net := by
  show (records.foldl restoreRecord store).inet4Net = _ ∧
    (records.foldl restoreRecord store).inet6Net = _
  induction records generalizing store with
  | nil => exact ⟨rfl, rfl⟩
  | cons r records ih =>
      obtain ⟨h4, h6⟩ := restoreRecord_nets store r
      rw [List.foldl_cons, ← h4, ← h6]
      exact ih (store.restoreRecord r)

/-- **Rebuilding.** From the rows of a file that gives no domain of the range two addresses, the
    tables come out inverse and hold exactly the rows of the range. -/
theorem restore_spec {g : IpAddr → Option Str} {store : FakeIpStore}
    (hone : OneAddress (inRange store.contains g)) (hinv : store.inner.Inverse)
    (hempty : store.inner.addrToDomain = fun _ => none) {records : List (IpAddr × Str)}
    (hrecords : ∀ ip d, (ip, d) ∈ records ↔ g ip = some d) :
    (store.restore records).inner.Inverse ∧
      (store.restore records).lookup = inRange store.contains g := by
  have hstart : Agrees store.contains g store :=
    ⟨rfl, hinv, fun ip d hd => by rw [lookup, hempty] at hd; cases hd⟩
  obtain ⟨hall, hcomplete⟩ :=
    foldl_restoreRecord hone records (fun r hr => (hrecords r.1 r.2).mp hr) hstart
  -- the cursors that are set behind the loop are not part of the tables
  refine ⟨⟨hall.inverse.v4, hall.inverse.v6⟩, ?_⟩
  funext ip
  show (records.foldl restoreRecord store).lookup ip = _
  ext d
  constructor
  · exact hall.sound ip d
  · intro hd
    obtain ⟨hc, hg⟩ := inRange_eq_some.mp hd
    exact hcomplete ip d (.inr ⟨(hrecords ip d).mpr hg, hc⟩)

end FakeIpStore

/-! ### What the messages do to the file -/

/-- The messages of a queue: nobody asks for a clean-up or the end of the writer, and rows are
    addressed by the text of an address. -/
def Pending : WriteOp → Prop
  | .storeFakeip k _ _ => ∃ ip : IpAddr, k = ip.display
  | .touchFakeip k _ => ∃ ip : IpAddr, k = ip.display
  | .cleanup => False
  | .shutdown => False
  | _ => True

theorem Pending.recv {op : WriteOp} (h : Pending op) (db : Database) (days : UInt32) (now : Nat) :
    writeLoopRecv db days now op = some (applyOp db op) := by
  cases op with
  | cleanup => exact h.elim
  | shutdown => exact h.elim
  | _ => rfl

theorem Pending.keyed {op : WriteOp} (h : Pending op) {db : Database} (hkeyed : db.Keyed) :
    (applyOp db op).Keyed := by
  cases op with
  | storeFakeip k domain t =>
      intro k' row hrow
      rw [row_storeFakeip] at hrow
      rcases Transition.update_eq_some hrow with ⟨rfl, -⟩ | ⟨-, hold⟩
      · exact h
      · exact hkeyed k' row hold
  | touchFakeip k t =>
      intro k' row hrow
      rw [row_touchFakeip] at hrow
      by_cases hk : k' = k
      · rw [hk]
        exact h
      · rw [Function.update_of_ne hk] at hrow
        exact hkeyed k' row hrow
  | _ => exact hkeyed

/-- The domains of one file are those of another, with rows missing. -/
def Below (db db' : Database) : Prop :=
  ∀ k d, (db.row k).map (·.2) = some d → (db'.row k).map (·.2) = some d

theorem below_applyOp (db db' : Database) (op : WriteOp) (h : Below db db') :
    Below (applyOp db op) (applyOp db' op) := by
  cases op with
  | storeFakeip k domain t =>
      intro k' d hd
      rw [row_storeFakeip] at hd ⊢
      by_cases hk : k' = k
      · rw [hk, Function.update_self] at hd ⊢
        exact hd
      · rw [Function.update_of_ne hk] at hd ⊢
        exact h k' d hd
  | touchFakeip k t =>
      intro k' d hd
      rw [row_touchFakeip] at hd ⊢
      by_cases hk : k' = k
      · rw [hk, Function.update_self, Option.map_map] at hd ⊢
        exact h k d hd
      · rw [Function.update_of_ne hk] at hd ⊢
        exact h k' d hd
  | _ => exact h

theorem below_of_filter {db db' : Database} {keep : Nat × Str → Bool}
    (h : ∀ k, db.row k = (db'.row k).filter keep) : Below db db' := by
  intro k d hd
  rw [h k] at hd
  obtain ⟨row, hrow, rfl⟩ := Option.map_eq_some_iff.mp hd
  rw [(Option.filter_eq_some_iff.mp hrow).1]
  rfl

theorem Below.domainOf {db db' : Database} (h : Below db db') {ip : IpAddr} {d : Str}
    (hd : db.domainOf ip = some d) : db'.domainOf ip = some d := h ip.display d hd

theorem Below.inRange {db db' : Database} (h : Below db db') {covers : IpAddr → Bool} {ip : IpAddr}
    {d : Str} (hd : inRange covers db.domainOf ip = some d) :
    Dns.inRange covers db'.domainOf ip = some d := by
  obtain ⟨hc, hg⟩ := inRange_eq_some.mp hd
  exact inRange_eq_some.mpr ⟨hc, h.domainOf hg⟩

theorem Below.keyed {db db' : Database} (h : Below db db') (hkeyed : db'.Keyed) : db.Keyed := by
  intro k row hrow
  have hd := h k row.2 (by rw [hrow]; rfl)
  obtain ⟨row', hrow', -⟩ := Option.map_eq_some_iff.mp hd
  exact hkeyed k row' hrow'

theorem exists_of_isForeignKey {covers : IpAddr → Bool} {k : Str}
    (h : isForeignKey covers k = true) : ∃ ip : IpAddr, k = ip.display ∧ covers ip = false := by
  obtain ⟨ip, -, hip⟩ := (Option.any_eq_true _ _).mp h
  obtain ⟨hk, hout⟩ := Bool.and_eq_true_iff.mp hip
  exact ⟨ip, of_decide_eq_true hk, Bool.not_eq_true' _ ▸ hout⟩

theorem pending_of_foreign {covers : IpAddr → Bool} {op : WriteOp}
    (h : isForeign covers op = true) : Pending op := by
  cases op with
  | storeFakeip k domain t => exact (exists_of_isForeignKey h).imp fun _ hip => hip.1
  | touchFakeip k t => exact (exists_of_isForeignKey h).imp fun _ hip => hip.1
  | cleanup => cases h
  | shutdown => cases h
  | _ => trivial

/-- The messages of others leave the rows of the range alone. -/
theorem inRange_foreign {covers : IpAddr → Bool} {op : WriteOp} (h : isForeign covers op = true)
    (db : Database) : inRange covers (applyOp db op).domainOf = inRange covers db.domainOf := by
  cases op with
  | storeFakeip k domain t =>
      obtain ⟨ip, rfl, hout⟩ := exists_of_isForeignKey h
      rw [domainOf_storeFakeip]
      ext1 ip'
      unfold inRange
      split
      · rename_i hin
        have hne : ip' ≠ ip := by
          rintro rfl
          rw [hout] at hin
          cases hin
        exact Function.update_of_ne hne _ _
      · rfl
  | touchFakeip k t => rw [domainOf_touchFakeip]
  | cleanup => rfl
  | shutdown => rfl
  | _ => rfl

/-! ### What a query sends -/

namespace FakeIpStore

theorem allocate_existing {w : Nat} {toIp : BitVec w → IpAddr} {net : Option (BitVec w × BitVec w)}
    {current : Option (BitVec w)} {domainTo : Str → Option (BitVec w)}
    {addrToDomain : IpAddr → Option Str} {domain : Str} {a : BitVec w}
    (h : domainTo domain = some a) :
    allocate toIp net current domainTo addrToDomain domain
      = some ⟨a, current, domainTo, addrToDomain⟩ := by
  rw [allocate, h]

/-- **The message of an answer**: a touch, and the store is as it was, or the new pair. -/
theorem replyWrites_address {store store' : FakeIpStore} {query : Bytes} {domain : Str}
    {addr : IpAddr} (h : store.answer query = (store', .address domain addr)) (file : CacheFile)
    (now : Nat) :
    (store' = store ∧
        store.replyWrites file now (.address domain addr) = file.touchFakeipEntry addr now) ∨
      store.replyWrites file now (.address domain addr)
        = file.storeFakeipEntry addr domain now := by
  rcases answer_eq_address h with ⟨ip, rfl, halloc⟩ | ⟨ip, rfl, halloc⟩
  · show _ ∧ allocateWrites _ _ _ _ _ = _ ∨ allocateWrites _ _ _ _ _ = _
    rcases hdomain : store.inner.domainToV4 domain with _ | a
    · exact .inr rfl
    · rw [allocateV4, allocate_existing hdomain] at halloc
      exact .inl ⟨(Prod.mk.inj halloc).1.symm, rfl⟩
  · show _ ∧ allocateWrites _ _ _ _ _ = _ ∨ allocateWrites _ _ _ _ _ = _
    rcases hdomain : store.inner.domainToV6 domain with _ | a
    · exact .inr rfl
    · rw [allocateV6, allocate_existing hdomain] at halloc
      exact .inl ⟨(Prod.mk.inj halloc).1.symm, rfl⟩

end FakeIpStore

/-! ### The invariant -/

/-- The file gives no domain two addresses of the range. -/
def Unambiguous (covers : IpAddr → Bool) (db : Database) : Prop :=
  OneAddress (inRange covers db.domainOf)

/-- **The invariant of a deployment.** The tables in memory are inverse; wherever the queue is cut,
    the file is unambiguous; and the file with all of the queue says nothing that memory does not
    say. -/
structure Consistent (covers : IpAddr → Bool) (s : Deployment) : Prop where
  contains : s.store.contains = covers
  inverse : s.store.inner.Inverse
  keyed : s.db.Keyed
  pending : ∀ op ∈ s.queue, Pending op
  cuts : EveryCut applyOp (Unambiguous covers) s.db s.queue
  behind : s.file.storeFakeip = true → ∀ ip d,
    inRange covers (replay applyOp s.db s.queue).domainOf ip = some d → s.store.lookup ip = some d
  stored : ∀ ip d, s.db.domainOf ip = some d → s.stored.lookup ip.display = some d

namespace Deployment

/-- A step of the writer takes the oldest operation from the queue and applies it to the database. -/
theorem step_write {s s' : Deployment} (h : s.step .write = some s') :
    ∃ op queue db, s.queue = op :: queue ∧
      writeLoopRecv s.db s.fakeipTtlDays s.now op = some db ∧
      s' = { s with queue, db, stored := recordStored s.stored op } := by
  rcases hqueue : s.queue with _ | ⟨op, queue⟩
  · simp only [step, hqueue] at h
    cases h
  · simp only [step, hqueue, Option.map_eq_some_iff] at h
    obtain ⟨db, hdb, rfl⟩ := h
    exact ⟨op, queue, db, rfl, hdb, rfl⟩

/-- A restart that succeeds, with the ranges it had. -/
theorem step_restart {s s' : Deployment} {cfg : FakeIpConfig} {storeFakeip : Bool} {days : UInt32}
    {storeDns : Bool} (h : s.step (.restart cfg storeFakeip days storeDns) = some s') :
    boot s.db s.now s.stored s.answers cfg storeFakeip days storeDns = .ok s' ∧
      s'.store.inet4Net = s.store.inet4Net ∧ s'.store.inet6Net = s.store.inet6Net := by
  rcases hboot : boot s.db s.now s.stored s.answers cfg storeFakeip days storeDns with e | s₁
  · simp only [step, hboot] at h
    cases h
  · simp only [step, hboot] at h
    split at h
    · rename_i hnets
      obtain rfl := Option.some.inj h
      exact ⟨rfl, hnets⟩
    · cases h

/-- A start that succeeds has a new store, with the rows of the opened file restored into it if they are kept, and
    nothing in the queue. -/
theorem boot_eq_ok {db : Database} {now : Nat} {stored : List (Str × Str)}
    {answers : List (IpAddr × Str × Nat)} {cfg : FakeIpConfig} {storeFakeip : Bool} {days : UInt32}
    {storeDns : Bool} {s : Deployment}
    (h : boot db now stored answers cfg storeFakeip days storeDns = .ok s) :
    ∃ store, FakeIpStore.new cfg = .ok store ∧
      s = { store := if storeFakeip then
              store.restore (loadAllFakeip (openCacheFile db storeFakeip days storeDns now).2)
              else store
            file := ⟨storeFakeip, storeDns⟩
            fakeipTtlDays := days
            queue := []
            db := (openCacheFile db storeFakeip days storeDns now).2
            now := now
            stored := stored
            answers := answers } := by
  unfold boot FakeIpStore.newWithCache at h
  rcases hnew : FakeIpStore.new cfg with e | store
  · rw [hnew] at h
    cases h
  · rw [hnew] at h
    refine ⟨store, rfl, ?_⟩
    cases storeFakeip with
    | false => exact (Except.ok.inj h).symm
    | true => exact (Except.ok.inj h).symm

theorem below_openCacheFile (db : Database) (storeFakeip : Bool) (days : UInt32) (storeDns : Bool)
    (now : Nat) : Below (openCacheFile db storeFakeip days storeDns now).2 db := by
  cases storeFakeip with
  | true => exact below_of_filter fun k => row_openCacheFile db days storeDns now k
  | false =>
      -- without FakeIP rows to keep, the clean-up at start leaves the table alone
      cases storeDns <;> exact fun k d hd => hd

/-- **A start.** Memory holds the rows of the range, or nothing where rows are not kept. -/
theorem boot_spec {covers : IpAddr → Bool} {db : Database} {now : Nat} {stored : List (Str × Str)}
    {answers : List (IpAddr × Str × Nat)} {cfg : FakeIpConfig} {storeFakeip : Bool} {days : UInt32}
    {storeDns : Bool} {s : Deployment}
    (h : boot db now stored answers cfg storeFakeip days storeDns = .ok s)
    (hcovers : s.store.contains = covers) (hkeyed : db.Keyed) (hone : Unambiguous covers db)
    (hstored : ∀ ip d, db.domainOf ip = some d → stored.lookup ip.display = some d) :
    Consistent covers s ∧
      s.store.lookup = if storeFakeip then inRange covers s.db.domainOf else fun _ => none := by
  obtain ⟨store, hnew, rfl⟩ := boot_eq_ok h
  obtain ⟨hinv, hempty⟩ := FakeIpStore.inverse_new hnew
  -- opening the file only takes rows away
  have hbelow := below_openCacheFile db storeFakeip days storeDns now
  have hopen : Unambiguous covers (openCacheFile db storeFakeip days storeDns now).2 :=
    hone.mono fun ip d hd => hbelow.inRange hd
  have hkeyed' := hbelow.keyed hkeyed
  have hlog : ∀ ip d, (openCacheFile db storeFakeip days storeDns now).2.domainOf ip = some d →
      stored.lookup ip.display = some d := fun ip d hd => hstored ip d (hbelow.domainOf hd)
  have hpending : ∀ op ∈ ([] : List WriteOp), Pending op := fun op hop => (nomatch hop)
  cases storeFakeip with
  | false =>
      refine ⟨⟨hcovers, hinv, hkeyed', hpending, hopen, fun hoff => (nomatch hoff), hlog⟩, hempty⟩
  | true =>
      -- restoring rows leaves the ranges, so the two stores cover the same addresses
      have hcovers' : store.contains = covers := by
        rw [← hcovers]
        obtain ⟨h4, h6⟩ := FakeIpStore.restore_nets store
          (loadAllFakeip (openCacheFile db true days storeDns now).2)
        exact (FakeIpStore.contains_eq_of_nets h4 h6).symm
      subst hcovers'
      obtain ⟨hinverse, hlookup⟩ := FakeIpStore.restore_spec hopen hinv hempty
        fun ip d => mem_loadAllFakeip hkeyed'
      refine ⟨⟨hcovers, hinverse, hkeyed', hpending, hopen, fun _ ip d hd => ?_, hlog⟩, hlookup⟩
      show (store.restore _).lookup ip = some d
      rw [hlookup]
      exact hd

end Deployment

/-! ### Steps -/

section Steps

variable {covers : IpAddr → Bool} {s s' : Deployment}

/-- A message of another part of the program. -/
theorem Consistent.send (h : Consistent covers s) {op : WriteOp} (hstep : s.step (.send op) = some s') :
    Consistent covers s' := by
  have hstep' : (if isForeign s.store.contains op then
      some { s with queue := s.queue ++ [op] } else none) = some s' := hstep
  rw [h.contains] at hstep'
  split at hstep'
  · rename_i hforeign
    obtain rfl := Option.some.inj hstep'
    have hlast : inRange covers (replay applyOp s.db (s.queue ++ [op])).domainOf
        = inRange covers (replay applyOp s.db s.queue).domainOf := by
      rw [replay_append]
      exact inRange_foreign hforeign _
    refine ⟨h.contains, h.inverse, h.keyed, ?_, everyCut_append.mpr ⟨h.cuts, ?_⟩, ?_, h.stored⟩
    · intro op' hop'
      rcases List.mem_append.mp hop' with hold | hnew
      · exact h.pending op' hold
      · rw [List.mem_singleton.mp hnew]
        exact pending_of_foreign hforeign
    · show OneAddress _
      rw [inRange_foreign hforeign]
      exact h.cuts.last
    · intro hon ip d hd
      have hd' : inRange covers (replay applyOp s.db (s.queue ++ [op])).domainOf ip = some d := hd
      rw [hlast] at hd'
      exact h.behind hon ip d hd'
  · cases hstep'

/-- The writer applies the first message of the queue, and memory, queue and file stay consistent. -/
theorem Consistent.write (h : Consistent covers s) (hstep : s.step .write = some s') :
    Consistent covers s' := by
  obtain ⟨op, queue, db, hqueue, hrecv, rfl⟩ := Deployment.step_write hstep
  have hpending : Pending op := h.pending op (by rw [hqueue]; exact List.mem_cons_self ..)
  rw [hpending.recv] at hrecv
  obtain rfl := Option.some.inj hrecv
  have hcuts := h.cuts
  have hbehind := h.behind
  rw [hqueue] at hcuts hbehind
  refine ⟨h.contains, h.inverse, hpending.keyed h.keyed, ?_, hcuts.2, hbehind, ?_⟩
  · intro op' hop'
    exact h.pending op' (by rw [hqueue]; exact List.mem_cons_of_mem _ hop')
  · intro ip d hd
    have hd' : (applyOp s.db op).domainOf ip = some d := hd
    cases op with
    | storeFakeip k domain t =>
        obtain ⟨ip₀, rfl⟩ := hpending
        rw [domainOf_storeFakeip] at hd'
        show ((ip₀.display, domain) :: s.stored).lookup ip.display = some d
        rcases Transition.update_eq_some hd' with ⟨rfl, rfl⟩ | ⟨hne, hold⟩
        · exact List.lookup_cons_self
        · rw [List.lookup_cons, beq_false_of_ne fun heq => hne (IpAddr.display_injective heq)]
          exact h.stored ip d hold
    | touchFakeip k t =>
        rw [domainOf_touchFakeip] at hd'
        exact h.stored ip d hd'
    | _ => exact h.stored ip d hd'

/-- A file with fewer rows, such as a clean-up leaves, is as good. -/
theorem Consistent.shrink (h : Consistent covers s) {db : Database} (hbelow : Below db s.db) :
    Consistent covers { s with db := db } := by
  have hmono : ∀ db db', Below db db' → Unambiguous covers db' → Unambiguous covers db :=
    fun db db' hb hone => hone.mono fun ip d hd => hb.inRange hd
  refine ⟨h.contains, h.inverse, hbelow.keyed h.keyed, h.pending,
    h.cuts.mono below_applyOp hmono hbelow, ?_, ?_⟩
  · intro hon ip d hd
    have hreplay : Below (replay applyOp db s.queue) (replay applyOp s.db s.queue) :=
      replay_mono below_applyOp hbelow
    exact h.behind hon ip d (hreplay.inRange hd)
  · intro ip d hd
    exact h.stored ip d (hbelow.domainOf hd)

/-- A restart keeps the invariant, and the new store looks up what the file has in the new ranges. -/
theorem Consistent.restart (h : Consistent covers s) {cfg : FakeIpConfig} {storeFakeip : Bool}
    {days : UInt32} {storeDns : Bool}
    (hstep : s.step (.restart cfg storeFakeip days storeDns) = some s') :
    Consistent covers s' ∧
      s'.store.lookup = if storeFakeip then inRange covers s'.db.domainOf else fun _ => none := by
  obtain ⟨hboot, h4, h6⟩ := Deployment.step_restart hstep
  have hcovers : s'.store.contains = covers :=
    (FakeIpStore.contains_eq_of_nets h4 h6).trans h.contains
  exact Deployment.boot_spec hboot hcovers h.keyed h.cuts.here h.stored

/-- A message of this store at the end of the queue: memory says already what it will say. -/
theorem Consistent.append (h : Consistent covers s) {store : FakeIpStore}
    (hcontains : store.contains = covers) (hinv : store.inner.Inverse) {op : WriteOp}
    (hpending : Pending op)
    (hbehind : ∀ ip d, inRange covers (applyOp (replay applyOp s.db s.queue) op).domainOf ip = some d →
      store.lookup ip = some d) (answers : List (IpAddr × Str × Nat)) :
    Consistent covers { s with store, queue := s.queue ++ [op], answers } := by
  refine ⟨hcontains, hinv, h.keyed, ?_, everyCut_append.mpr ⟨h.cuts, ?_⟩, ?_, h.stored⟩
  · intro op' hop'
    rcases List.mem_append.mp hop' with hold | hnew
    · exact h.pending op' hold
    · rw [List.mem_singleton.mp hnew]
      exact hpending
  · -- the new cut is below memory, where no domain has two addresses
    exact hinv.oneAddress.mono hbehind
  · intro _ ip d hd
    have hd' : inRange covers (replay applyOp s.db (s.queue ++ [op])).domainOf ip = some d := hd
    rw [replay_append] at hd'
    exact hbehind ip d hd'

/-- An answer with an address keeps memory, queue and file consistent. -/
theorem Consistent.answered (h : Consistent covers s) {store : FakeIpStore} {query : Bytes}
    {domain : Str} {addr : IpAddr}
    (hanswer : s.store.answer query = (store, .address domain addr))
    (answers : List (IpAddr × Str × Nat)) :
    Consistent covers { s with
      store, answers
      queue := s.queue ++ s.store.replyWrites s.file s.now (.address domain addr) } := by
  have hout := FakeIpStore.answer_outcome h.inverse query
  rw [hanswer] at hout
  have hanswered : s.store.Answered store domain addr := hout
  obtain ⟨h4, h6⟩ := FakeIpStore.answer_nets h.inverse hanswer
  have hcontains := (FakeIpStore.contains_eq_of_nets h4 h6).trans h.contains
  cases hfile : s.file.storeFakeip with
  | false =>
      -- nothing is sent
      have hnone : s.store.replyWrites s.file s.now (.address domain addr) = [] := by
        rcases FakeIpStore.replyWrites_address hanswer s.file s.now with ⟨-, hw⟩ | hw
        · rw [hw, CacheFile.touchFakeipEntry, hfile]
          rfl
        · rw [hw, CacheFile.storeFakeipEntry, hfile]
          rfl
      rw [hnone, List.append_nil]
      refine ⟨hcontains, hanswered.inverse, h.keyed, h.pending, h.cuts, fun hon => ?_, h.stored⟩
      rw [show s.file.storeFakeip = false from hfile] at hon
      cases hon
  | true =>
      have hbehind := h.behind hfile
      rcases FakeIpStore.replyWrites_address hanswer s.file s.now with ⟨rfl, hw⟩ | hw
      · rw [hw, CacheFile.touchFakeipEntry, hfile]
        have hpending : Pending (.touchFakeip addr.display s.now) := ⟨addr, rfl⟩
        refine h.append hcontains hanswered.inverse hpending (fun ip d hd => ?_) answers
        rw [domainOf_touchFakeip] at hd
        exact hbehind ip d hd
      · rw [hw, CacheFile.storeFakeipEntry, hfile]
        have hpending : Pending (.storeFakeip addr.display domain s.now) := ⟨addr, rfl⟩
        refine h.append hcontains hanswered.inverse hpending (fun ip d hd => ?_) answers
        obtain ⟨hc, hd⟩ := inRange_eq_some.mp hd
        rw [domainOf_storeFakeip] at hd
        show store.inner.addrToDomain ip = some d
        rw [hanswered.addrToDomain]
        rcases Transition.update_eq_some hd with ⟨rfl, rfl⟩ | ⟨hne, hold⟩
        · exact Function.update_self ..
        · rw [Function.update_of_ne hne]
          exact hbehind ip d (inRange_eq_some.mpr ⟨hc, hold⟩)

/-- **A query**, whatever it is answered with, keeps memory, queue and file consistent. -/
theorem Consistent.reply (h : Consistent covers s) {query : Bytes}
    (hstep : s.step (.reply query) = some s') : Consistent covers s' := by
  have hout := FakeIpStore.answer_outcome h.inverse query
  rcases hanswer : s.store.answer query with ⟨store, answer⟩
  simp only [Deployment.step, hanswer] at hstep
  rw [hanswer] at hout
  obtain rfl := Option.some.inj hstep
  cases answer with
  | address domain addr => exact h.answered hanswer _
  | _ =>
      obtain rfl : store = s.store := hout
      show Consistent covers { s with queue := s.queue ++ [], answers := _ }
      rw [List.append_nil]
      exact ⟨h.contains, h.inverse, h.keyed, h.pending, h.cuts, h.behind, h.stored⟩

/-- **One event**, be it a query, a write, a cleanup or a restart, keeps the invariant. -/
theorem Consistent.step (h : Consistent covers s) {event : FileEvent}
    (hstep : s.step event = some s') : Consistent covers s' := by
  cases event with
  | reply query => exact h.reply hstep
  | setStrategy strategy =>
      obtain rfl := Option.some.inj hstep
      refine ⟨?_, h.inverse, h.keyed, h.pending, h.cuts, h.behind, h.stored⟩
      rw [← h.contains]
      exact FakeIpStore.contains_eq_of_nets rfl rfl
  | send op => exact h.send hstep
  | write => exact h.write hstep
  | cleanup =>
      obtain rfl := Option.some.inj hstep
      exact h.shrink (below_of_filter fun k => row_doCleanup s.db s.fakeipTtlDays s.now k)
  | clock t =>
      obtain rfl := Option.some.inj hstep
      exact ⟨h.contains, h.inverse, h.keyed, h.pending, h.cuts, h.behind, h.stored⟩
  | restart cfg storeFakeip days storeDns => exact (h.restart hstep).1

end Steps

/-! ### Whole histories -/

theorem consistent_start {now : Nat} {cfg : FakeIpConfig} {storeFakeip : Bool} {days : UInt32}
    {storeDns : Bool} {s : Deployment}
    (h : Deployment.start now cfg storeFakeip days storeDns = .ok s) :
    Consistent s.store.contains s ∧
      s.store.lookup = if storeFakeip then inRange s.store.contains s.db.domainOf
        else fun _ => none := by
  refine Deployment.boot_spec h rfl ?_ ⟨?_, ?_⟩ ?_
  · intro k row hrow
    cases hrow
  · intro a a' d ha
    cases (inRange_eq_some.mp ha).2
  · intro a a' d ha
    cases (inRange_eq_some.mp ha).2
  · intro ip d hd
    cases hd

theorem consistent_run {now : Nat} {cfg : FakeIpConfig} {storeFakeip : Bool} {days : UInt32}
    {storeDns : Bool} {s₀ s : Deployment} {events : List FileEvent}
    (hstart : Deployment.start now cfg storeFakeip days storeDns = .ok s₀)
    (hrun : Transition.run Deployment.step s₀ events = some s) :
    Consistent s₀.store.contains s :=
  Transition.invariant_of_steps (fun _ _ _ hstep h => h.step hstep) hrun (consistent_start hstart).1

/-- **Restarts.** After any history of queries, writer steps, clean-ups and restarts with the same
    ranges, each restart cutting the queue of messages wherever the writer has got to: the tables
    in memory are inverse in both families, and a further restart leads to tables that are inverse
    again and give each address the domain the writer last stored for it. -/
theorem restart_inverse_lastStored (now : Nat) (cfg : FakeIpConfig) (storeFakeip : Bool)
    (days : UInt32) (storeDns : Bool) (s₀ s : Deployment) (events : List FileEvent)
    (hstart : Deployment.start now cfg storeFakeip days storeDns = .ok s₀)
    (hrun : Transition.run Deployment.step s₀ events = some s) :
    (∀ d a, s.store.inner.domainToV4 d = some a ↔ s.store.inner.addrToDomain (.v4 a) = some d) ∧
      (∀ d a, s.store.inner.domainToV6 d = some a ↔ s.store.inner.addrToDomain (.v6 a) = some d) ∧
      ∀ cfg' storeFakeip' days' storeDns' s',
        s.step (.restart cfg' storeFakeip' days' storeDns') = some s' →
        (∀ d a, s'.store.inner.domainToV4 d = some a ↔ s'.store.inner.addrToDomain (.v4 a) = some d) ∧
          (∀ d a, s'.store.inner.domainToV6 d = some a ↔
            s'.store.inner.addrToDomain (.v6 a) = some d) ∧
          ∀ ip d, s'.store.lookup ip = some d → s.stored.lookup ip.display = some d := by
  have hc := consistent_run hstart hrun
  refine ⟨hc.inverse.v4, hc.inverse.v6, fun cfg' storeFakeip' days' storeDns' s' hstep => ?_⟩
  obtain ⟨hc', hlookup⟩ := hc.restart hstep
  refine ⟨hc'.inverse.v4, hc'.inverse.v6, fun ip d hd => ?_⟩
  obtain ⟨hboot, -, -⟩ := Deployment.step_restart hstep
  obtain ⟨store, -, rfl⟩ := Deployment.boot_eq_ok hboot
  rw [hlookup] at hd
  cases storeFakeip' with
  | false => cases hd
  | true => exact hc'.stored ip d (inRange_eq_some.mp hd).2

/-- A range of four addresses. -/
def smallConfig : FakeIpConfig := { inet4Range := some "198.18.0.0/30".toList }

/-- `a` is answered and its row written; the restart restores it, and a further one would again. -/
theorem restart_inverse_lastStored_small :
    ∃ s₀ s, Deployment.start 0 smallConfig true 7 false = .ok s₀ ∧
      Transition.run Deployment.step s₀
        [.reply queryA, .write, .reply queryA, .restart smallConfig true 7 false] = some s ∧
      s.store.lookup (.v4 0xC6120002) = some "a".toList ∧
      ∀ d a, s.store.inner.domainToV4 d = some a ↔ s.store.inner.addrToDomain (.v4 a) = some d := by
  obtain ⟨s₀, hstart, hany⟩ := exists_eq_ok_of_any
    (x := Deployment.start 0 smallConfig true 7 false)
    (p := fun (s₀ : Deployment) => (Transition.run Deployment.step s₀
      [.reply queryA, .write, .reply queryA, .restart smallConfig true 7 false]).any fun (s : Deployment) =>
        decide (s.store.lookup (.v4 0xC6120002) = some "a".toList))
    (by decide +kernel)
  obtain ⟨s, hrun, hlookup⟩ := (Option.any_eq_true _ _).mp hany
  exact ⟨s₀, s, hstart, hrun, of_decide_eq_true hlookup,
    (restart_inverse_lastStored 0 smallConfig true 7 false s₀ s _ hstart hrun).1⟩

end Reflex.Dns
