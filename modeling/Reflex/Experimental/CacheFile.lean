import Mathlib.Data.Char
import Mathlib.Data.List.AList
import Mathlib.Data.List.Lex
import Mathlib.Data.List.Sort
import Reflex.RustStd.NetDisplay

namespace Reflex.Experimental

open RustStd

/-!
# Experimental — the cache file

The tables of `experimental/cache_file.rs`, the messages its writer task applies to them one by
one, and the clean-up of old rows.  Failures of the database itself are not modelled.

* `row_storeFakeip`, `row_touchFakeip` — what a message does to the rows of the FakeIP table;
* `row_purgeStaleFakeip` — a clean-up keeps exactly the rows that are young enough;
* `mem_loadAllFakeip` — what a restart reads back;
* `lookup_purgeExpiredDns` — the DNS records a clean-up keeps.
-/

/-! ### Tables -/

/-- A table of the database. -/
abbrev Table (K V : Type) := AList fun _ : K => V

/-- `iter` of a table: its rows in the order of their keys. -/
def rows {K V : Type} [LE K] [DecidableLE K] (table : Table K V) : List (K × V) :=
  (table.entries.map fun row => (row.1, row.2)).insertionSort fun a b => a.1 ≤ b.1

theorem mem_rows {K V : Type} [LE K] [DecidableLE K] [DecidableEq K] {table : Table K V} {k : K}
    {v : V} : (k, v) ∈ rows table ↔ table.lookup k = some v := by
  rw [rows, List.mem_insertionSort, List.mem_map]
  constructor
  · rintro ⟨⟨k', v'⟩, hrow, heq⟩
    obtain ⟨rfl, rfl⟩ := Prod.mk.inj heq
    exact AList.mem_lookup_iff.mpr hrow
  · intro hlookup
    exact ⟨⟨k, v⟩, AList.mem_lookup_iff.mp hlookup, rfl⟩

/-- The database: the rows of FakeIP and of DNS answers come with a time in seconds. -/
structure Database where
  fakeip : Table Str (Nat × Str)
  dnsCache : Table Bytes (Nat × Bytes)
  selected : Table Str Str
  rulesetCache : Table Str Bytes

/-- A new database. -/
def Database.create : Database := ⟨∅, ∅, ∅, ∅⟩

/-! ### Messages to the writer -/

/-- `WriteOp`. -/
inductive WriteOp where
  | storeFakeip (ip domain : Str) (lastSeen : Nat)
  | touchFakeip (ip : Str) (lastSeen : Nat)
  | saveDns (key : Bytes) (expireAt : Nat) (raw : Bytes)
  | storeSelected (group selected : Str)
  | storeRuleset (tag : Str) (data : Bytes)
  | cleanup
  | shutdown

/-- `encode_dns_key`: the key of a row of the DNS table. -/
def encodeDnsKey (transport qname : Str) (qtype : UInt16) : Bytes :=
  let t := utf8 transport
  let q := toAsciiLowercase qname
  let qb := utf8 q
  beBytes 2 (t.length % 65536) ++ t ++ qb ++ [0] ++ beBytes 2 qtype.toNat

/-- `CacheFile`; its channel is the queue of the process. -/
structure CacheFile where
  storeFakeip : Bool
  storeDns : Bool

namespace CacheFile

/-- `CacheFile::store_fakeip_entry`: the message sent. -/
def storeFakeipEntry (file : CacheFile) (ip : IpAddr) (domain : Str) (now : Nat) : List WriteOp :=
  if file.storeFakeip then [.storeFakeip ip.display domain now] else []

/-- `CacheFile::touch_fakeip_entry`: the message sent. -/
def touchFakeipEntry (file : CacheFile) (ip : IpAddr) (now : Nat) : List WriteOp :=
  if file.storeFakeip then [.touchFakeip ip.display now] else []

/-- `CacheFile::save_dns_cache_async`: the message sent. -/
def saveDnsCacheAsync (file : CacheFile) (transport qname : Str) (qtype : UInt16) (raw : Bytes)
    (expireAtSecs : Nat) : List WriteOp :=
  if file.storeDns then [.saveDns (encodeDnsKey transport qname qtype) expireAtSecs raw] else []

end CacheFile

/-! ### The writer -/

/-- `apply_op`. -/
def applyOp (db : Database) : WriteOp → Database
  | .storeFakeip ip domain lastSeen =>
      { db with fakeip := db.fakeip.insert ip (lastSeen, domain) }
  | .touchFakeip ip lastSeen =>
      match db.fakeip.lookup ip with
      | some (_, domain) => { db with fakeip := db.fakeip.insert ip (lastSeen, domain) }
      | none => db
  | .saveDns key expireAt raw => { db with dnsCache := db.dnsCache.insert key (expireAt, raw) }
  | .storeSelected group selected => { db with selected := db.selected.insert group selected }
  | .storeRuleset tag data => { db with rulesetCache := db.rulesetCache.insert tag data }
  | .cleanup => db
  | .shutdown => db

/-- The keys of the rows that a purge removes. -/
def staleKeys {K V : Type} [LE K] [DecidableLE K] (isStale : V → Bool) (table : Table K V) :
    List K :=
  (rows table).filterMap fun row => if isStale row.2 then some row.1 else none

/-- The shared body of `purge_expired_dns` and `purge_stale_fakeip`: the keys of the rows to go are
    collected first, then removed. -/
def purge {K V : Type} [LE K] [DecidableLE K] [DecidableEq K] (isStale : V → Bool)
    (table : Table K V) : Table K V × Nat :=
  let stale := staleKeys isStale table
  if stale.isEmpty then (table, 0)
  else (stale.foldl (fun table k => table.erase k) table, stale.length)

/-- `purge_expired_dns`. -/
def purgeExpiredDns (db : Database) (nowSecs : Nat) : Database × Nat :=
  let (dnsCache, count) := purge (fun row => decide (row.1 ≤ nowSecs)) db.dnsCache
  ({ db with dnsCache }, count)

/-- `purge_stale_fakeip`. -/
def purgeStaleFakeip (db : Database) (cutoffSecs : Nat) : Database × Nat :=
  let (fakeip, count) := purge (fun row => decide (row.1 < cutoffSecs)) db.fakeip
  ({ db with fakeip }, count)

/-- `do_cleanup`. -/
def doCleanup (db : Database) (fakeipTtlDays : UInt32) (now : Nat) : Database :=
  let db := (purgeExpiredDns db now).1
  if 0 < fakeipTtlDays then (purgeStaleFakeip db (now - fakeipTtlDays.toNat * 86400)).1 else db

/-- What `write_loop` does with a received message; `none` ends the loop. -/
def writeLoopRecv (db : Database) (fakeipTtlDays : UInt32) (now : Nat) : WriteOp → Option Database
  | .shutdown => none
  | .cleanup => some (doCleanup db fakeipTtlDays now)
  | op => some (applyOp db op)

/-- `open_cache_file` on an existing database: the writer's handle, and the tables after the
    clean-up at start. -/
def openCacheFile (db : Database) (storeFakeip : Bool) (fakeipTtlDays : UInt32) (storeDns : Bool)
    (now : Nat) : CacheFile × Database :=
  let db := if storeFakeip && decide (0 < fakeipTtlDays) then
      (purgeStaleFakeip db (now - fakeipTtlDays.toNat * 86400)).1 else db
  let db := if storeDns then (purgeExpiredDns db now).1 else db
  (⟨storeFakeip, storeDns⟩, db)

/-- `CacheFileReader::load_all_fakeip`. -/
def loadAllFakeip (db : Database) : List (IpAddr × Str) :=
  (rows db.fakeip).filterMap fun row =>
    match IpAddr.fromStr row.1 with
    | some ip => some (ip, row.2.2)
    | none => none

/-- `CacheFileReader::load_dns_cache`. -/
def loadDnsCache (storeDns : Bool) (db : Database) (transport qname : Str) (qtype : UInt16) :
    Option (Bytes × Nat) :=
  if storeDns then
    (db.dnsCache.lookup (encodeDnsKey transport qname qtype)).map fun row => (row.2, row.1)
  else none

/-! ### The rows of the FakeIP table -/

/-- The row of a key. -/
def Database.row (db : Database) (k : Str) : Option (Nat × Str) := db.fakeip.lookup k

/-- The domain in the row of an address. -/
def Database.domainOf (db : Database) (ip : IpAddr) : Option Str := (db.row ip.display).map (·.2)

/-- Every key of the FakeIP table is the text of an address. -/
def Database.Keyed (db : Database) : Prop :=
  ∀ k row, db.row k = some row → ∃ ip : IpAddr, k = ip.display

theorem row_storeFakeip (db : Database) (k domain : Str) (t : Nat) :
    (applyOp db (.storeFakeip k domain t)).row = Function.update db.row k (some (t, domain)) := by
  ext1 k'
  by_cases h : k' = k
  · subst h
    rw [Function.update_self]
    exact AList.lookup_insert _
  · rw [Function.update_of_ne h]
    exact AList.lookup_insert_ne h

/-- A touch refreshes the row that is there. -/
theorem row_touchFakeip (db : Database) (k : Str) (t : Nat) :
    (applyOp db (.touchFakeip k t)).row
      = Function.update db.row k ((db.row k).map fun row => (t, row.2)) := by
  rcases hrow : db.row k with _ | ⟨t', domain⟩
  · have hidle : applyOp db (.touchFakeip k t) = db := by
      show (match db.row k with
        | some (_, domain) => _
        | none => db) = db
      rw [hrow]
    rw [hidle]
    exact (Function.update_eq_self_iff.mpr hrow.symm).symm
  · have hstore : applyOp db (.touchFakeip k t) = applyOp db (.storeFakeip k domain t) := by
      show (match db.row k with
        | some (_, domain) => _
        | none => db) = _
      rw [hrow]
      rfl
    rw [hstore, row_storeFakeip]
    rfl

/-- A message that is not about a row leaves it alone. -/
theorem row_applyOp_of_ne {op : WriteOp} {k : Str} (hstore : ∀ domain t, op ≠ .storeFakeip k domain t)
    (htouch : ∀ t, op ≠ .touchFakeip k t) (db : Database) : (applyOp db op).row k = db.row k := by
  cases op with
  | storeFakeip k' domain t =>
      rw [row_storeFakeip]
      exact Function.update_of_ne (fun hk => hstore domain t (by rw [hk])) _ _
  | touchFakeip k' t =>
      rw [row_touchFakeip]
      exact Function.update_of_ne (fun hk => htouch t (by rw [hk])) _ _
  | _ => rfl

theorem domainOf_storeFakeip (db : Database) (ip : IpAddr) (domain : Str) (t : Nat) :
    (applyOp db (.storeFakeip ip.display domain t)).domainOf
      = Function.update db.domainOf ip (some domain) := by
  ext1 ip'
  show Option.map _ ((applyOp db (.storeFakeip ip.display domain t)).row ip'.display) = _
  rw [row_storeFakeip]
  by_cases h : ip' = ip
  · subst h
    rw [Function.update_self, Function.update_self]
    rfl
  · rw [Function.update_of_ne h, Function.update_of_ne fun heq => h (IpAddr.display_injective heq)]
    rfl

theorem domainOf_touchFakeip (db : Database) (k : Str) (t : Nat) :
    (applyOp db (.touchFakeip k t)).domainOf = db.domainOf := by
  ext1 ip
  show Option.map _ ((applyOp db (.touchFakeip k t)).row ip.display) = _
  rw [row_touchFakeip]
  by_cases h : ip.display = k
  · rw [h, Function.update_self, Option.map_map, Database.domainOf, h]
    rfl
  · rw [Function.update_of_ne h]
    rfl

theorem lookup_foldl_erase {K V : Type} [DecidableEq K] (stale : List K) (table : Table K V)
    (k : K) : (stale.foldl (fun table k => table.erase k) table).lookup k
      = if k ∈ stale then none else table.lookup k := by
  induction stale generalizing table with
  | nil => rfl
  | cons k' stale ih =>
      rw [List.foldl_cons, ih]
      by_cases hk : k = k'
      · subst hk
        rw [AList.lookup_erase, if_pos (List.mem_cons_self ..), ite_self]
      · rw [AList.lookup_erase_ne hk]
        simp only [List.mem_cons, hk, false_or]

theorem mem_staleKeys {K V : Type} [LE K] [DecidableLE K] [DecidableEq K] {isStale : V → Bool}
    {table : Table K V} {k : K} :
    k ∈ staleKeys isStale table ↔ ∃ v, table.lookup k = some v ∧ isStale v = true := by
  rw [staleKeys, List.mem_filterMap]
  constructor
  · rintro ⟨⟨k', v⟩, hrow, hsome⟩
    split at hsome
    · rename_i hstale
      obtain rfl := Option.some.inj hsome
      exact ⟨v, mem_rows.mp hrow, hstale⟩
    · cases hsome
  · rintro ⟨v, hlookup, hstale⟩
    exact ⟨(k, v), mem_rows.mpr hlookup, by rw [if_pos hstale]⟩

/-- **A purge** keeps exactly the rows that are not stale. -/
theorem lookup_purge {K V : Type} [LE K] [DecidableLE K] [DecidableEq K] (isStale : V → Bool)
    (table : Table K V) (k : K) :
    (purge isStale table).1.lookup k = (table.lookup k).filter fun v => !isStale v := by
  have herase : (purge isStale table).1.lookup k
      = if k ∈ staleKeys isStale table then none else table.lookup k := by
    rw [purge]
    -- with nothing to remove the table is returned as it is
    rcases staleKeys isStale table with _ | ⟨k', stale⟩
    · rfl
    · exact lookup_foldl_erase (k' :: stale) table k
  rw [herase]
  rcases hlookup : table.lookup k with _ | v
  · exact ite_self none
  · rcases hstale : isStale v with _ | _
    · have hkept : k ∉ staleKeys isStale table := by
        intro h
        obtain ⟨v', hv', hstale'⟩ := mem_staleKeys.mp h
        obtain rfl := Option.some.inj (hlookup.symm.trans hv')
        rw [hstale] at hstale'
        cases hstale'
      rw [if_neg hkept, Option.filter_some, hstale]
      rfl
    · rw [if_pos (mem_staleKeys.mpr ⟨v, hlookup, hstale⟩), Option.filter_some, hstale]
      rfl

theorem row_purgeStaleFakeip (db : Database) (cutoff : Nat) (k : Str) :
    (purgeStaleFakeip db cutoff).1.row k
      = (db.row k).filter fun row => decide (cutoff ≤ row.1) := by
  show (purge (fun row => decide (row.1 < cutoff)) db.fakeip).1.lookup k = _
  rw [lookup_purge]
  show Option.filter _ (db.row k) = _
  congr 1
  ext row
  rw [← decide_not]
  exact decide_eq_decide.mpr Nat.not_lt

/-- The rows a clean-up keeps: all of them without a lifetime. -/
def kept (fakeipTtlDays : UInt32) (now : Nat) (row : Nat × Str) : Bool :=
  decide (0 < fakeipTtlDays → now - fakeipTtlDays.toNat * 86400 ≤ row.1)

theorem row_doCleanup (db : Database) (days : UInt32) (now : Nat) (k : Str) :
    (doCleanup db days now).row k = (db.row k).filter (kept days now) := by
  unfold doCleanup
  by_cases hdays : 0 < days
  · rw [if_pos hdays, row_purgeStaleFakeip]
    show (db.row k).filter _ = _
    congr 1
    ext row
    exact decide_eq_decide.mpr ⟨fun h _ => h, fun h => h hdays⟩
  · rw [if_neg hdays]
    show db.row k = _
    rcases db.row k with _ | row
    · rfl
    · rw [Option.filter_some, kept, decide_eq_true fun h => absurd h hdays]
      rfl

theorem row_openCacheFile (db : Database) (days : UInt32) (storeDns : Bool) (now : Nat) (k : Str) :
    (openCacheFile db true days storeDns now).2.row k = (db.row k).filter (kept days now) := by
  -- the clean-up at start does to this table what a periodic one does
  rw [← row_doCleanup]
  unfold openCacheFile doCleanup
  by_cases hdays : 0 < days
  · rw [decide_eq_true hdays, if_pos hdays]
    cases storeDns <;> rfl
  · rw [decide_eq_false hdays, if_neg hdays]
    cases storeDns <;> rfl

/-- **What a restart reads back** is the table. -/
theorem mem_loadAllFakeip {db : Database} (hkeyed : db.Keyed) {ip : IpAddr} {domain : Str} :
    (ip, domain) ∈ loadAllFakeip db ↔ db.domainOf ip = some domain := by
  rw [loadAllFakeip, List.mem_filterMap, Database.domainOf, Option.map_eq_some_iff]
  constructor
  · rintro ⟨⟨k, row⟩, hrow, hsome⟩
    have hlookup := mem_rows.mp hrow
    obtain ⟨ip', rfl⟩ := hkeyed k row hlookup
    rw [IpAddr.fromStr_display] at hsome
    obtain ⟨rfl, rfl⟩ := Prod.mk.inj (Option.some.inj hsome)
    exact ⟨row, hlookup, rfl⟩
  · rintro ⟨row, hlookup, rfl⟩
    refine ⟨(ip.display, row), mem_rows.mpr hlookup, ?_⟩
    rw [IpAddr.fromStr_display]

/-! ### The rows of the DNS table -/

theorem lookup_saveDns (db : Database) (key : Bytes) (expireAt : Nat) (raw key' : Bytes) :
    (applyOp db (.saveDns key expireAt raw)).dnsCache.lookup key'
      = if key' = key then some (expireAt, raw) else db.dnsCache.lookup key' := by
  split
  · rename_i h
    subst h
    exact AList.lookup_insert _
  · rename_i h
    exact AList.lookup_insert_ne h

theorem dnsCache_applyOp (db : Database) {op : WriteOp}
    (h : ∀ key expireAt raw, op ≠ .saveDns key expireAt raw) : (applyOp db op).dnsCache = db.dnsCache := by
  cases op with
  | saveDns key expireAt raw => exact absurd rfl (h key expireAt raw)
  | touchFakeip ip t =>
      unfold applyOp
      dsimp only
      split <;> rfl
  | _ => rfl

theorem lookup_purgeExpiredDns (db : Database) (now : Nat) (key : Bytes) :
    (purgeExpiredDns db now).1.dnsCache.lookup key
      = (db.dnsCache.lookup key).filter fun row => decide (now < row.1) := by
  show (purge (fun row => decide (row.1 ≤ now)) db.dnsCache).1.lookup key = _
  rw [lookup_purge]
  congr 1
  ext row
  rw [← decide_not]
  exact decide_eq_decide.mpr Nat.not_le

/-- A clean-up drops the records that have expired, whatever it does to the other tables. -/
theorem lookup_dnsCache_doCleanup (db : Database) (days : UInt32) (now : Nat) (key : Bytes) :
    (doCleanup db days now).dnsCache.lookup key
      = (db.dnsCache.lookup key).filter fun row => decide (now < row.1) := by
  rw [← lookup_purgeExpiredDns]
  unfold doCleanup
  split <;> rfl

theorem lookup_dnsCache_openCacheFile (db : Database) (storeFakeip : Bool) (days : UInt32)
    (storeDns : Bool) (now : Nat) (key : Bytes) :
    (openCacheFile db storeFakeip days storeDns now).2.dnsCache.lookup key
      = if storeDns then (db.dnsCache.lookup key).filter fun row => decide (now < row.1)
        else db.dnsCache.lookup key := by
  have hfakeip : (if storeFakeip && decide (0 < days) then
      (purgeStaleFakeip db (now - days.toNat * 86400)).1 else db).dnsCache = db.dnsCache := by
    split <;> rfl
  unfold openCacheFile
  cases storeDns with
  | false =>
      show AList.lookup key _ = _
      exact congrArg (AList.lookup key) hfakeip
  | true =>
      show (purgeExpiredDns _ now).1.dnsCache.lookup key = _
      rw [lookup_purgeExpiredDns, hfakeip]
      rfl

end Reflex.Experimental
