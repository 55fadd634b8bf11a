import Reflex.Dns.Cache
import Reflex.Experimental.CacheFile
import Reflex.Lib.Transition

namespace Reflex.Dns

open RustStd Experimental

/-!
# DNS — the keys of the cache file

The memory of the cache is keyed by `CacheKey`, its file by bytes.  Both keys are built from a transport, a
name and a type, each with its own conversion to lower case.

* `encodeDnsKey_eq_iff` — the keys of the file are equal where those of the memory are;
* `DiskCache` — the file with the messages to its writer, over clean-ups and restarts;
* `RecordTable` — the same for a table keyed by `CacheKey`, as `DnsCache` has it;
* `RecordTable.setUnder_of_run` — whatever is under a key was set under it;
* `Holds.of_run` — every run on the file is one on the table, and the same is read from both.
-/

/-! ### Keys as bytes -/

/-- The key in the file of a key in memory: `encode_dns_key` behind the conversion to lower case. -/
def CacheKey.encode (key : CacheKey) : Bytes :=
  let t := utf8 key.transport
  beBytes 2 (t.length % 65536) ++ t ++ utf8 key.qname ++ [0] ++ beBytes 2 key.qtype.toNat

/-- The transport has a length of 16 bits. -/
def CacheKey.Short (key : CacheKey) : Prop := (utf8 key.transport).length < 65536

theorem encodeDnsKey_eq (transport qname : Str) (qtype : UInt16) :
    encodeDnsKey transport qname qtype = (CacheKey.new transport qname qtype).encode := rfl

/-- The length in front separates the transport from the name, and the type has its two bytes at the end. -/
theorem CacheKey.encode_inj {key key' : CacheKey} (hshort : key.Short) (hshort' : key'.Short)
    (h : key.encode = key'.encode) : key = key' := by
  obtain ⟨transport, qname, qtype⟩ := key
  obtain ⟨transport', qname', qtype'⟩ := key'
  unfold Short at hshort hshort'
  dsimp only at hshort hshort'
  unfold encode at h
  dsimp only at h
  rw [Nat.mod_eq_of_lt hshort, Nat.mod_eq_of_lt hshort'] at h
  obtain ⟨hfront, htype⟩ := List.append_inj' h (by rw [length_beBytes, length_beBytes])
  obtain ⟨hnames, -⟩ := List.append_inj' hfront rfl
  rw [List.append_assoc, List.append_assoc] at hnames
  obtain ⟨hlength, hrest⟩ := List.append_inj hnames (by rw [length_beBytes, length_beBytes])
  have hlength' := congrArg beVal hlength
  rw [beVal_beBytes_of_lt hshort, beVal_beBytes_of_lt hshort'] at hlength'
  obtain ⟨htransport, hname⟩ := List.append_inj hrest hlength'
  have htype' := congrArg beVal htype
  rw [beVal_beBytes_of_lt qtype.toNat_lt, beVal_beBytes_of_lt qtype'.toNat_lt, UInt16.toNat_inj] at htype'
  rw [utf8_injective htransport, utf8_injective hname, htype']

/-- **The two keys** of a transport, a name and a type are equal to those of another for the same triples. -/
theorem encodeDnsKey_eq_iff {transport transport' : Str} (hshort : (utf8 transport).length < 65536)
    (hshort' : (utf8 transport').length < 65536) (qname qname' : Str) (qtype qtype' : UInt16) :
    encodeDnsKey transport qname qtype = encodeDnsKey transport' qname' qtype' ↔
      CacheKey.new transport qname qtype = CacheKey.new transport' qname' qtype' := by
  rw [encodeDnsKey_eq, encodeDnsKey_eq]
  exact ⟨CacheKey.encode_inj hshort hshort', congrArg CacheKey.encode⟩

/-- `DnsCache::get` has the name in lower case before it reads the file. -/
theorem CacheKey.new_toAsciiLowercase (transport qname : Str) (qtype : UInt16) :
    CacheKey.new transport (toAsciiLowercase qname) qtype = CacheKey.new transport qname qtype := by
  rw [CacheKey.new, CacheKey.new, toAsciiLowercase_toAsciiLowercase]

/-! ### The file -/

/-- The cache file with the messages that its writer has yet to receive. -/
structure DiskCache where
  file : CacheFile
  fakeipTtlDays : UInt32
  queue : List WriteOp
  db : Database
  now : Nat

/-- What can happen: `DnsCache::set`, messages of the other parts of the program, a step of the writer, a
    clean-up, the passing of time, and a restart, which loses the pending messages. -/
inductive DiskEvent where
  | set (transport qname : Str) (qtype : UInt16) (raw : Bytes) (expireAt : Nat)
  | send (op : WriteOp)
  | write
  | cleanup
  | clock (t : Nat)
  | restart (storeFakeip : Bool) (fakeipTtlDays : UInt32) (storeDns : Bool)

/-- The transports of the records have a length of 16 bits. -/
def DiskEvent.Short : DiskEvent → Prop
  | .set transport .. => (utf8 transport).length < 65536
  | _ => True

/-- Only `DnsCache::set` sends DNS records. -/
def isSaveDns : WriteOp → Bool
  | .saveDns .. => true
  | _ => false

namespace DiskCache

/-- The first start, on a new database. -/
def start (now : Nat) (storeFakeip : Bool) (fakeipTtlDays : UInt32) (storeDns : Bool) : DiskCache :=
  let (file, db) := openCacheFile .create storeFakeip fakeipTtlDays storeDns now
  { file, fakeipTtlDays, queue := [], db, now }

/-- One event; `none` where it cannot happen. -/
def step (s : DiskCache) : DiskEvent → Option DiskCache
  | .set transport qname qtype raw expireAt =>
      some { s with queue := s.queue ++ s.file.saveDnsCacheAsync transport qname qtype raw expireAt }
  | .send op => if isSaveDns op then none else some { s with queue := s.queue ++ [op] }
  | .write =>
      match s.queue with
      | [] => none
      | op :: queue => (writeLoopRecv s.db s.fakeipTtlDays s.now op).map fun db => { s with queue, db }
  | .cleanup => some { s with db := doCleanup s.db s.fakeipTtlDays s.now }
  | .clock t => some { s with now := t }
  | .restart storeFakeip fakeipTtlDays storeDns =>
      let (file, db) := openCacheFile s.db storeFakeip fakeipTtlDays storeDns s.now
      some { s with file, fakeipTtlDays, queue := [], db }

/-- What `DnsCache::get` reads from the file. -/
def load (s : DiskCache) (transport qname : Str) (qtype : UInt16) : Option (Bytes × Nat) :=
  loadDnsCache s.file.storeDns s.db transport (toAsciiLowercase qname) qtype

end DiskCache

/-! ### The table -/

/-- A message to the writer: a record under its key, or any other message. -/
inductive RecordOp where
  | save (key : CacheKey) (raw : Bytes) (expireAt : Nat)
  | other (op : WriteOp)

/-- The message of the queue that an abstract one stands for, with its key in bytes. -/
def RecordOp.encode : RecordOp → WriteOp
  | .save key raw expireAt => .saveDns key.encode expireAt raw
  | .other op => op

/-- The records of the cache by the keys of the memory, as in `DnsCache`, and those that are to be written. -/
structure RecordTable where
  storeDns : Bool
  queue : List RecordOp
  disk : CacheKey → Option (Bytes × Nat)
  now : Nat

namespace RecordTable

/-- The table of records at the first start, which has none. -/
def start (now : Nat) (storeDns : Bool) : RecordTable where
  storeDns
  queue := []
  disk := fun _ => none
  now

/-- The records without those that have expired by a time. -/
def unexpired (now : Nat) (disk : CacheKey → Option (Bytes × Nat)) (key : CacheKey) : Option (Bytes × Nat) :=
  (disk key).filter fun record => decide (now < record.2)

/-- One event; `none` where it cannot happen. -/
def step (t : RecordTable) : DiskEvent → Option RecordTable
  | .set transport qname qtype raw expireAt =>
      if t.storeDns then
        some { t with queue := t.queue ++ [.save (CacheKey.new transport qname qtype) raw expireAt] }
      else some t
  | .send op => if isSaveDns op then none else some { t with queue := t.queue ++ [.other op] }
  | .write =>
      match t.queue with
      | [] => none
      | .save key raw expireAt :: queue =>
          some { t with queue, disk := Function.update t.disk key (some (raw, expireAt)) }
      | .other .shutdown :: _ => none
      | .other .cleanup :: queue => some { t with queue, disk := unexpired t.now t.disk }
      | .other _ :: queue => some { t with queue }
  | .cleanup => some { t with disk := unexpired t.now t.disk }
  | .clock now => some { t with now }
  | .restart _ _ storeDns =>
      some { t with storeDns, queue := [], disk := if storeDns then unexpired t.now t.disk else t.disk }

variable {t t' : RecordTable} {e : DiskEvent} {events : List DiskEvent}

theorem unexpired_cases (now : Nat) (disk : CacheKey → Option (Bytes × Nat)) (key : CacheKey) :
    unexpired now disk key = disk key ∨
      unexpired now disk key = none ∧ ∃ record, disk key = some record ∧ record.2 ≤ now := by
  unfold unexpired
  rcases disk key with _ | record
  · exact Or.inl rfl
  · rw [Option.filter_some]
    by_cases hnow : now < record.2
    · rw [if_pos (decide_eq_true hnow)]
      exact Or.inl rfl
    · rw [if_neg (by rw [decide_eq_true_eq]; exact hnow)]
      exact Or.inr ⟨rfl, record, rfl, Nat.not_lt.mp hnow⟩

/-- **What a key has** after an event: what it had, the record that is next to be written if it is one of this
    key, or nothing if its record has expired. -/
theorem disk_step (h : t.step e = some t') (key : CacheKey) :
    t'.disk key = t.disk key ∨
      (∃ raw expireAt, t.queue.head? = some (.save key raw expireAt) ∧ t'.disk key = some (raw, expireAt)) ∨
      (t'.disk key = none ∧ ∃ record, t.disk key = some record ∧ record.2 ≤ t.now) := by
  cases e with
  | set transport qname qtype raw expireAt =>
    unfold step at h
    dsimp only at h
    split at h <;> cases h <;> exact Or.inl rfl
  | send op =>
    unfold step at h
    dsimp only at h
    split at h <;> cases h
    exact Or.inl rfl
  | write =>
    unfold step at h
    dsimp only at h
    split at h
    case h_1 => cases h
    -- a record of the queue is written; other messages do not change the records
    case h_2 key' raw expireAt queue hqueue =>
      cases h
      by_cases hkey : key = key'
      · subst hkey
        refine Or.inr (Or.inl ⟨raw, expireAt, ?_, Function.update_self ..⟩)
        rw [hqueue]
        rfl
      · exact Or.inl (Function.update_of_ne hkey _ _)
    case h_3 => cases h
    -- a clean-up in the queue
    case h_4 =>
      cases h
      exact (unexpired_cases t.now t.disk key).imp_right Or.inr
    case h_5 =>
      cases h
      exact Or.inl rfl
  | cleanup =>
    cases h
    exact (unexpired_cases t.now t.disk key).imp_right Or.inr
  | clock now =>
    cases h
    exact Or.inl rfl
  | restart storeFakeip days storeDns =>
    cases h
    cases storeDns with
    | false => exact Or.inl rfl
    | true => exact (unexpired_cases t.now t.disk key).imp_right Or.inr

/-- The record was set under the key. -/
def SetUnder (events : List DiskEvent) (key : CacheKey) (raw : Bytes) (expireAt : Nat) : Prop :=
  ∃ transport qname qtype, .set transport qname qtype raw expireAt ∈ events ∧
    CacheKey.new transport qname qtype = key

/-- The messages after an event are old ones, or the one that was sent. -/
theorem queue_step (h : t.step e = some t') {key : CacheKey} {raw : Bytes} {expireAt : Nat}
    (hmem : .save key raw expireAt ∈ t'.queue) :
    .save key raw expireAt ∈ t.queue ∨ SetUnder [e] key raw expireAt := by
  cases e with
  | set transport qname qtype raw' expireAt' =>
    unfold step at h
    dsimp only at h
    split at h
    · cases h
      rcases List.mem_append.mp hmem with hold | hnew
      · exact Or.inl hold
      · cases List.mem_singleton.mp hnew
        exact Or.inr ⟨transport, qname, qtype, List.mem_cons_self, rfl⟩
    · cases h
      exact Or.inl hmem
  | send op =>
    unfold step at h
    dsimp only at h
    split at h <;> cases h
    rcases List.mem_append.mp hmem with hold | hnew
    · exact Or.inl hold
    · cases List.mem_singleton.mp hnew
  | write =>
    unfold step at h
    dsimp only at h
    split at h
    case h_1 => cases h
    case h_3 => cases h
    all_goals
      rename_i hqueue
      cases h
      refine Or.inl ?_
      rw [hqueue]
      exact List.mem_cons_of_mem _ hmem
  | cleanup =>
    cases h
    exact Or.inl hmem
  | clock now =>
    cases h
    exact Or.inl hmem
  | restart storeFakeip days storeDns =>
    cases h
    cases hmem

/-- Everything in the table was set under its key, and so were the messages. -/
def AllSet (events : List DiskEvent) (t : RecordTable) : Prop :=
  (∀ key raw expireAt, t.disk key = some (raw, expireAt) → SetUnder events key raw expireAt) ∧
    ∀ key raw expireAt, .save key raw expireAt ∈ t.queue → SetUnder events key raw expireAt

theorem AllSet.step (hset : AllSet events t) (he : e ∈ events) (h : t.step e = some t') :
    AllSet events t' := by
  obtain ⟨hdisk, hqueue⟩ := hset
  constructor
  · intro key raw expireAt hsome
    rcases disk_step h key with hsame | ⟨raw', expireAt', hhead, hnew⟩ | ⟨hnone, -⟩
    · exact hdisk key raw expireAt (hsame ▸ hsome)
    · obtain ⟨rfl, rfl⟩ : raw' = raw ∧ expireAt' = expireAt := by
        rw [hnew] at hsome
        exact Prod.mk.inj (Option.some.inj hsome)
      exact hqueue key raw' expireAt' (List.mem_of_mem_head? hhead)
    · rw [hnone] at hsome
      cases hsome
  · intro key raw expireAt hmem
    rcases queue_step h hmem with hold | ⟨transport, qname, qtype, hevent, hkey⟩
    · exact hqueue key raw expireAt hold
    · rw [List.mem_singleton] at hevent
      exact ⟨transport, qname, qtype, hevent ▸ he, hkey⟩

/-- **In every run** the record of a key was set under the key. -/
theorem setUnder_of_run {now : Nat} {storeDns : Bool}
    (hrun : Transition.run step (start now storeDns) events = some t) {key : CacheKey} {raw : Bytes}
    {expireAt : Nat} (h : t.disk key = some (raw, expireAt)) : SetUnder events key raw expireAt := by
  have hguard : Transition.Guarded step (fun _ e => e ∈ events) (start now storeDns) events :=
    Transition.guarded_of_forall (fun _ he _ => he) _
  have hset : AllSet events t := by
    refine Transition.invariant_of_run (fun _ _ _ hstep he hset => hset.step he hstep) hrun hguard ?_
    exact ⟨fun _ _ _ hsome => (nomatch hsome), fun _ _ _ hmem => (nomatch hmem)⟩
  exact hset.1 key raw expireAt h

end RecordTable

/-- The file holds the records of the table under their keys in bytes, and the pending messages are the
    same. -/
structure Holds (s : DiskCache) (t : RecordTable) : Prop where
  storeDns : s.file.storeDns = t.storeDns
  now : s.now = t.now
  queue : s.queue = t.queue.map RecordOp.encode
  short : ∀ key raw expireAt, .save key raw expireAt ∈ t.queue → key.Short
  other : ∀ op, .other op ∈ t.queue → isSaveDns op = false
  disk : ∀ key, key.Short → (s.db.dnsCache.lookup key.encode).map (fun row => (row.2, row.1)) = t.disk key

namespace Holds

variable {s : DiskCache} {t : RecordTable}

theorem start (now : Nat) (storeFakeip : Bool) (days : UInt32) (storeDns : Bool) :
    Holds (DiskCache.start now storeFakeip days storeDns) (RecordTable.start now storeDns) where
  storeDns := rfl
  now := rfl
  queue := rfl
  short := fun _ _ _ h => nomatch h
  other := fun _ h => nomatch h
  disk := by
    intro key _
    show Option.map _ ((openCacheFile Database.create storeFakeip days storeDns now).2.dnsCache.lookup _) = _
    rw [lookup_dnsCache_openCacheFile]
    show Option.map _ (if storeDns then Option.filter _ none else none) = none
    cases storeDns <;> rfl

/-- A clean-up of the file and one of the table of records drop the same records, those whose time is over. -/
theorem unexpired (h : Holds s t) {key : CacheKey} (hkey : key.Short) :
    ((s.db.dnsCache.lookup key.encode).filter fun row => decide (s.now < row.1)).map
      (fun row => (row.2, row.1)) = RecordTable.unexpired t.now t.disk key := by
  rw [RecordTable.unexpired, ← h.disk key hkey, ← h.now, Option.filter_map]
  rfl

/-- **A record is written.** Under its own key the file has it, and no other key is its key in bytes. -/
theorem write_save (h : Holds s t) {key : CacheKey} (hkey : key.Short) (raw : Bytes) (expireAt : Nat)
    {queue : List WriteOp} {queue' : List RecordOp} (hqueue : queue = queue'.map RecordOp.encode)
    (hsub : queue' ⊆ t.queue) :
    Holds { s with queue, db := applyOp s.db (.saveDns key.encode expireAt raw) }
      { t with queue := queue', disk := Function.update t.disk key (some (raw, expireAt)) } where
  storeDns := h.storeDns
  now := h.now
  queue := hqueue
  short := fun key raw expireAt hmem => h.short key raw expireAt (hsub hmem)
  other := fun op hmem => h.other op (hsub hmem)
  disk := by
    intro key' hkey'
    dsimp only
    rw [lookup_saveDns]
    by_cases heq : key' = key
    · rw [if_pos (congrArg CacheKey.encode heq), heq, Function.update_self]
      rfl
    · have hbytes : key'.encode ≠ key.encode := fun hbytes => heq (CacheKey.encode_inj hkey' hkey hbytes)
      rw [if_neg hbytes, Function.update_of_ne heq]
      exact h.disk key' hkey'

/-- What leaves the DNS table alone, in front of fewer messages. -/
theorem write_other (h : Holds s t) {db : Database} (hdb : db.dnsCache = s.db.dnsCache) {queue : List WriteOp}
    {queue' : List RecordOp} (hqueue : queue = queue'.map RecordOp.encode) (hsub : queue' ⊆ t.queue) :
    Holds { s with queue, db } { t with queue := queue' } where
  storeDns := h.storeDns
  now := h.now
  queue := hqueue
  short := fun key raw expireAt hmem => h.short key raw expireAt (hsub hmem)
  other := fun op hmem => h.other op (hsub hmem)
  disk := by
    intro key hkey
    dsimp only
    rw [hdb]
    exact h.disk key hkey

/-- A clean-up drops the same records from the file and from the table, in front of the messages that are left. -/
theorem write_cleanup (h : Holds s t) {queue : List WriteOp} {queue' : List RecordOp}
    (hqueue : queue = queue'.map RecordOp.encode) (hsub : queue' ⊆ t.queue) :
    Holds { s with queue, db := doCleanup s.db s.fakeipTtlDays s.now }
      { t with queue := queue', disk := RecordTable.unexpired t.now t.disk } where
  storeDns := h.storeDns
  now := h.now
  queue := hqueue
  short := fun key raw expireAt hmem => h.short key raw expireAt (hsub hmem)
  other := fun op hmem => h.other op (hsub hmem)
  disk := by
    intro key hkey
    dsimp only
    rw [lookup_dnsCache_doCleanup]
    exact h.unexpired hkey

/-- **The writer** takes the same message from both queues. -/
theorem write (h : Holds s t) {s' : DiskCache} (hs' : s.step .write = some s') :
    ∃ t', t.step .write = some t' ∧ Holds s' t' := by
  unfold DiskCache.step at hs'
  unfold RecordTable.step
  have hqueue := h.queue
  rcases hops : t.queue with _ | ⟨op, queue⟩
  · rw [hops] at hqueue
    -- nothing is in the queue, so there is no such step
    simp only [hqueue, List.map_nil, reduceCtorEq] at hs'
  · rw [hops, List.map_cons] at hqueue
    have hsub : queue ⊆ t.queue := by
      rw [hops]
      exact List.subset_cons_self op queue
    have hhead : op ∈ t.queue := by
      rw [hops]
      exact List.mem_cons_self
    simp only [hqueue, Option.map_eq_some_iff] at hs'
    obtain ⟨db, hdb, rfl⟩ := hs'
    -- the same message is taken off both queues
    cases op with
    | save key raw expireAt =>
      obtain rfl := Option.some.inj hdb
      exact ⟨_, rfl, h.write_save (h.short key raw expireAt hhead) raw expireAt rfl hsub⟩
    | other op =>
      cases op with
      | shutdown => cases hdb
      | cleanup =>
        obtain rfl := Option.some.inj hdb
        exact ⟨_, rfl, h.write_cleanup rfl hsub⟩
      | saveDns key expireAt raw => exact nomatch h.other _ hhead
      | _ =>
        obtain rfl := Option.some.inj hdb
        refine ⟨_, rfl, h.write_other (dnsCache_applyOp _ ?_) rfl hsub⟩
        rintro _ _ _ ⟨⟩

/-- A message is added behind the pending ones, to the queue of the file and to that of the table. -/
theorem push (h : Holds s t) (op : RecordOp)
    (hshort : ∀ key raw expireAt, op = .save key raw expireAt → key.Short)
    (hother : ∀ op', op = .other op' → isSaveDns op' = false) :
    Holds { s with queue := s.queue ++ [op.encode] } { t with queue := t.queue ++ [op] } where
  storeDns := h.storeDns
  now := h.now
  queue := by rw [h.queue, List.map_append, List.map_singleton]
  short := by
    intro key raw expireAt hmem
    rcases List.mem_append.mp hmem with hmem | hmem
    · exact h.short key raw expireAt hmem
    · exact hshort key raw expireAt (List.mem_singleton.mp hmem).symm
  other := by
    intro op' hmem
    rcases List.mem_append.mp hmem with hmem | hmem
    · exact h.other op' hmem
    · exact hother op' (List.mem_singleton.mp hmem).symm
  disk := h.disk

/-- A restart loses the messages and cleans up as the writer does, or not at all. -/
theorem restart (h : Holds s t) (storeFakeip : Bool) (days : UInt32) (storeDns : Bool) :
    Holds
      { s with
        file := (openCacheFile s.db storeFakeip days storeDns s.now).1
        fakeipTtlDays := days
        queue := []
        db := (openCacheFile s.db storeFakeip days storeDns s.now).2 }
      { t with
        storeDns
        queue := []
        disk := if storeDns then RecordTable.unexpired t.now t.disk else t.disk } where
  storeDns := rfl
  now := h.now
  queue := rfl
  short := fun _ _ _ hmem => nomatch hmem
  other := fun _ hmem => nomatch hmem
  disk := by
    intro key hkey
    dsimp only
    rw [lookup_dnsCache_openCacheFile]
    cases storeDns with
    | false => exact h.disk key hkey
    | true => exact h.unexpired hkey

/-- **One event** on the file is the same event on the table. -/
theorem step (h : Holds s t) {e : DiskEvent} (he : e.Short) {s' : DiskCache} (hs' : s.step e = some s') :
    ∃ t', t.step e = some t' ∧ Holds s' t' := by
  cases e with
  | set transport qname qtype raw expireAt =>
    obtain rfl := Option.some.inj hs'
    have hstore := h.storeDns
    unfold RecordTable.step CacheFile.saveDnsCacheAsync
    dsimp only
    by_cases hdns : t.storeDns = true
    · -- both systems append the message, or both leave it
      rw [if_pos (hstore.trans hdns), if_pos hdns]
      refine ⟨_, rfl, h.push (.save (CacheKey.new transport qname qtype) raw expireAt) ?_ ?_⟩
      · rintro _ _ _ ⟨⟩
        exact he
      · rintro _ ⟨⟩
    · rw [if_neg (fun htrue => hdns (hstore.symm.trans htrue)), if_neg hdns, List.append_nil]
      exact ⟨t, rfl, h⟩
  | send op =>
    unfold DiskCache.step at hs'
    unfold RecordTable.step
    cases hop : isSaveDns op with
    | true =>
      simp only [hop, if_true, reduceCtorEq] at hs'
    | false =>
      simp only [hop, Bool.false_eq_true, if_false, Option.some.injEq] at hs' ⊢
      subst hs'
      refine ⟨_, rfl, h.push (.other op) ?_ ?_⟩
      · rintro _ _ _ ⟨⟩
      · rintro _ ⟨⟩
        exact hop
  | write => exact h.write hs'
  | cleanup =>
    obtain rfl := Option.some.inj hs'
    exact ⟨_, rfl, h.write_cleanup h.queue (List.Subset.refl _)⟩
  | clock now =>
    obtain rfl := Option.some.inj hs'
    exact ⟨_, rfl, { h with now := rfl }⟩
  | restart storeFakeip days storeDns =>
    obtain rfl := Option.some.inj hs'
    exact ⟨_, rfl, h.restart storeFakeip days storeDns⟩

/-- What is read is what is in the table. -/
theorem load (h : Holds s t) {transport : Str} (hshort : (utf8 transport).length < 65536) (qname : Str)
    (qtype : UInt16) : s.load transport qname qtype =
      if t.storeDns then t.disk (CacheKey.new transport qname qtype) else none := by
  have hkey : (CacheKey.new transport qname qtype).Short := hshort
  rw [DiskCache.load, loadDnsCache, h.storeDns, encodeDnsKey_eq, CacheKey.new_toAsciiLowercase,
    h.disk _ hkey]

/-- **Every run** on the file is one on the table. -/
theorem of_run {now : Nat} {storeFakeip : Bool} {days : UInt32} {storeDns : Bool} {events : List DiskEvent}
    (hshort : ∀ e ∈ events, e.Short)
    (hrun : Transition.run DiskCache.step (DiskCache.start now storeFakeip days storeDns) events = some s) :
    ∃ t, Transition.run RecordTable.step (RecordTable.start now storeDns) events = some t ∧ Holds s t :=
  Transition.run_simulates (fun _ _ _ _ hs' he h => h.step he hs') hrun hshort
    (Holds.start now storeFakeip days storeDns)

end Holds

/-- **The file under the keys of the memory.** For transports whose length has 16 bits, two triples have equal
    keys in the file just when they have equal keys in memory; and in every run of the file from a new
    database, what is read for a triple is what a table under the keys of the memory has after the same events:
    a record that was set under this very key, from when it is written until the next one of the key is or a
    clean-up finds it expired. -/
theorem encodeDnsKey_refines :
    (∀ (transport transport' qname qname' : Str) (qtype qtype' : UInt16),
      (utf8 transport).length < 65536 → (utf8 transport').length < 65536 →
        (encodeDnsKey transport qname qtype = encodeDnsKey transport' qname' qtype' ↔
          CacheKey.new transport qname qtype = CacheKey.new transport' qname' qtype')) ∧
    (∀ (now : Nat) (storeFakeip : Bool) (days : UInt32) (storeDns : Bool) (events : List DiskEvent)
      (s : DiskCache), (∀ e ∈ events, e.Short) →
        Transition.run DiskCache.step (DiskCache.start now storeFakeip days storeDns) events = some s →
        ∃ t, Transition.run RecordTable.step (RecordTable.start now storeDns) events = some t ∧
          (∀ (transport qname : Str) (qtype : UInt16), (utf8 transport).length < 65536 →
            s.load transport qname qtype =
              if t.storeDns then t.disk (CacheKey.new transport qname qtype) else none) ∧
          ∀ key raw expireAt, t.disk key = some (raw, expireAt) →
            RecordTable.SetUnder events key raw expireAt) ∧
    ∀ (t t' : RecordTable) (e : DiskEvent) (key : CacheKey), t.step e = some t' →
      t'.disk key = t.disk key ∨
        (∃ raw expireAt, t.queue.head? = some (.save key raw expireAt) ∧ t'.disk key = some (raw, expireAt)) ∨
        (t'.disk key = none ∧ ∃ record, t.disk key = some record ∧ record.2 ≤ t.now) := by
  refine ⟨fun _ _ qname qname' qtype qtype' hshort hshort' =>
    encodeDnsKey_eq_iff hshort hshort' qname qname' qtype qtype', ?_, fun _ _ _ key h =>
    RecordTable.disk_step h key⟩
  intro now storeFakeip days storeDns events s hshort hrun
  obtain ⟨t, ht, hholds⟩ := Holds.of_run hshort hrun
  exact ⟨t, ht, fun _ qname qtype htransport => hholds.load htransport qname qtype,
    fun _ _ _ hsome => RecordTable.setUnder_of_run ht hsome⟩

end Reflex.Dns
