import Reflex.Dns.FakeIpFile
import Reflex.Dns.FakeIpRange

namespace Reflex.Dns

open RustStd PartialInverse Experimental Journal

/-!
# DNS — how long the cache file keeps a FakeIP mapping

Rows of the file carry the time of the last answer and go once they are older than
`fakeip_ttl_days`.  A repeated answer refreshes its row, but only where the row is still there:
memory keeps a mapping whose row was cleaned up, and its later answers leave no trace.

* `TouchesFind` — the pending refreshes of an address find its row;
* `Lasting` — the invariant: a recent answer has its row, or a refresh that will miss it;
* `answered_restored` — if no refresh misses its row, recent answers survive a clean restart.
-/

/-! ### The cursor of a rebuilt store -/

namespace FakeIpStore

/-- The address is one that the store gives out. -/
def GivesOut (store : FakeIpStore) : IpAddr → Prop
  | .v4 a => ∃ net, store.inet4Net = some net ∧ Given net a
  | .v6 a => ∃ net, store.inet6Net = some net ∧ Given net a

theorem Within.givesOut {store : FakeIpStore} (h : store.Within) {ip : IpAddr} {d : Str}
    (hd : store.lookup ip = some d) : store.GivesOut ip := by
  cases ip with
  | v4 a => exact h.v4.given a d hd
  | v6 a => exact h.v6.given a d hd

theorem givesOut_congr {store store' : FakeIpStore} (h4 : store'.inet4Net = store.inet4Net)
    (h6 : store'.inet6Net = store.inet6Net) {ip : IpAddr} (h : store.GivesOut ip) :
    store'.GivesOut ip := by
  cases ip with
  | v4 a =>
      show ∃ net, store'.inet4Net = some net ∧ _
      rw [h4]
      exact h
  | v6 a =>
      show ∃ net, store'.inet6Net = some net ∧ _
      rw [h6]
      exact h

/-- The cursors are behind the first address of their range. -/
structure Ahead (store : FakeIpStore) : Prop where
  v4 : ∀ net cur, store.inet4Net = some net → store.inner.inet4Current = some cur → net.1 < cur
  v6 : ∀ net cur, store.inet6Net = some net → store.inner.inet6Current = some cur → net.1 < cur

/-- The address behind one that a range gives out is still behind the first. -/
theorem lt_next {w : Nat} {net : BitVec w × BitVec w} (h : UsableNet net) {a cur : BitVec w}
    (ha : Given net a) (hcur : net.1 < cur) : net.1 < if cur ≤ a then ipNext a else cur := by
  split
  · have hnext := ha.toNat_next h
    have hlt : net.1.toNat < a.toNat := ha.1
    show net.1.toNat < (ipNext a).toNat
    omega
  · exact hcur

theorem Ahead.restoreRecord {store : FakeIpStore} (h : store.Ahead) (husable : store.Usable)
    {ip : IpAddr} {domain : Str} (hgiven : store.contains ip = true → store.GivesOut ip) :
    (store.restoreRecord (ip, domain)).Ahead := by
  by_cases hin : store.contains ip = true
  · cases ip with
    | v4 a =>
        rw [show store.restoreRecord (.v4 a, domain) = _ from if_pos hin]
        refine ⟨fun net cur hnet hcur => ?_, h.v6⟩
        obtain ⟨cur₀, hcur₀, rfl⟩ := Option.map_eq_some_iff.mp hcur
        obtain ⟨net', hnet', ha⟩ := hgiven hin
        obtain rfl := Option.some.inj (hnet.symm.trans hnet')
        exact lt_next (husable.v4 net hnet) ha (h.v4 net cur₀ hnet hcur₀)
    | v6 a =>
        rw [show store.restoreRecord (.v6 a, domain) = _ from if_pos hin]
        refine ⟨h.v4, fun net cur hnet hcur => ?_⟩
        obtain ⟨cur₀, hcur₀, rfl⟩ := Option.map_eq_some_iff.mp hcur
        obtain ⟨net', hnet', ha⟩ := hgiven hin
        obtain rfl := Option.some.inj (hnet.symm.trans hnet')
        exact lt_next (husable.v6 net hnet) ha (h.v6 net cur₀ hnet hcur₀)
  · cases ip with
    | v4 a =>
        rw [show store.restoreRecord (.v4 a, domain) = store from if_neg hin]
        exact h
    | v6 a =>
        rw [show store.restoreRecord (.v6 a, domain) = store from if_neg hin]
        exact h

theorem Ahead.foldl {store : FakeIpStore} (h : store.Ahead) (husable : store.Usable)
    (records : List (IpAddr × Str))
    (hgiven : ∀ r ∈ records, store.contains r.1 = true → store.GivesOut r.1) :
    (records.foldl FakeIpStore.restoreRecord store).Ahead := by
  induction records generalizing store with
  | nil => exact h
  | cons r records ih =>
      obtain ⟨h4, h6⟩ := restoreRecord_nets store r
      have hrec : (store.restoreRecord r).Ahead :=
        h.restoreRecord husable (hgiven r (List.mem_cons_self ..))
      refine ih hrec ⟨?_, ?_⟩ fun r' hr' hin => ?_
      · rw [h4]
        exact husable.v4
      · rw [h6]
        exact husable.v6
      · rw [contains_eq_of_nets h4 h6] at hin
        exact givesOut_congr h4 h6 (hgiven r' (List.mem_cons_of_mem _ hr') hin)

/-- The end of the range sends the cursor back to its start. -/
theorem given_rewind {w : Nat} {net : Option (BitVec w × BitVec w)} {current : Option (BitVec w)}
    (husable : ∀ n, net = some n → UsableNet n)
    (h : ∀ n cur, net = some n → current = some cur → n.1 < cur) (n : BitVec w × BitVec w)
    (cur : BitVec w) (hn : net = some n) (hcur : rewind net current = some cur) : Given n cur := by
  subst hn
  rcases current with _ | c
  · cases hcur
  · have hrewind : (if n.2 ≤ c then some (ipNext n.1) else some c) = some cur := by
      simpa [rewind] using hcur
    split at hrewind
    · obtain rfl := Option.some.inj hrewind
      exact given_first (husable n rfl)
    · rename_i hlt
      obtain rfl := Option.some.inj hrewind
      refine ⟨h n c rfl rfl, BitVec.le_of_lt (BitVec.not_le.mp hlt), fun heq => ?_⟩
      exact absurd (heq ▸ BitVec.le_refl c) hlt

/-- **A rebuilt store** starts within its ranges, if the rows of the range were given out by it. -/
theorem within_restore {cfg : FakeIpConfig} {store : FakeIpStore} (hnew : new cfg = .ok store)
    (husable : store.Usable) {g : IpAddr → Option Str} {records : List (IpAddr × Str)}
    (hrecords : ∀ ip d, (ip, d) ∈ records ↔ g ip = some d)
    (hgiven : ∀ ip d, inRange store.contains g ip = some d → store.GivesOut ip)
    (hlookup : (store.restore records).lookup = inRange store.contains g) :
    (store.restore records).Within := by
  obtain ⟨h4, h6⟩ := restore_nets store records
  have hahead : (records.foldl FakeIpStore.restoreRecord store).Ahead := by
    refine Ahead.foldl ⟨?_, ?_⟩ husable records fun r hr hin => ?_
    · intro net cur hnet hcur
      exact ((within_new hnew husable).v4.cursor net cur hnet hcur).1
    · intro net cur hnet hcur
      exact ((within_new hnew husable).v6.cursor net cur hnet hcur).1
    · exact hgiven r.1 r.2 (inRange_eq_some.mpr ⟨hin, (hrecords r.1 r.2).mp hr⟩)
  have hrow : ∀ ip d, (store.restore records).lookup ip = some d → store.GivesOut ip := by
    intro ip d hd
    rw [hlookup] at hd
    exact hgiven ip d hd
  constructor
  · refine ⟨given_rewind (fun n hn => husable.v4 n (h4 ▸ hn)) hahead.v4, fun a d hd => ?_⟩
    exact givesOut_congr h4 h6 (hrow (.v4 a) d hd)
  · refine ⟨given_rewind (fun n hn => husable.v6 n (h6 ▸ hn)) hahead.v6, fun a d hd => ?_⟩
    exact givesOut_congr h4 h6 (hrow (.v6 a) d hd)

end FakeIpStore

/-- A process starts within its ranges, if the rows it finds there were given out by it. -/
theorem within_boot {db : Database} {now : Nat} {stored : List (Str × Str)}
    {answers : List (IpAddr × Str × Nat)} {cfg : FakeIpConfig} {days : UInt32} {storeDns : Bool}
    {s : Deployment} (h : Deployment.boot db now stored answers cfg true days storeDns = .ok s)
    (hkeyed : s.db.Keyed) (husable : s.store.Usable)
    (hlookup : s.store.lookup = inRange s.store.contains s.db.domainOf)
    (hgiven : ∀ ip d, inRange s.store.contains s.db.domainOf ip = some d → s.store.GivesOut ip) :
    s.store.Within := by
  obtain ⟨store, hnew, rfl⟩ := Deployment.boot_eq_ok h
  obtain ⟨h4, h6⟩ := FakeIpStore.restore_nets store
    (loadAllFakeip (openCacheFile db true days storeDns now).2)
  have hcontains := FakeIpStore.contains_eq_of_nets h4 h6
  refine FakeIpStore.within_restore hnew ⟨?_, ?_⟩ (fun ip d => mem_loadAllFakeip hkeyed)
    (fun ip d hd => ?_) (by rw [← hcontains]; exact hlookup)
  · rw [← h4]
    exact husable.v4
  · rw [← h6]
    exact husable.v6
  · rw [← hcontains] at hd
    exact FakeIpStore.givesOut_congr h4.symm h6.symm (hgiven ip d hd)

/-! ### Pending refreshes -/

/-- Each pending refresh of the key finds its row when its turn comes. -/
def TouchesFind (k : Str) : Database → List WriteOp → Prop
  | _, [] => True
  | db, op :: ops =>
      (∀ t, op = .touchFakeip k t → (db.row k).isSome = true) ∧ TouchesFind k (applyOp db op) ops

theorem touchesFind_append {k : Str} {db : Database} {ops : List WriteOp} {op : WriteOp} :
    TouchesFind k db (ops ++ [op]) ↔ TouchesFind k db ops ∧
      ∀ t, op = .touchFakeip k t → ((replay applyOp db ops).row k).isSome = true := by
  induction ops generalizing db with
  | nil =>
      show _ ∧ True ↔ True ∧ _
      rw [and_true, true_and]
      rfl
  | cons op' ops ih =>
      show _ ∧ TouchesFind k (applyOp db op') (ops ++ [op]) ↔ _
      rw [ih, ← and_assoc]
      rfl

/-- What a message does to the row of a key depends on that row only. -/
theorem row_congr {k : Str} {db db' : Database} (h : db.row k = db'.row k) (op : WriteOp) :
    (applyOp db op).row k = (applyOp db' op).row k := by
  cases op with
  | storeFakeip k' domain t =>
      rw [row_storeFakeip, row_storeFakeip]
      by_cases hk : k = k'
      · rw [hk, Function.update_self, Function.update_self]
      · rw [Function.update_of_ne hk, Function.update_of_ne hk, h]
  | touchFakeip k' t =>
      rw [row_touchFakeip, row_touchFakeip]
      by_cases hk : k = k'
      · rw [← hk, Function.update_self, Function.update_self, h]
      · rw [Function.update_of_ne hk, Function.update_of_ne hk, h]
  | _ => exact h

theorem replay_row_congr {k : Str} {db db' : Database} (h : db.row k = db'.row k)
    (ops : List WriteOp) : (replay applyOp db ops).row k = (replay applyOp db' ops).row k := by
  induction ops generalizing db db' with
  | nil => exact h
  | cons op ops ih => exact ih (row_congr h op)

/-- With fewer rows, fewer refreshes find theirs. -/
theorem TouchesFind.mono {k : Str} {db db' : Database} (h : Below db db') {ops : List WriteOp}
    (hfind : TouchesFind k db ops) : TouchesFind k db' ops := by
  induction ops generalizing db db' with
  | nil => trivial
  | cons op ops ih =>
      refine ⟨fun t hop => ?_, ih (below_applyOp db db' op h) hfind.2⟩
      obtain ⟨row, hrow⟩ := Option.isSome_iff_exists.mp (hfind.1 t hop)
      have hd := h k row.2 (by rw [hrow]; rfl)
      obtain ⟨row', hrow', -⟩ := Option.map_eq_some_iff.mp hd
      rw [hrow']
      rfl

/-- **A row that is gone.** Behind the pending messages it is back, or it is missing: because a
    refresh misses it, or because no message is about it. -/
theorem replay_row_gone {k : Str} (db : Database) {db' : Database} (h : db'.row k = none)
    (ops : List WriteOp) :
    (replay applyOp db' ops).row k = (replay applyOp db ops).row k ∨
      ((replay applyOp db' ops).row k = none ∧
        (¬ TouchesFind k db' ops ∨ (replay applyOp db ops).row k = db.row k)) := by
  induction ops generalizing db db' with
  | nil => exact .inr ⟨h, .inr rfl⟩
  | cons op ops ih =>
      by_cases hstore : ∃ domain t, op = .storeFakeip k domain t
      · -- the row is written anew
        obtain ⟨domain, t, rfl⟩ := hstore
        refine .inl (replay_row_congr ?_ ops)
        rw [row_storeFakeip, row_storeFakeip, Function.update_self, Function.update_self]
      · by_cases htouch : ∃ t, op = .touchFakeip k t
        · -- the refresh misses the row
          obtain ⟨t, rfl⟩ := htouch
          have hmiss : ¬ TouchesFind k db' (.touchFakeip k t :: ops) := by
            intro hfind
            have hsome := hfind.1 t rfl
            rw [h] at hsome
            cases hsome
          have hgone : (applyOp db' (.touchFakeip k t)).row k = none := by
            rw [row_touchFakeip, Function.update_self, h]
            rfl
          rcases ih (applyOp db (.touchFakeip k t)) hgone with heq | ⟨hnone, -⟩
          · exact .inl heq
          · exact .inr ⟨hnone, .inl hmiss⟩
        · -- the message is about something else
          have hsame : ∀ db : Database, (applyOp db op).row k = db.row k :=
            row_applyOp_of_ne (fun domain t hop => hstore ⟨domain, t, hop⟩)
              fun t hop => htouch ⟨t, hop⟩
          have hgone : (applyOp db' op).row k = none := by
            rw [hsame, h]
          rcases ih (applyOp db op) hgone with heq | ⟨hnone, hor⟩
          · exact .inl heq
          · refine .inr ⟨hnone, hor.imp (fun hmiss hfind => hmiss hfind.2) fun hrow => ?_⟩
            exact hrow.trans (hsame db)

/-- The messages of others leave the rows of the range alone. -/
theorem row_foreign {covers : IpAddr → Bool} {op : WriteOp} (h : isForeign covers op = true)
    {addr : IpAddr} (haddr : covers addr = true) (db : Database) :
    (applyOp db op).row addr.display = db.row addr.display := by
  have hown : isForeignKey covers addr.display ≠ true := by
    intro hforeign
    obtain ⟨ip, heq, hout⟩ := exists_of_isForeignKey hforeign
    rw [← IpAddr.display_injective heq, haddr] at hout
    cases hout
  refine row_applyOp_of_ne (fun domain t hop => ?_) (fun t hop => ?_) db
  · subst hop
    exact hown h
  · subst hop
    exact hown h

/-! ### The invariant -/

/-- The last answer of an address is older than the lifetime, or memory has the mapping and its row
    will be there once the queue is written, unless a pending refresh misses it. -/
def Lasting (s : Deployment) (addr : IpAddr) (d : Str) (t : Nat) : Prop :=
  t + s.fakeipTtlDays.toNat * 86400 < s.now ∨
    (s.store.lookup addr = some d ∧
      ((replay applyOp s.db s.queue).row addr.display = some (t, d) ∨
        ((replay applyOp s.db s.queue).row addr.display = none ∧
          ¬ TouchesFind addr.display s.db s.queue)))

/-- **The invariant** of runs with a lifetime of `n` days. -/
structure Kept (covers : IpAddr → Bool) (n : UInt32) (s : Deployment) : Prop where
  consistent : Consistent covers s
  usable : s.store.Usable
  within : s.store.Within
  on : s.file.storeFakeip = true
  days : s.fakeipTtlDays = n
  answered : ∀ addr d t, s.answers.lookup addr = some (d, t) →
    covers addr = true ∧ Lasting s addr d t

/-- If the first message refreshes a row of this store, the row is there. -/
def findsRow (s : Deployment) : Bool :=
  match s.queue with
  | .touchFakeip k _ :: _ => isForeignKey s.store.contains k || (s.db.row k).isSome
  | _ => true

/-- What the runs below keep to: a refresh finds its row when the writer applies it; the clock is
    not set back; a restart is clean and keeps the settings. -/
def Keeps (n : UInt32) (s : Deployment) : FileEvent → Prop
  | .write => findsRow s = true
  | .clock t => s.now ≤ t
  | .restart _ storeFakeip days _ => s.queue.isEmpty = true ∧ storeFakeip = true ∧ days = n
  | _ => True

instance (n : UInt32) (s : Deployment) : ∀ event, Decidable (Keeps n s event)
  | .write => inferInstanceAs (Decidable (findsRow s = true))
  | .clock t => inferInstanceAs (Decidable (s.now ≤ t))
  | .restart _ storeFakeip days _ =>
      inferInstanceAs (Decidable (s.queue.isEmpty = true ∧ storeFakeip = true ∧ days = n))
  | .reply _ => .isTrue trivial
  | .setStrategy _ => .isTrue trivial
  | .send _ => .isTrue trivial
  | .cleanup => .isTrue trivial

section Steps

variable {covers : IpAddr → Bool} {n : UInt32} {s s' : Deployment}

/-- A message at the end of the queue that leaves the row of the address alone. -/
theorem Lasting.append {addr : IpAddr} {d : Str} {t : Nat} (h : Lasting s addr d t) {op : WriteOp}
    (hrow : ∀ db : Database, (applyOp db op).row addr.display = db.row addr.display)
    {store : FakeIpStore} (hlookup : store.lookup addr = s.store.lookup addr)
    (answers : List (IpAddr × Str × Nat)) :
    Lasting { s with store, queue := s.queue ++ [op], answers } addr d t := by
  refine h.imp (fun hold => hold) fun hnew => ⟨hlookup.trans hnew.1, ?_⟩
  show (replay applyOp s.db (s.queue ++ [op])).row _ = _ ∨
    (replay applyOp s.db (s.queue ++ [op])).row _ = _ ∧ ¬ TouchesFind _ s.db (s.queue ++ [op])
  rw [replay_append, hrow]
  refine hnew.2.imp (fun hthere => hthere) fun hgone => ⟨hgone.1, fun hfind => hgone.2 ?_⟩
  exact (touchesFind_append.mp hfind).1

/-- The row of an address that was just answered: it is written, or refreshed where it is. -/
theorem Kept.row_answered (h : Kept covers n s) {store : FakeIpStore} {query : Bytes} {domain : Str}
    {addr : IpAddr} (hanswer : s.store.answer query = (store, .address domain addr))
    (hcovers : covers addr = true) (hlookup : store.lookup addr = some domain) :
    let queue := s.queue ++ s.store.replyWrites s.file s.now (.address domain addr)
    (replay applyOp s.db queue).row addr.display = some (s.now, domain) ∨
      ((replay applyOp s.db queue).row addr.display = none ∧
        ¬ TouchesFind addr.display s.db queue) := by
  dsimp only
  rcases FakeIpStore.replyWrites_address hanswer s.file s.now with ⟨rfl, hw⟩ | hw
  · rw [hw, CacheFile.touchFakeipEntry, h.on]
    show (replay applyOp s.db (s.queue ++ [_])).row _ = _ ∨
      (replay applyOp s.db (s.queue ++ [_])).row _ = _ ∧
        ¬ TouchesFind _ s.db (s.queue ++ [.touchFakeip addr.display s.now])
    rw [replay_append, row_touchFakeip, Function.update_self]
    rcases hrow : (replay applyOp s.db s.queue).row addr.display with _ | row
    · refine .inr ⟨rfl, fun hfind => ?_⟩
      have hsome := (touchesFind_append.mp hfind).2 s.now rfl
      rw [hrow] at hsome
      cases hsome
    · -- the row holds the domain that memory holds
      have hdom : (replay applyOp s.db s.queue).domainOf addr = some row.2 := by
        rw [Database.domainOf, hrow]
        rfl
      have hmem := h.consistent.behind h.on addr row.2 (inRange_eq_some.mpr ⟨hcovers, hdom⟩)
      rw [hlookup] at hmem
      obtain rfl := Option.some.inj hmem
      exact .inl rfl
  · rw [hw, CacheFile.storeFakeipEntry, h.on]
    refine .inl ?_
    show (replay applyOp s.db (s.queue ++ [_])).row _ = _
    rw [replay_append, row_storeFakeip, Function.update_self]

/-- The messages of an answer leave the rows of other addresses alone. -/
theorem Kept.lasting_other (h : Kept covers n s) {store : FakeIpStore} {query : Bytes} {domain d : Str}
    {addr addr' : IpAddr} {t : Nat} (hanswer : s.store.answer query = (store, .address domain addr))
    (hne : addr' ≠ addr) (hlookup : store.lookup addr' = s.store.lookup addr')
    (hlasting : Lasting s addr' d t) (answers : List (IpAddr × Str × Nat)) :
    Lasting { s with
      store
      answers
      queue := s.queue ++ s.store.replyWrites s.file s.now (.address domain addr) } addr' d t := by
  have hkey : addr'.display ≠ addr.display := fun heq => hne (IpAddr.display_injective heq)
  rcases FakeIpStore.replyWrites_address hanswer s.file s.now with ⟨-, hw⟩ | hw
  · rw [hw, CacheFile.touchFakeipEntry, h.on]
    refine hlasting.append (row_applyOp_of_ne (fun domain t hop => ?_) fun t hop => ?_) hlookup _
    · cases hop
    · exact hkey (WriteOp.touchFakeip.inj hop).1.symm
  · rw [hw, CacheFile.storeFakeipEntry, h.on]
    refine hlasting.append (row_applyOp_of_ne (fun domain t hop => ?_) fun t hop => ?_) hlookup _
    · exact hkey (WriteOp.storeFakeip.inj hop).1.symm
    · cases hop

/-- **An answer**: its own address, and the others. -/
theorem Kept.answered_reply (h : Kept covers n s) {store : FakeIpStore} {query : Bytes}
    {domain : Str} {addr : IpAddr}
    (hanswer : s.store.answer query = (store, .address domain addr)) :
    Kept covers n { s with
      store
      answers := (addr, domain, s.now) :: s.answers
      queue := s.queue ++ s.store.replyWrites s.file s.now (.address domain addr) } := by
  have hc := h.consistent.answered hanswer ((addr, domain, s.now) :: s.answers)
  obtain ⟨hwithin, hin⟩ := h.within.answer h.usable h.consistent.inverse hanswer
  obtain ⟨h4, h6⟩ := FakeIpStore.answer_nets h.consistent.inverse hanswer
  have hout := FakeIpStore.answer_outcome h.consistent.inverse query
  rw [hanswer] at hout
  have hanswered : s.store.Answered store domain addr := hout
  have hlookup : store.lookup = Function.update s.store.lookup addr (some domain) :=
    hanswered.addrToDomain
  have husable : store.Usable := ⟨by rw [h4]; exact h.usable.v4, by rw [h6]; exact h.usable.v6⟩
  refine ⟨hc, husable, hwithin, h.on, h.days, fun addr' d t hlast => ?_⟩
  have hlast' : ((addr, domain, s.now) :: s.answers).lookup addr' = some (d, t) := hlast
  by_cases ha : addr' = addr
  · -- the answer that was just given
    subst ha
    rw [List.lookup_cons_self] at hlast'
    obtain ⟨rfl, rfl⟩ := Prod.mk.inj (Option.some.inj hlast')
    have hcovers : covers addr' = true := by rw [← h.consistent.contains]; exact hin
    have hself : store.lookup addr' = some domain := by rw [hlookup, Function.update_self]
    exact ⟨hcovers, .inr ⟨hself, h.row_answered hanswer hcovers hself⟩⟩
  · rw [List.lookup_cons, beq_false_of_ne ha] at hlast'
    obtain ⟨hcovers, hlasting⟩ := h.answered addr' d t hlast'
    have hsame : store.lookup addr' = s.store.lookup addr' := by
      rw [hlookup, Function.update_of_ne ha]
    exact ⟨hcovers, h.lasting_other hanswer ha hsame hlasting _⟩

theorem Kept.reply (h : Kept covers n s) {query : Bytes} (hstep : s.step (.reply query) = some s') :
    Kept covers n s' := by
  have hout := FakeIpStore.answer_outcome h.consistent.inverse query
  have hc := h.consistent.step hstep
  rcases hanswer : s.store.answer query with ⟨store, answer⟩
  simp only [Deployment.step, hanswer] at hstep
  rw [hanswer] at hout
  obtain rfl := Option.some.inj hstep
  cases answer with
  | address domain addr => exact h.answered_reply hanswer
  | _ =>
      obtain rfl : store = s.store := hout
      refine ⟨hc, h.usable, h.within, h.on, h.days, ?_⟩
      show ∀ addr d t, s.answers.lookup addr = some (d, t) →
        covers addr = true ∧ Lasting { s with queue := s.queue ++ [] } addr d t
      rw [List.append_nil]
      exact h.answered

theorem Kept.send (h : Kept covers n s) {op : WriteOp} (hstep : s.step (.send op) = some s') :
    Kept covers n s' := by
  have hc := h.consistent.step hstep
  have hstep' : (if isForeign s.store.contains op then
      some { s with queue := s.queue ++ [op] } else none) = some s' := hstep
  rw [h.consistent.contains] at hstep'
  split at hstep'
  · rename_i hforeign
    obtain rfl := Option.some.inj hstep'
    refine ⟨hc, h.usable, h.within, h.on, h.days, fun addr d t hlast => ?_⟩
    obtain ⟨hcov, hlasting⟩ := h.answered addr d t hlast
    exact ⟨hcov, hlasting.append (row_foreign hforeign hcov) rfl _⟩
  · cases hstep'

/-- The writer: a refresh that finds its row leaves the misses to those behind it. -/
theorem Kept.write (h : Kept covers n s) (hkeeps : Keeps n s .write)
    (hstep : s.step .write = some s') : Kept covers n s' := by
  have hc := h.consistent.step hstep
  obtain ⟨op, queue, db, hqueue, hrecv, rfl⟩ := Deployment.step_write hstep
  have hpending : Pending op := h.consistent.pending op (by rw [hqueue]; exact List.mem_cons_self ..)
  rw [hpending.recv] at hrecv
  obtain rfl := Option.some.inj hrecv
  refine ⟨hc, h.usable, h.within, h.on, h.days, fun addr d t hlast => ?_⟩
  obtain ⟨hcov, hlasting⟩ := h.answered addr d t hlast
  refine ⟨hcov, hlasting.imp (fun hold => hold) fun hnew => ⟨hnew.1, ?_⟩⟩
  have hor := hnew.2
  rw [hqueue] at hor
  refine hor.imp (fun hthere => hthere) fun hgone => ⟨hgone.1, fun hfind => hgone.2 ⟨?_, hfind⟩⟩
  intro t' hop
  subst hop
  have hfinds : isForeignKey s.store.contains addr.display = true ∨
      (s.db.row addr.display).isSome = true := by
    simpa only [Keeps, findsRow, hqueue, Bool.or_eq_true] using hkeeps
  refine hfinds.resolve_left fun hforeign => ?_
  obtain ⟨ip, heq, hout⟩ := exists_of_isForeignKey hforeign
  rw [← IpAddr.display_injective heq, h.consistent.contains, hcov] at hout
  cases hout

/-- A row that a clean-up drops is older than the lifetime. -/
theorem old_of_not_kept {days : UInt32} {now t : Nat} {d : Str} (h : kept days now (t, d) = false) :
    t + days.toNat * 86400 < now := by
  have hold := of_decide_eq_false h
  rw [Classical.not_imp] at hold
  have hlt : ¬ now - days.toNat * 86400 ≤ t := hold.2
  omega

/-- A clean-up removes rows that are too old, or leaves a refresh without its row. -/
theorem Kept.cleanup (h : Kept covers n s) (hstep : s.step .cleanup = some s') :
    Kept covers n s' := by
  have hc := h.consistent.step hstep
  obtain rfl := Option.some.inj hstep
  refine ⟨hc, h.usable, h.within, h.on, h.days, fun addr d t hlast => ?_⟩
  obtain ⟨hcov, hlasting⟩ := h.answered addr d t hlast
  refine ⟨hcov, ?_⟩
  rcases hlasting with hold | ⟨hmem, hor⟩
  · exact .inl hold
  · have hfilter := row_doCleanup s.db s.fakeipTtlDays s.now addr.display
    have hbelow : Below (doCleanup s.db s.fakeipTtlDays s.now) s.db :=
      below_of_filter fun k => row_doCleanup s.db s.fakeipTtlDays s.now k
    rcases hrow : (doCleanup s.db s.fakeipTtlDays s.now).row addr.display with _ | row
    · -- the row is gone: the queue does not need it, or a new answer is in there
      have hgone := replay_row_gone s.db hrow s.queue
      rcases hor with hthere | ⟨hnone, hmiss⟩
      · rcases hgone with heq | ⟨hnone, hmiss | hidle⟩
        · exact .inr ⟨hmem, .inl (heq.trans hthere)⟩
        · exact .inr ⟨hmem, .inr ⟨hnone, hmiss⟩⟩
        · -- the row itself is the last answer, and it was too old
          rw [hrow, ← hidle, hthere, Option.filter_some] at hfilter
          have hdrop : kept s.fakeipTtlDays s.now (t, d) = false := by
            by_contra hkept
            rw [if_pos (Bool.of_not_eq_false hkept)] at hfilter
            cases hfilter
          exact .inl (old_of_not_kept hdrop)
      · have hmiss' : ¬ TouchesFind addr.display (doCleanup s.db s.fakeipTtlDays s.now) s.queue :=
          fun hfind => hmiss (hfind.mono hbelow)
        refine .inr ⟨hmem, .inr ⟨?_, hmiss'⟩⟩
        rcases hgone with heq | ⟨hnone', -⟩
        · exact heq.trans hnone
        · exact hnone'
    · -- the row stays as it was
      have hsame : (doCleanup s.db s.fakeipTtlDays s.now).row addr.display
          = s.db.row addr.display := by
        rw [hrow] at hfilter ⊢
        exact (Option.filter_eq_some_iff.mp hfilter.symm).1.symm
      refine .inr ⟨hmem, hor.imp (fun hthere => ?_) fun hgone => ⟨?_, fun hfind => ?_⟩⟩
      · exact (replay_row_congr hsame s.queue).trans hthere
      · exact (replay_row_congr hsame s.queue).trans hgone.1
      · exact hgone.2 (hfind.mono hbelow)

/-- **A clean restart** restores every row that is young enough. -/
theorem Kept.restart (h : Kept covers n s) {cfg : FakeIpConfig} {storeDns : Bool}
    (hqueue : s.queue = []) (hstep : s.step (.restart cfg true n storeDns) = some s') :
    Kept covers n s' := by
  obtain ⟨hc, hlookup⟩ := h.consistent.restart hstep
  obtain ⟨hboot, h4, h6⟩ := Deployment.step_restart hstep
  have husable : s'.store.Usable := ⟨by rw [h4]; exact h.usable.v4, by rw [h6]; exact h.usable.v6⟩
  have hlookup' : s'.store.lookup = inRange covers s'.db.domainOf := hlookup
  obtain ⟨store, hnew, hs'⟩ := Deployment.boot_eq_ok hboot
  have hdb : s'.db = (openCacheFile s.db true n storeDns s.now).2 := by rw [hs']
  have hbelow : Below s'.db s.db := hdb ▸ Deployment.below_openCacheFile s.db true n storeDns s.now
  have hwithin : s'.store.Within := by
    refine within_boot hboot hc.keyed husable (by rw [hc.contains]; exact hlookup')
      fun ip d hd => ?_
    -- every row of the range was in memory before the restart
    have hbehind := h.consistent.behind h.on
    rw [hqueue] at hbehind
    rw [hc.contains] at hd
    exact FakeIpStore.givesOut_congr h4 h6 (h.within.givesOut (hbehind ip d (hbelow.inRange hd)))
  refine ⟨hc, husable, hwithin, by rw [hs'], by rw [hs'], fun addr d t hlast => ?_⟩
  have hlast' : s.answers.lookup addr = some (d, t) := by rw [hs'] at hlast; exact hlast
  obtain ⟨hcov, hlasting⟩ := h.answered addr d t hlast'
  refine ⟨hcov, ?_⟩
  have hnow : s'.now = s.now := by rw [hs']
  have hdays : s'.fakeipTtlDays = s.fakeipTtlDays := by rw [hs', h.days]
  have hempty : s'.queue = [] := by rw [hs']
  rcases hlasting with hold | ⟨-, hor⟩
  · refine .inl ?_
    rw [hnow, hdays]
    exact hold
  · have hrow : s.db.row addr.display = some (t, d) := by
      rw [hqueue] at hor
      exact hor.resolve_right fun hgone => hgone.2 trivial
    have hfilter : s'.db.row addr.display = (s.db.row addr.display).filter (kept n s.now) := by
      rw [hdb]
      exact row_openCacheFile s.db n storeDns s.now addr.display
    rw [hrow, Option.filter_some] at hfilter
    by_cases hkept : kept n s.now (t, d) = true
    · rw [if_pos hkept] at hfilter
      refine .inr ⟨?_, .inl ?_⟩
      · rw [hlookup']
        refine inRange_eq_some.mpr ⟨hcov, ?_⟩
        rw [Database.domainOf, hfilter]
        rfl
      · rw [hempty]
        exact hfilter
    · refine .inl ?_
      rw [hnow, hdays, h.days]
      exact old_of_not_kept (Bool.eq_false_of_not_eq_true hkept)

/-- **One event** that meets the condition `Keeps` keeps the invariant of runs with a lifetime. -/
theorem Kept.step (h : Kept covers n s) {event : FileEvent} (hkeeps : Keeps n s event)
    (hstep : s.step event = some s') : Kept covers n s' := by
  cases event with
  | reply query => exact h.reply hstep
  | setStrategy strategy =>
      have hc := h.consistent.step hstep
      obtain rfl := Option.some.inj hstep
      exact ⟨hc, ⟨h.usable.v4, h.usable.v6⟩, ⟨h.within.v4, h.within.v6⟩, h.on, h.days, h.answered⟩
  | send op => exact h.send hstep
  | write => exact h.write hkeeps hstep
  | cleanup => exact h.cleanup hstep
  | clock t =>
      have hc := h.consistent.step hstep
      obtain rfl := Option.some.inj hstep
      refine ⟨hc, h.usable, h.within, h.on, h.days, fun addr d t' hlast => ?_⟩
      obtain ⟨hcov, hlasting⟩ := h.answered addr d t' hlast
      exact ⟨hcov, hlasting.imp (fun hold => Nat.lt_of_lt_of_le hold hkeeps) fun hnew => hnew⟩
  | restart cfg storeFakeip days storeDns =>
      obtain ⟨hqueue, rfl, rfl⟩ := hkeeps
      exact h.restart (List.isEmpty_iff.mp hqueue) hstep

end Steps

/-! ### Whole runs -/

theorem kept_start {now : Nat} {cfg : FakeIpConfig} {n : UInt32} {storeDns : Bool}
    {s : Deployment} (h : Deployment.start now cfg true n storeDns = .ok s)
    (husable : s.store.Usable) : Kept s.store.contains n s := by
  obtain ⟨hc, hlookup⟩ := consistent_start h
  have hempty : ∀ ip, s.db.domainOf ip = none := by
    intro ip
    obtain ⟨store, -, rfl⟩ := Deployment.boot_eq_ok h
    show Option.map _ ((openCacheFile Database.create true n storeDns now).2.row ip.display) = none
    rw [row_openCacheFile]
    rfl
  have hwithin : s.store.Within := by
    refine within_boot h hc.keyed husable hlookup fun ip d hd => ?_
    rw [inRange_eq_some, hempty] at hd
    cases hd.2
  obtain ⟨store, -, rfl⟩ := Deployment.boot_eq_ok h
  exact ⟨hc, husable, hwithin, rfl, rfl, fun addr d t hlast => nomatch hlast⟩

/-- **Lifetimes.** In every run with a lifetime of `n` days in which no refresh misses its row, the
    clock is not set back and restarts are clean: once the queue is written, a clean restart leaves
    in memory every mapping that is the last answer of its address and not older than `n` days. -/
theorem answered_restored (now : Nat) (cfg : FakeIpConfig) (n : UInt32) (storeDns : Bool)
    (s₀ s : Deployment) (events : List FileEvent)
    (hstart : Deployment.start now cfg true n storeDns = .ok s₀) (husable : s₀.store.Usable)
    (hguard : Transition.Guarded Deployment.step (Keeps n) s₀ events)
    (hrun : Transition.run Deployment.step s₀ events = some s) (hdrained : s.queue = [])
    (cfg' : FakeIpConfig) (storeDns' : Bool) (s' : Deployment)
    (hrestart : s.step (.restart cfg' true n storeDns') = some s') (addr : IpAddr) (d : Str)
    (t : Nat) (hlast : s.answers.lookup addr = some (d, t))
    (hrecent : s.now ≤ t + n.toNat * 86400) : s'.store.lookup addr = some d := by
  have hkept : Kept s₀.store.contains n s :=
    Transition.invariant_of_run (fun _ _ _ hstep hkeeps h => h.step hkeeps hstep) hrun hguard
      (kept_start hstart husable)
  have hkept' := hkept.restart hdrained hrestart
  obtain ⟨hboot, -, -⟩ := Deployment.step_restart hrestart
  obtain ⟨store, -, rfl⟩ := Deployment.boot_eq_ok hboot
  rcases (hkept'.answered addr d t hlast).2 with hold | hnew
  · exact absurd hold (Nat.not_lt.mpr hrecent)
  · exact hnew.1

theorem usable_of_small {s : Deployment}
    (h : s.store.inet4Net = some (0xC6120000, 0xC6120003) ∧ s.store.inet6Net = none) :
    s.store.Usable := by
  refine ⟨fun net hnet => ?_, fun net hnet => ?_⟩
  · obtain rfl := Option.some.inj (h.1.symm.trans hnet)
    decide
  · rw [h.2] at hnet
    cases hnet

/-- `a` is answered on two days; both answers are written, and the restart restores the mapping. -/
theorem answered_restored_small :
    ∃ s₀ s s', Deployment.start 0 smallConfig true 1 false = .ok s₀ ∧
      Transition.run Deployment.step s₀ [.reply queryA, .write, .clock 80000, .cleanup,
        .reply queryA, .write, .clock 160000] = some s ∧
      s.step (.restart smallConfig true 1 false) = some s' ∧
      s.answers.lookup (.v4 0xC6120002) = some ("a".toList, 80000) ∧
      s'.store.lookup (.v4 0xC6120002) = some "a".toList := by
  obtain ⟨s₀, hstart, hany⟩ := exists_eq_ok_of_any
    (x := Deployment.start 0 smallConfig true 1 false)
    (p := fun (s₀ : Deployment) =>
      decide (s₀.store.inet4Net = some (0xC6120000, 0xC6120003) ∧ s₀.store.inet6Net = none) &&
      decide (Transition.Guarded Deployment.step (Keeps 1) s₀ [.reply queryA, .write,
        .clock 80000, .cleanup, .reply queryA, .write, .clock 160000]) &&
      (Transition.run Deployment.step s₀ [.reply queryA, .write, .clock 80000, .cleanup,
        .reply queryA, .write, .clock 160000]).any fun (s : Deployment) =>
          s.queue.isEmpty && decide (s.answers.lookup (.v4 0xC6120002) = some ("a".toList, 80000)) &&
          decide (s.now ≤ 80000 + (1 : UInt32).toNat * 86400) &&
          (s.step (.restart smallConfig true 1 false)).isSome)
    (by decide +kernel)
  obtain ⟨hleft, hany⟩ := Bool.and_eq_true_iff.mp hany
  obtain ⟨hnets, hguard⟩ := Bool.and_eq_true_iff.mp hleft
  obtain ⟨s, hrun, hs⟩ := (Option.any_eq_true _ _).mp hany
  simp only [Bool.and_eq_true, List.isEmpty_iff, decide_eq_true_eq] at hs
  obtain ⟨⟨⟨hqueue, hlast⟩, hrecent⟩, hsome⟩ := hs
  obtain ⟨s', hrestart⟩ := Option.isSome_iff_exists.mp hsome
  exact ⟨s₀, s, s', hstart, hrun, hrestart, hlast,
    answered_restored 0 smallConfig 1 false s₀ s _ hstart (usable_of_small (of_decide_eq_true hnets))
      (of_decide_eq_true hguard) hrun hqueue smallConfig false s' hrestart _ _ _ hlast hrecent⟩

/-- A refresh without its row: `a` is answered on the first day and on the fourth, when its row has
    been cleaned up; a clean restart right behind the second answer forgets the mapping. -/
theorem recent_answer_forgotten :
    ∃ s₀ s s', Deployment.start 0 smallConfig true 1 false = .ok s₀ ∧
      Transition.run Deployment.step s₀ [.reply queryA, .write, .clock 300000, .cleanup,
        .reply queryA, .write] = some s ∧
      s.queue = [] ∧ s.step (.restart smallConfig true 1 false) = some s' ∧
      s.answers.lookup (.v4 0xC6120002) = some ("a".toList, 300000) ∧
      s.now ≤ 300000 + (1 : UInt32).toNat * 86400 ∧ s'.store.lookup (.v4 0xC6120002) = none := by
  obtain ⟨s₀, hstart, hany⟩ := exists_eq_ok_of_any
    (x := Deployment.start 0 smallConfig true 1 false)
    (p := fun (s₀ : Deployment) =>
      (Transition.run Deployment.step s₀ [.reply queryA, .write, .clock 300000, .cleanup,
        .reply queryA, .write]).any fun (s : Deployment) =>
          s.queue.isEmpty &&
          decide (s.answers.lookup (.v4 0xC6120002) = some ("a".toList, 300000)) &&
          decide (s.now ≤ 300000 + (1 : UInt32).toNat * 86400) &&
          (s.step (.restart smallConfig true 1 false)).any fun (s' : Deployment) =>
            decide (s'.store.lookup (.v4 0xC6120002) = none))
    (by decide +kernel)
  obtain ⟨s, hrun, hs⟩ := (Option.any_eq_true _ _).mp hany
  simp only [Bool.and_eq_true, List.isEmpty_iff, decide_eq_true_eq] at hs
  obtain ⟨⟨⟨hqueue, hlast⟩, hrecent⟩, hs'⟩ := hs
  obtain ⟨s', hrestart, hnone⟩ := (Option.any_eq_true _ _).mp hs'
  exact ⟨s₀, s, s', hstart, hrun, hqueue, hrestart, hlast, hrecent, of_decide_eq_true hnone⟩

end Reflex.Dns
