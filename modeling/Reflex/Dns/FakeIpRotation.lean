import Reflex.Dns.FakeIpBounds
import Reflex.Lib.PrefixBlock
import Reflex.Lib.Rotation

namespace Reflex.Dns

open RustStd Experimental Rotation PrefixBlock

/-!
# DNS — the order in which FakeIP addresses are given out

The cursors of `allocate_v4` and `allocate_v6` of `dns/upstream.rs` go around the addresses between the
first and the last one of their range, from wherever `new_with_cache` has left them: the addresses in a
cache file that was written with the same range lie between the two as well.

* `goesAround_nextAddr` — the way of a cursor around its range;
* `Issued` — the invariant of a process and its file;
* `Reached.rotates` — an address is given to another domain only after all others of its range were.
-/

variable {w : Nat}

/-! ### Around a range -/

/-- The address lies between the first and the last one of the range. -/
def Between (net : BitVec w × BitVec w) (a : BitVec w) : Prop := net.1 < a ∧ a < net.2

/-- How many addresses of a range are given out: those between its two ends. -/
def poolSize (net : BitVec w × BitVec w) : Nat := net.2.toNat - net.1.toNat - 1

/-- A range that has an address between its ends. -/
def Wide (net : BitVec w × BitVec w) : Prop := net.1.toNat + 2 ≤ net.2.toNat

/-- The address behind the first one lies between. -/
theorem between_first {net : BitVec w × BitVec w} (h : Wide net) : Between net (ipNext net.1) := by
  have hsize := net.2.isLt
  have hwide : net.1.toNat + 2 ≤ net.2.toNat := h
  have hnext := toNat_ipNext (a := net.1) (by omega)
  refine ⟨?_, ?_⟩
  · show net.1.toNat < (ipNext net.1).toNat
    omega
  · show (ipNext net.1).toNat < net.2.toNat
    omega

/-- **The way of the cursor**: one address behind the other, and from the last one but one to the first
    one but one. -/
theorem goesAround_nextAddr {net : BitVec w × BitVec w} (h : Wide net) :
    GoesAround (nextAddr net) {a | Between net a} (fun a => a.toNat - net.1.toNat - 1)
      (poolSize net) := by
  have hsize := net.2.isLt
  have hwide : net.1.toNat + 2 ≤ net.2.toNat := h
  have hfirst := toNat_ipNext (a := net.1) (by omega)
  have hbounds : ∀ a, Between net a → net.1.toNat < a.toNat ∧ a.toNat < net.2.toNat := fun a ha => ha
  have hnext : ∀ a, Between net a → (ipNext a).toNat = a.toNat + 1 := fun a ha =>
    toNat_ipNext (by have := hbounds a ha; omega)
  -- the four parts of going around: the step stays inside, places are below the size, are different, and go on
  -- by one
  refine ⟨fun a ha => ?_, fun a ha => ?_, fun a ha b hb heq => ?_, fun a ha => ?_⟩
  · unfold nextAddr
    split
    · exact between_first h
    · rename_i hlast
      refine ⟨?_, BitVec.not_le.mp hlast⟩
      show net.1.toNat < (ipNext a).toNat
      have := hbounds a ha
      have := hnext a ha
      omega
  · have := hbounds a ha
    show a.toNat - net.1.toNat - 1 < net.2.toNat - net.1.toNat - 1
    omega
  · have := hbounds a ha
    have := hbounds b hb
    have hplace : a.toNat - net.1.toNat - 1 = b.toNat - net.1.toNat - 1 := heq
    exact BitVec.eq_of_toNat_eq (by omega)
  · have ha' := hbounds a ha
    have hnext' := hnext a ha
    show (nextAddr net a).toNat - net.1.toNat - 1 = (a.toNat - net.1.toNat - 1 + 1) % poolSize net
    unfold nextAddr poolSize
    split
    · -- the round is over
      rename_i hlast
      have hend : net.2.toNat ≤ (ipNext a).toNat := hlast
      rw [hfirst, show a.toNat - net.1.toNat - 1 + 1 = net.2.toNat - net.1.toNat - 1 by omega,
        Nat.mod_self]
      omega
    · rename_i hlast
      have hbefore : (ipNext a).toNat < net.2.toNat := BitVec.not_le.mp hlast
      rw [Nat.mod_eq_of_lt (by omega), hnext']
      omega

/-! ### The cursor of a family -/

namespace Pool

/-- Cursor and addresses of a range with room lie between its first and its last one. -/
structure Circling (p : Pool w) : Prop where
  cursor : ∀ net, p.net = some net → Wide net → ∃ cur, p.current = some cur ∧ Between net cur
  held : ∀ net, p.net = some net → Wide net → ∀ d a, p.domainTo d = some a → Between net a

variable {p p' : Pool w} {domain : Str} {r : Option (BitVec w)}

theorem Allocates.net_eq (h : p.Allocates domain p' r) : p'.net = p.net := by
  cases h <;> rfl

/-- **One allocation** leaves the pool circling, and gives an address strictly between the ends of its range. -/
theorem Allocates.circling (h : p.Allocates domain p' r) (hp : p.Circling) :
    p'.Circling ∧ ∀ a, r = some a → ∀ net, p.net = some net → Wide net → Between net a := by
  cases h with
  | existing hdomain =>
    refine ⟨hp, fun a ha net hnet hwide => ?_⟩
    obtain rfl := Option.some.inj ha
    exact hp.held net hnet hwide domain _ hdomain
  | @fresh net cur domainTo hdomain hnet hcur hnew =>
    have hnext : ∀ net', p.net = some net' → Wide net' → Between net' (nextAddr net cur) := by
      intro net' hnet' hwide
      obtain rfl := Option.some.inj (hnet.symm.trans hnet')
      obtain ⟨cur', hcur', hbetween⟩ := hp.cursor net hnet hwide
      obtain rfl := Option.some.inj (hcur.symm.trans hcur')
      exact (goesAround_nextAddr hwide).mapsTo hbetween
    refine ⟨⟨fun net' hnet' hwide => ⟨_, rfl, hnext net' hnet' hwide⟩,
      fun net' hnet' hwide d a hd => ?_⟩, fun a ha net' hnet' hwide => ?_⟩
    · rcases hnew d a hd with rfl | hold
      · exact hnext net' hnet' hwide
      · exact hp.held net' hnet' hwide d a hold
    · obtain rfl := Option.some.inj ha
      exact hnext net' hnet' hwide
  | exhausted hdomain hnone => exact ⟨hp, fun a ha => nomatch ha⟩

/-- The addresses that rows bring to the domains are their own. -/
theorem mem_of_foldl_restoreRow {net : Option (BitVec w × BitVec w)} {rows : List (BitVec w × Str)}
    {d : Str} {a : BitVec w} (h : (rows.foldl restoreRow (new net)).domainTo d = some a) :
    ∃ row ∈ rows, row.1 = a := by
  induction rows using List.reverseRecOn with
  | nil => cases h
  | append_singleton rows row ih =>
    rw [List.foldl_append, List.foldl_cons, List.foldl_nil, restoreRow] at h
    split at h
    · rcases Transition.update_eq_some h with ⟨-, rfl⟩ | ⟨-, hold⟩
      · exact ⟨row, by simp, rfl⟩
      · obtain ⟨row', hrow', heq⟩ := ih hold
        exact ⟨row', List.mem_append_left _ hrow', heq⟩
    · obtain ⟨row', hrow', heq⟩ := ih h
      exact ⟨row', List.mem_append_left _ hrow', heq⟩

end Pool

namespace Pool

/-- **A start**, with rows whose addresses lie between the first and the last one. -/
theorem circling_restored {net : Option (BitVec w × BitVec w)} {rows : List (BitVec w × Str)}
    (hrows : ∀ n, net = some n → Wide n → ∀ row ∈ rows, Covers n row.1 → Between n row.1) :
    (restored net rows).Circling := by
  have hnet : (restored net rows).net = net := foldl_restoreRow_net (new net) rows
  refine ⟨fun n hn hwide => ?_, fun n hn hwide d a hd => ?_⟩
  · obtain rfl : net = some n := hnet.symm.trans hn
    have hwide' : n.1.toNat + 2 ≤ n.2.toNat := hwide
    have hlt : n.1 < n.2 := show n.1.toNat < n.2.toNat by omega
    obtain ⟨c, hc, hcase⟩ := current_foldl hlt rows
    have hlast : lastRow n rows ≠ some (BitVec.allOnes w) := by
      intro hlast
      -- the row would be at the end of the range, or behind it
      obtain ⟨row, hrow, heq⟩ := List.mem_map.mp (List.mem_filter.mp (List.mem_of_getLast? hlast)).1
      have hbelow := (hrows n rfl hwide row hrow (heq ▸ covers_lastRow hlast)).2
      rw [heq] at hbelow
      exact absurd (le_allOnes n.2) (BitVec.not_le.mpr hbelow)
    rw [if_neg hlast] at hcase
    have hcur : (restored (some n) rows).current = if n.2 ≤ c then some (ipNext n.1) else some c := by
      rw [restored, hc]
      simp only [FakeIpStore.rewind, Option.any_some, decide_eq_true_eq]
    rw [hcur]
    split
    · exact ⟨_, rfl, between_first hwide⟩
    · rename_i hbefore
      exact ⟨c, rfl, hcase.1, BitVec.not_le.mp hbefore⟩
  · obtain rfl : net = some n := hnet.symm.trans hn
    obtain ⟨row, hrow, rfl⟩ := mem_of_foldl_restoreRow hd
    obtain ⟨n', hn', hcovers⟩ := held_restored (some n) rows d row.1 hd
    obtain rfl : n = n' := Option.some.inj (hnet.symm.trans hn')
    exact hrows n rfl hwide row hrow hcovers

end Pool

/-! ### A process and its file -/

namespace FakeIpStore

/-- An address of a range with room lies between its first and its last one. -/
def Inner (store : FakeIpStore) : IpAddr → Prop
  | .v4 a => ∀ net, store.inet4Net = some net → Wide net → Covers net a → Between net a
  | .v6 a => ∀ net, store.inet6Net = some net → Wide net → Covers net a → Between net a

theorem inner_congr {store store' : FakeIpStore} (h4 : store'.inet4Net = store.inet4Net)
    (h6 : store'.inet6Net = store.inet6Net) {ip : IpAddr} (h : store.Inner ip) : store'.Inner ip := by
  rcases ip with a | a
  · show ∀ net, store'.inet4Net = some net → _
    rw [h4]
    exact h
  · show ∀ net, store'.inet6Net = some net → _
    rw [h6]
    exact h

/-- Both families of the store are circling. -/
structure Circling (store : FakeIpStore) : Prop where
  pool4 : store.pool4.Circling
  pool6 : store.pool6.Circling

/-- **One call** leaves both pools circling in the ranges that they had, and gives an inner address. -/
theorem Circling.allocateOp {store : FakeIpStore} (h : store.Circling) (op : AllocateOp) :
    (store.allocateOp op).1.Circling ∧
      (store.allocateOp op).1.inet4Net = store.inet4Net ∧
      (store.allocateOp op).1.inet6Net = store.inet6Net ∧
      ∀ ip, (store.allocateOp op).2 = some ip → store.Inner ip := by
  rcases op with domain | domain
  · obtain ⟨hstep, hother⟩ := store.allocateV4_pools domain
    obtain ⟨hcircling, hinner⟩ := hstep.circling h.pool4
    refine ⟨⟨hcircling, ?_⟩, hstep.net_eq, congrArg Pool.net hother, fun ip hip => ?_⟩
    · show (store.allocateV4 domain).1.pool6.Circling
      rw [hother]
      exact h.pool6
    · obtain ⟨a, ha, rfl⟩ := Option.map_eq_some_iff.mp hip
      exact fun net hnet hwide _ => hinner a ha net hnet hwide
  · obtain ⟨hstep, hother⟩ := store.allocateV6_pools domain
    obtain ⟨hcircling, hinner⟩ := hstep.circling h.pool6
    refine ⟨⟨?_, hcircling⟩, congrArg Pool.net hother, hstep.net_eq, fun ip hip => ?_⟩
    · show (store.allocateV6 domain).1.pool4.Circling
      rw [hother]
      exact h.pool4
    · obtain ⟨a, ha, rfl⟩ := Option.map_eq_some_iff.mp hip
      exact fun net hnet hwide _ => hinner a ha net hnet hwide

/-- An answer with an address is one call. -/
theorem exists_allocateOp {store store' : FakeIpStore} {query : Bytes} {domain : Str} {addr : IpAddr}
    (h : store.answer query = (store', .address domain addr)) :
    ∃ op, store.allocateOp op = (store', some addr) := by
  rcases answer_eq_address h with ⟨ip, rfl, halloc⟩ | ⟨ip, rfl, halloc⟩
  · exact ⟨.v4 domain, by rw [FakeIpStore.allocateOp, halloc]; rfl⟩
  · exact ⟨.v6 domain, by rw [FakeIpStore.allocateOp, halloc]; rfl⟩

/-- **A start**, from records whose addresses are inner ones. -/
theorem circling_newWithCache {cfg : FakeIpConfig} {cacheFile : Option CacheFile}
    {cacheReader : Option Database} {store : FakeIpStore}
    (h : newWithCache cfg cacheFile cacheReader = .ok store)
    (hrecords : ∀ r ∈ cachedRecords cacheFile cacheReader, store.Inner r.1) : store.Circling := by
  obtain ⟨h4, h6, -, -⟩ := started_newWithCache h
  constructor
  · rw [h4]
    refine Pool.circling_restored fun net hnet hwide row hrow => ?_
    obtain ⟨⟨ip, d⟩, hr, hfamily⟩ := List.mem_filterMap.mp hrow
    rcases ip with a | a
    · obtain rfl := Option.some.inj hfamily
      exact hrecords _ hr net hnet hwide
    · cases hfamily
  · rw [h6]
    refine Pool.circling_restored fun net hnet hwide row hrow => ?_
    obtain ⟨⟨ip, d⟩, hr, hfamily⟩ := List.mem_filterMap.mp hrow
    rcases ip with a | a
    · cases hfamily
    · obtain rfl := Option.some.inj hfamily
      exact hrecords _ hr net hnet hwide

end FakeIpStore

/-- **The invariant of a process and its file**: the addresses in memory, in the file and in the pending
    messages are inner ones. -/
structure Issued (covers : IpAddr → Bool) (s : Deployment) : Prop where
  consistent : Consistent covers s
  circling : s.store.Circling
  rows : ∀ ip d, s.db.domainOf ip = some d → s.store.Inner ip
  queued : ∀ (ip : IpAddr) d t, .storeFakeip ip.display d t ∈ s.queue → s.store.Inner ip

section Steps

variable {covers : IpAddr → Bool} {s s' : Deployment}

/-- A message of another part of the program is not about an address of the ranges. -/
theorem inner_of_foreign {store : FakeIpStore} {ip : IpAddr} {d : Str} {t : Nat}
    (h : isForeign store.contains (.storeFakeip ip.display d t) = true) : store.Inner ip := by
  obtain ⟨ip', hdisplay, hout⟩ := exists_of_isForeignKey h
  obtain rfl := IpAddr.display_injective hdisplay
  rcases ip with a | a
  · intro net hnet _ hcovers
    rw [FakeIpStore.contains_v4.mpr ⟨net, hnet, hcovers⟩] at hout
    cases hout
  · intro net hnet _ hcovers
    rw [FakeIpStore.contains_v6.mpr ⟨net, hnet, hcovers⟩] at hout
    cases hout

theorem Issued.send (h : Issued covers s) {op : WriteOp} (hstep : s.step (.send op) = some s') :
    Issued covers s' := by
  have hc := h.consistent.step hstep
  have hstep' : (if isForeign s.store.contains op then
      some { s with queue := s.queue ++ [op] } else none) = some s' := hstep
  split at hstep'
  · rename_i hforeign
    obtain rfl := Option.some.inj hstep'
    refine ⟨hc, h.circling, h.rows, fun ip d t hmem => ?_⟩
    rcases List.mem_append.mp hmem with hold | hnew
    · exact h.queued ip d t hold
    · rw [← List.mem_singleton.mp hnew] at hforeign
      exact inner_of_foreign hforeign
  · cases hstep'

/-- **An answer** puts an inner address into memory and queue, if it puts one there at all. -/
theorem Issued.reply (h : Issued covers s) {query : Bytes} (hstep : s.step (.reply query) = some s') :
    Issued covers s' := by
  have hc := h.consistent.step hstep
  have hout := FakeIpStore.answer_outcome h.consistent.inverse query
  rcases hanswer : s.store.answer query with ⟨store, answer⟩
  simp only [Deployment.step, hanswer] at hstep
  rw [hanswer] at hout
  obtain rfl := Option.some.inj hstep
  rcases answer with _ | _ | ⟨domain, addr⟩
  · obtain rfl : store = s.store := hout
    exact ⟨hc, h.circling, h.rows, by simpa [FakeIpStore.replyWrites] using h.queued⟩
  · obtain rfl : store = s.store := hout
    exact ⟨hc, h.circling, h.rows, by simpa [FakeIpStore.replyWrites] using h.queued⟩
  · obtain ⟨op, hop⟩ := FakeIpStore.exists_allocateOp hanswer
    obtain ⟨hcircling, h4, h6, hinner⟩ := h.circling.allocateOp op
    rw [hop] at hcircling h4 h6 hinner
    refine ⟨hc, hcircling, fun ip d hd => FakeIpStore.inner_congr h4 h6 (h.rows ip d hd),
      fun ip d t hmem => FakeIpStore.inner_congr h4 h6 ?_⟩
    rcases List.mem_append.mp hmem with hold | hnew
    · exact h.queued ip d t hold
    · -- the message is about the address that is answered
      rcases FakeIpStore.replyWrites_address hanswer s.file s.now with ⟨-, hw⟩ | hw
      · rw [hw, CacheFile.touchFakeipEntry] at hnew
        split at hnew
        · simp at hnew
        · simp at hnew
      · rw [hw, CacheFile.storeFakeipEntry] at hnew
        split at hnew
        · obtain ⟨hdisplay, -⟩ := WriteOp.storeFakeip.inj (List.mem_singleton.mp hnew)
          rw [IpAddr.display_injective hdisplay]
          exact hinner addr rfl
        · cases hnew

/-- The writer applies the first message of the queue, and the addresses in the file stay inner ones. -/
theorem Issued.write (h : Issued covers s) (hstep : s.step .write = some s') : Issued covers s' := by
  have hc := h.consistent.step hstep
  obtain ⟨op, queue, db, hqueue, hrecv, rfl⟩ := Deployment.step_write hstep
  have hpending : Pending op := h.consistent.pending op (by simp [hqueue])
  rw [hpending.recv] at hrecv
  obtain rfl := Option.some.inj hrecv
  have hqueued : ∀ (ip : IpAddr) d t, .storeFakeip ip.display d t ∈ op :: queue → s.store.Inner ip :=
    hqueue ▸ h.queued
  refine ⟨hc, h.circling, fun ip d hd => ?_, fun ip d t hmem =>
    hqueued ip d t (List.mem_cons_of_mem _ hmem)⟩
  have hd' : (applyOp s.db op).domainOf ip = some d := hd
  cases op with
  | storeFakeip k domain t =>
    obtain ⟨ip', rfl⟩ := hpending
    rw [domainOf_storeFakeip] at hd'
    rcases Transition.update_eq_some hd' with ⟨rfl, -⟩ | ⟨-, hold⟩
    · exact hqueued ip domain t (List.mem_cons_self ..)
    · exact h.rows ip d hold
  | touchFakeip k t =>
    rw [domainOf_touchFakeip] at hd'
    exact h.rows ip d hd'
  | _ => exact h.rows ip d hd'

/-- **A start**, on a file with inner addresses. -/
theorem Issued.of_boot {db : Database} {now : Nat} {stored : List (Str × Str)}
    {answers : List (IpAddr × Str × Nat)} {cfg : FakeIpConfig} {storeFakeip : Bool} {days : UInt32}
    {storeDns : Bool}
    (hboot : Deployment.boot db now stored answers cfg storeFakeip days storeDns = .ok s)
    (hc : Consistent covers s) (hrows : ∀ ip d, db.domainOf ip = some d → s.store.Inner ip) :
    Issued covers s := by
  obtain ⟨store, hnew, hs⟩ := bind_eq_ok.mp hboot
  obtain rfl := Except.ok.inj hs
  have hbelow := Deployment.below_openCacheFile db storeFakeip days storeDns now
  have hopened : ∀ ip d, (openCacheFile db storeFakeip days storeDns now).2.domainOf ip = some d →
      store.Inner ip := fun ip d hd => hrows ip d (hbelow.domainOf hd)
  refine ⟨hc, FakeIpStore.circling_newWithCache hnew fun r hr => ?_, hopened, fun ip d t hmem =>
    nomatch hmem⟩
  rw [cachedRecords] at hr
  split at hr
  · exact hopened r.1 r.2 ((mem_loadAllFakeip hc.keyed).mp hr)
  · cases hr

/-- **One event** keeps the addresses in memory, file and queue inner ones. -/
theorem Issued.step (h : Issued covers s) {event : FileEvent} (hstep : s.step event = some s') :
    Issued covers s' := by
  have hc := h.consistent.step hstep
  cases event with
  | reply query => exact h.reply hstep
  | setStrategy strategy =>
    obtain rfl := Option.some.inj hstep
    exact ⟨hc, ⟨h.circling.pool4, h.circling.pool6⟩,
      fun ip d hd => FakeIpStore.inner_congr rfl rfl (h.rows ip d hd),
      fun ip d t hmem => FakeIpStore.inner_congr rfl rfl (h.queued ip d t hmem)⟩
  | send op => exact h.send hstep
  | write => exact h.write hstep
  | cleanup =>
    obtain rfl := Option.some.inj hstep
    have hbelow : Below (doCleanup s.db s.fakeipTtlDays s.now) s.db :=
      below_of_filter fun k => row_doCleanup s.db s.fakeipTtlDays s.now k
    exact ⟨hc, h.circling, fun ip d hd => h.rows ip d (hbelow.domainOf hd), h.queued⟩
  | clock t =>
    obtain rfl := Option.some.inj hstep
    exact ⟨hc, h.circling, h.rows, h.queued⟩
  | restart cfg storeFakeip days storeDns =>
    obtain ⟨hboot, h4, h6⟩ := Deployment.step_restart hstep
    exact Issued.of_boot hboot hc fun ip d hd => FakeIpStore.inner_congr h4 h6 (h.rows ip d hd)

end Steps

/-! ### New addresses -/

namespace FakeIpStore

/-- What `allocate_v4` returns to the domains that have no address when they ask. -/
def freshV4 : FakeIpStore → List AllocateOp → List (Option Ipv4Addr)
  | _, [] => []
  | store, .v4 d :: ops =>
      if store.inner.domainToV4 d = none then
        (store.allocateV4 d).2 :: freshV4 (store.allocateV4 d).1 ops
      else freshV4 (store.allocateV4 d).1 ops
  | store, .v6 d :: ops => freshV4 (store.allocateV6 d).1 ops

/-- What `allocate_v6` returns to them. -/
def freshV6 : FakeIpStore → List AllocateOp → List (Option Ipv6Addr)
  | _, [] => []
  | store, .v4 d :: ops => freshV6 (store.allocateV4 d).1 ops
  | store, .v6 d :: ops =>
      if store.inner.domainToV6 d = none then
        (store.allocateV6 d).2 :: freshV6 (store.allocateV6 d).1 ops
      else freshV6 (store.allocateV6 d).1 ops

end FakeIpStore

/-- **One allocation** moves the cursor once for a domain without an address, and else not. -/
theorem Pool.Allocates.fresh_eq {p p' : Pool w} {domain : Str} {r : Option (BitVec w)}
    (h : p.Allocates domain p' r) {net : BitVec w × BitVec w} {cur : BitVec w}
    (hnet : p.net = some net) (hcur : p.current = some cur) :
    if p.domainTo domain = none then r = some (nextAddr net cur) ∧ p'.current = r
    else p'.current = some cur := by
  cases h with
  | existing hdomain => simp [hdomain, hcur]
  | fresh hdomain hnet' hcur' hnew =>
    obtain rfl := Option.some.inj (hnet.symm.trans hnet')
    obtain rfl := Option.some.inj (hcur.symm.trans hcur')
    simp [hdomain]
  | exhausted hdomain hnone => simp [hnet, hcur] at hnone

namespace FakeIpStore

/-- **New addresses of a family** are consecutive: each operation either allocates in its pool, and the
    address is new if the domain had none, or leaves the pool alone. -/
theorem exists_iterate_of_allocates (pool : FakeIpStore → Pool w)
    (fresh : FakeIpStore → List AllocateOp → List (Option (BitVec w)))
    (hnil : ∀ store, fresh store [] = [])
    (hcons : ∀ store op ops, ∃ store',
      (∃ d r, (pool store).Allocates d (pool store') r ∧ fresh store (op :: ops)
        = if (pool store).domainTo d = none then r :: fresh store' ops else fresh store' ops) ∨
      (pool store' = pool store ∧ fresh store (op :: ops) = fresh store' ops))
    {store : FakeIpStore} {net : BitVec w × BitVec w} {cur : BitVec w}
    (hnet : (pool store).net = some net) (hcur : (pool store).current = some cur)
    (ops : List AllocateOp) :
    ∃ n, fresh store ops = (List.iterate (nextAddr net) (nextAddr net cur) n).map some := by
  induction ops generalizing store cur with
  | nil => exact ⟨0, hnil store⟩
  | cons op ops ih =>
    obtain ⟨store', ⟨d, r, hstep, hfresh⟩ | ⟨hpool, hfresh⟩⟩ := hcons store op ops
    · have hnet' := hstep.net_eq.trans hnet
      have hcursor := hstep.fresh_eq hnet hcur
      rw [hfresh]
      split_ifs at hcursor ⊢ with hdomain
      · obtain ⟨hr, hcur'⟩ := hcursor
        obtain ⟨n, hn⟩ := ih hnet' (hcur'.trans hr)
        exact ⟨n + 1, by rw [hr, hn]; rfl⟩
      · exact ih hnet' hcursor
    · rw [hfresh]
      exact ih (hpool ▸ hnet) (hpool ▸ hcur)

/-- **The new addresses** are those on the way of the cursor. -/
theorem freshV4_eq {store : FakeIpStore} {net : Ipv4Addr × Ipv4Addr} {cur : Ipv4Addr}
    (hnet : store.inet4Net = some net) (hcur : store.inner.inet4Current = some cur)
    (ops : List AllocateOp) :
    ∃ n, store.freshV4 ops = (List.iterate (nextAddr net) (nextAddr net cur) n).map some := by
  refine exists_iterate_of_allocates pool4 freshV4 (fun _ => rfl) ?_ hnet hcur ops
  rintro store (d | d) ops
  · exact ⟨_, .inl ⟨d, _, (store.allocateV4_pools d).1, rfl⟩⟩
  · exact ⟨_, .inr ⟨(store.allocateV6_pools d).2, rfl⟩⟩

theorem freshV6_eq {store : FakeIpStore} {net : Ipv6Addr × Ipv6Addr} {cur : Ipv6Addr}
    (hnet : store.inet6Net = some net) (hcur : store.inner.inet6Current = some cur)
    (ops : List AllocateOp) :
    ∃ n, store.freshV6 ops = (List.iterate (nextAddr net) (nextAddr net cur) n).map some := by
  refine exists_iterate_of_allocates pool6 freshV6 (fun _ => rfl) ?_ hnet hcur ops
  rintro store (d | d) ops
  · exact ⟨_, .inr ⟨(store.allocateV4_pools d).2, rfl⟩⟩
  · exact ⟨_, .inl ⟨d, _, (store.allocateV6_pools d).1, rfl⟩⟩

end FakeIpStore

/-- The new addresses of a run go around the range: each is one between the first and the last, no two
    are the same among as many as there are, and before one comes again all others come. -/
structure Rotates (net : BitVec w × BitVec w) (rs : List (Option (BitVec w))) : Prop where
  inside : ∀ r ∈ rs, ∃ a, r = some a ∧ Between net a
  distinct : ∀ l, l <:+: rs → l.length ≤ poolSize net → l.Nodup
  recycled : ∀ s l t r, rs = s ++ r :: (l ++ r :: t) → ∀ a, Between net a → some a ≠ r → some a ∈ l

theorem rotates_iterate {net : BitVec w × BitVec w} (hwide : Wide net) {a : BitVec w}
    (ha : Between net a) (n : Nat) : Rotates net ((List.iterate (nextAddr net) a n).map some) := by
  have haround := goesAround_nextAddr hwide
  constructor
  · intro r hr
    obtain ⟨b, hb, rfl⟩ := List.mem_map.mp hr
    obtain ⟨i, -, rfl⟩ := List.mem_iterate.mp hb
    exact ⟨_, rfl, haround.mapsTo.iterate i ha⟩
  · intro l hl hlen
    obtain ⟨l', hl', rfl⟩ := List.infix_map_iff.mp hl
    rw [List.length_map] at hlen
    exact (haround.nodup_of_infix ha hl' hlen).map (Option.some_injective _)
  · intro s l t r heq c hc hne
    obtain ⟨s, rest, heq, rfl, hrest⟩ := List.map_eq_append_iff.mp heq
    obtain ⟨b, rest, rfl, rfl, hrest⟩ := List.map_eq_cons_iff.mp hrest
    obtain ⟨l, last, rfl, rfl, hlast⟩ := List.map_eq_append_iff.mp hrest
    obtain ⟨b', t, rfl, hb, -⟩ := List.map_eq_cons_iff.mp hlast
    obtain rfl := Option.some.inj hb
    exact List.mem_map_of_mem (haround.mem_between ha heq hc fun h => hne (congrArg some h))

/-! ### Ranges with room -/

/-- The prefix length of a range as it is written. -/
def prefixLength (range : Str) : Option UInt32 := (splitOnce '/' range).bind fun p => parseU32 p.2

/-- Two bits behind the prefix make room for two addresses. -/
theorem wide_of_prefixLength {fromStr : Str → Option (BitVec w)} {family range : Str}
    {net : BitVec w × BitVec w} (h : parseCidrRange fromStr family range = .ok net) {p : UInt32}
    (hbits : prefixLength range = some p) (hle : p.toNat + 2 ≤ w) : Wide net := by
  obtain ⟨⟨addrStr, preStr⟩, hsplit, hpre⟩ := Option.bind_eq_some_iff.mp hbits
  have hpre' : parseU32 preStr = some p := hpre
  rw [parseCidrRange, hsplit] at h
  dsimp only at h
  split at h
  · cases h
  · rename_i addr haddr
    rw [hpre'] at h
    dsimp only at h
    rw [if_pos (show p.toNat ≤ w by omega)] at h
    -- the mask of the prefix length zero is no exception
    have hmask : (if p = 0 then (0 : BitVec w) else BitVec.allOnes w <<< (w - p.toNat))
        = highMask w (w - p.toNat) := by
      split
      · rename_i hzero
        rw [hzero, highMask]
        exact (BitVec.shiftLeft_eq_zero (le_refl w)).symm
      · rfl
    rw [hmask] at h
    obtain rfl := Except.ok.inj h
    show BitVec.toNat _ + 2 ≤ BitVec.toNat _
    have hpow : 2 ^ 2 ≤ 2 ^ (w - p.toNat) := Nat.pow_le_pow_right (by decide) (by omega)
    rw [toNat_block_end addr (Nat.sub_le _ _), toNat_and_highMask]
    omega

/-! ### Runs -/

/-- A store that a process with these ranges may have: a new one, or one of a process that has rebuilt its
    tables from what processes with the same ranges have written, at any time. -/
inductive Reached (cfg : FakeIpConfig) : FakeIpStore → Prop
  | new {store : FakeIpStore} (h : FakeIpStore.new cfg = .ok store) : Reached cfg store
  | deployed {now : Nat} {storeFakeip : Bool} {days : UInt32} {storeDns : Bool} {s₀ s : Deployment}
      {events : List FileEvent}
      (hstart : Deployment.start now cfg storeFakeip days storeDns = .ok s₀)
      (hrun : Transition.run Deployment.step s₀ events = some s) : Reached cfg s.store

/-- The ranges of the store are those of the configuration. -/
structure Ranged (cfg : FakeIpConfig) (store : FakeIpStore) : Prop where
  v4 : cfg.inet4Range.mapM parseIpv4Cidr = .ok store.inet4Net
  v6 : cfg.inet6Range.mapM parseIpv6Cidr = .ok store.inet6Net

theorem ranged_new {cfg : FakeIpConfig} {store : FakeIpStore} (h : FakeIpStore.new cfg = .ok store) :
    Ranged cfg store := by
  obtain ⟨inet4Net, h4, h⟩ := bind_eq_ok.mp h
  obtain ⟨inet6Net, h6, h⟩ := bind_eq_ok.mp h
  split at h
  · cases h
  · obtain rfl := Except.ok.inj h
    exact ⟨h4, h6⟩

theorem ranged_start {now : Nat} {cfg : FakeIpConfig} {storeFakeip : Bool} {days : UInt32}
    {storeDns : Bool} {s : Deployment}
    (h : Deployment.start now cfg storeFakeip days storeDns = .ok s) : Ranged cfg s.store := by
  obtain ⟨store, hnew, rfl⟩ := Deployment.boot_eq_ok h
  obtain ⟨h4, h6⟩ := ranged_new hnew
  cases storeFakeip with
  | false => exact ⟨h4, h6⟩
  | true =>
    obtain ⟨hr4, hr6⟩ := FakeIpStore.restore_nets store
      (loadAllFakeip (openCacheFile Database.create true days storeDns now).2)
    exact ⟨h4.trans (congrArg Except.ok hr4.symm), h6.trans (congrArg Except.ok hr6.symm)⟩

theorem Ranged.step {cfg : FakeIpConfig} {s s' : Deployment} (h : Ranged cfg s.store)
    (hinv : s.store.inner.Inverse) {event : FileEvent} (hstep : s.step event = some s') :
    Ranged cfg s'.store := by
  have hnets : s'.store.inet4Net = s.store.inet4Net ∧ s'.store.inet6Net = s.store.inet6Net := by
    cases event with
    | reply query =>
      rcases hanswer : s.store.answer query with ⟨store, answer⟩
      simp only [Deployment.step, hanswer] at hstep
      obtain rfl := Option.some.inj hstep
      exact FakeIpStore.answer_nets hinv hanswer
    | send op =>
      simp only [Deployment.step, Option.ite_none_right_eq_some] at hstep
      obtain rfl := Option.some.inj hstep.2
      exact ⟨rfl, rfl⟩
    | write =>
      obtain ⟨op, queue, db, -, -, rfl⟩ := Deployment.step_write hstep
      exact ⟨rfl, rfl⟩
    | restart cfg storeFakeip days storeDns => exact (Deployment.step_restart hstep).2
    | setStrategy strategy =>
      obtain rfl := Option.some.inj hstep
      exact ⟨rfl, rfl⟩
    | cleanup =>
      obtain rfl := Option.some.inj hstep
      exact ⟨rfl, rfl⟩
    | clock t =>
      obtain rfl := Option.some.inj hstep
      exact ⟨rfl, rfl⟩
  exact ⟨h.v4.trans (congrArg Except.ok hnets.1.symm), h.v6.trans (congrArg Except.ok hnets.2.symm)⟩

/-- **Whatever happens**, a store is circling in the ranges of its configuration. -/
theorem Reached.circling {cfg : FakeIpConfig} {store : FakeIpStore} (h : Reached cfg store) :
    store.Circling ∧ Ranged cfg store := by
  cases h with
  | new h =>
    have hnone : FakeIpStore.newWithCache cfg none none = .ok store := bind_eq_ok.mpr ⟨store, h, rfl⟩
    exact ⟨FakeIpStore.circling_newWithCache hnone fun r hr => (nomatch hr), ranged_new h⟩
  | @deployed now storeFakeip days storeDns s₀ s events hstart hrun =>
    have hempty : ∀ ip d, Database.create.domainOf ip = some d → s₀.store.Inner ip :=
      fun ip d hd => nomatch hd
    have hissued := Issued.of_boot hstart (consistent_start hstart).1 hempty
    have hstep : ∀ s event s', s.step event = some s' →
        Issued s₀.store.contains s ∧ Ranged cfg s.store →
        Issued s₀.store.contains s' ∧ Ranged cfg s'.store := fun s event s' hstep h =>
      ⟨h.1.step hstep, h.2.step h.1.consistent.inverse hstep⟩
    obtain ⟨hissued', hranged⟩ :=
      Transition.invariant_of_steps hstep hrun ⟨hissued, ranged_start hstart⟩
    exact ⟨hissued'.circling, hranged⟩

theorem eq_some_of_mapM {parse : Str → Except Str (BitVec w × BitVec w)} {range : Option Str}
    {parsed : Option (BitVec w × BitVec w)} (h : range.mapM parse = .ok parsed) {s : Str}
    {net : BitVec w × BitVec w} (hrange : range = some s) (hnet : parse s = .ok net) :
    parsed = some net := by
  rw [hrange] at h
  obtain ⟨net', hnet', hsome⟩ := bind_eq_ok.mp h
  obtain rfl := Except.ok.inj (hnet.symm.trans hnet')
  exact (Except.ok.inj hsome).symm

/-- **The order of addresses.** In a range with a prefix of 30 bits at most, 126 bits for IPv6, the
    addresses that a process gives to domains without one go around the range, in every sequence of
    allocations from every store it may have. -/
theorem Reached.rotates {cfg : FakeIpConfig} {store : FakeIpStore} (h : Reached cfg store)
    (ops : List AllocateOp) :
    (∀ range net p, cfg.inet4Range = some range → parseIpv4Cidr range = .ok net →
        prefixLength range = some p → p ≤ 30 →
        store.inet4Net = some net ∧ Rotates net (store.freshV4 ops)) ∧
      ∀ range net p, cfg.inet6Range = some range → parseIpv6Cidr range = .ok net →
        prefixLength range = some p → p ≤ 126 →
        store.inet6Net = some net ∧ Rotates net (store.freshV6 ops) := by
  obtain ⟨hcircling, hranged⟩ := h.circling
  constructor
  · intro range net p hrange hparse hbits hle
    have hnet := eq_some_of_mapM hranged.v4 hrange hparse
    have hroom : p.toNat ≤ 30 := hle
    have hwide := wide_of_prefixLength hparse hbits (by omega)
    obtain ⟨cur, hcur, hbetween⟩ := hcircling.pool4.cursor net hnet hwide
    obtain ⟨n, hn⟩ := FakeIpStore.freshV4_eq hnet hcur ops
    rw [hn]
    exact ⟨hnet, rotates_iterate hwide ((goesAround_nextAddr hwide).mapsTo hbetween) n⟩
  · intro range net p hrange hparse hbits hle
    have hnet := eq_some_of_mapM hranged.v6 hrange hparse
    have hroom : p.toNat ≤ 126 := hle
    have hwide := wide_of_prefixLength hparse hbits (by omega)
    obtain ⟨cur, hcur, hbetween⟩ := hcircling.pool6.cursor net hnet hwide
    obtain ⟨n, hn⟩ := FakeIpStore.freshV6_eq hnet hcur ops
    rw [hn]
    exact ⟨hnet, rotates_iterate hwide ((goesAround_nextAddr hwide).mapsTo hbetween) n⟩

/-- `a` is answered and its row written; the restart goes on behind it, and around. -/
theorem rotates_small :
    ∃ s₀ s, Deployment.start 0 smallConfig true 7 false = .ok s₀ ∧
      Transition.run Deployment.step s₀ [.reply queryA, .write, .restart smallConfig true 7 false]
        = some s ∧
      s.store.freshV4 [.v4 "a".toList, .v4 "b".toList, .v4 "c".toList, .v4 "a".toList]
        = [some 0xC6120002, some 0xC6120001, some 0xC6120002] ∧
      Rotates (0xC6120000#32, 0xC6120003#32) (s.store.freshV4
        [.v4 "a".toList, .v4 "b".toList, .v4 "c".toList, .v4 "a".toList]) := by
  obtain ⟨s₀, hstart, hany⟩ := exists_eq_ok_of_any
    (x := Deployment.start 0 smallConfig true 7 false)
    (p := fun (s₀ : Deployment) => (Transition.run Deployment.step s₀
      [.reply queryA, .write, .restart smallConfig true 7 false]).any fun (s : Deployment) =>
        decide (s.store.freshV4 [.v4 "a".toList, .v4 "b".toList, .v4 "c".toList, .v4 "a".toList]
          = [some 0xC6120002, some 0xC6120001, some 0xC6120002])) (by decide +kernel)
  obtain ⟨s, hrun, hfresh⟩ := (Option.any_eq_true _ _).mp hany
  have hreached : Reached smallConfig s.store := .deployed hstart hrun
  have hparse : parseIpv4Cidr "198.18.0.0/30".toList = .ok (0xC6120000, 0xC6120003) := by
    decide
  have hrotates := (hreached.rotates
    [.v4 "a".toList, .v4 "b".toList, .v4 "c".toList, .v4 "a".toList]).1 "198.18.0.0/30".toList _ 30 rfl
      hparse (by decide) (by decide)
  exact ⟨s₀, s, hstart, hrun, of_decide_eq_true hfresh, hrotates.2⟩

end Reflex.Dns
