import Reflex.Dns.Wire
import Reflex.Lib.PartialInverse
import Reflex.RustStd.Net
import Reflex.RustStd.Slice

namespace Reflex.Dns

open RustStd PartialInverse

/-!
# DNS — the FakeIP store

`FakeIpStore` of `dns/upstream.rs`, without the cache file: queries for addresses are answered
with addresses of a private range, and `lookup` finds the domain an address stands for.

* `Inverse` — per family, the table from domains to addresses and the reverse table are each
  other's inverse;
* `allocate_spec` — what one allocation does to the tables;
* `run_inverse_lookup` — after any sequence of queries and strategy changes the tables are
  inverse and `lookup` returns the domain an address was last answered for.
-/

/-! ### Ranges -/

/-- The shared body of `parse_ipv4_cidr` and `parse_ipv6_cidr`: first and last address of a
    block. -/
def parseCidrRange {w : Nat} (fromStr : Str → Option (BitVec w)) (family : Str) (s : Str) :
    Except Str (BitVec w × BitVec w) :=
  match splitOnce '/' s with
  | none => .error ("invalid ".toList ++ family ++ " CIDR: ".toList ++ s)
  | some (addrStr, preStr) =>
      match fromStr addrStr with
      | none => .error ("invalid ".toList ++ family ++ " address in CIDR: ".toList ++ s)
      | some addr =>
          match parseU32 preStr with
          | none => .error ("invalid prefix length in CIDR: ".toList ++ s)
          | some pre =>
              if pre.toNat ≤ w then
                let mask := if pre = 0 then 0 else BitVec.allOnes w <<< (w - pre.toNat)
                let net := addr &&& mask
                .ok (net, net ||| ~~~mask)
              else
                .error (family ++ " prefix length must be ≤ ".toList ++ display w ++ ": ".toList ++ s)

/-- `parse_ipv4_cidr`. -/
def parseIpv4Cidr (s : Str) : Except Str (Ipv4Addr × Ipv4Addr) :=
  parseCidrRange Ipv4Addr.fromStr "IPv4".toList s

/-- `parse_ipv6_cidr`. -/
def parseIpv6Cidr (s : Str) : Except Str (Ipv6Addr × Ipv6Addr) :=
  parseCidrRange Ipv6Addr.fromStr "IPv6".toList s

/-- `ipv4_next` and `ipv6_next`: the next address, wrapping. -/
def ipNext {w : Nat} (addr : BitVec w) : BitVec w := addr + 1

/-! ### The store -/

/-- `FakeIpConfig`. -/
structure FakeIpConfig where
  inet4Range : Option Str := none
  inet6Range : Option Str := none
  excludeDomain : List Str := []
  excludeDomainSuffix : List Str := []

/-- `ResolveStrategy`. -/
inductive ResolveStrategy where
  | preferIpv4 | preferIpv6 | ipv4Only | ipv6Only
  deriving DecidableEq, Repr

/-- `FakeIpInner`. -/
structure FakeIpInner where
  inet4Current : Option Ipv4Addr
  inet6Current : Option Ipv6Addr
  addrToDomain : IpAddr → Option Str
  domainToV4 : Str → Option Ipv4Addr
  domainToV6 : Str → Option Ipv6Addr

/-- `FakeIpStore`. -/
structure FakeIpStore where
  inet4Net : Option (Ipv4Addr × Ipv4Addr)
  inet6Net : Option (Ipv6Addr × Ipv6Addr)
  inner : FakeIpInner
  excludeDomain : List Str
  excludeDomainSuffix : List Str
  strategy : ResolveStrategy

namespace FakeIpStore

/-- `FakeIpStore::new`. -/
def new (cfg : FakeIpConfig) : Except Str FakeIpStore := do
  let inet4Net ← cfg.inet4Range.mapM parseIpv4Cidr
  let inet6Net ← cfg.inet6Range.mapM parseIpv6Cidr
  if inet4Net.isNone && inet6Net.isNone then
    .error "fakeip: at least one of inet4_range or inet6_range must be set".toList
  else
    return { inet4Net, inet6Net
             inner := { inet4Current := inet4Net.map fun net => ipNext net.1
                        inet6Current := inet6Net.map fun net => ipNext net.1
                        addrToDomain := fun _ => none
                        domainToV4 := fun _ => none
                        domainToV6 := fun _ => none }
             excludeDomain := cfg.excludeDomain.map toAsciiLowercase
             excludeDomainSuffix := cfg.excludeDomainSuffix.map fun s =>
               if s.head? = some '.' then toAsciiLowercase s else '.' :: toAsciiLowercase s
             strategy := .preferIpv4 }

/-- `FakeIpStore::set_strategy`. -/
def setStrategy (store : FakeIpStore) (s : ResolveStrategy) : FakeIpStore :=
  { store with strategy := s }

/-- `FakeIpStore::contains`. -/
def contains (store : FakeIpStore) : IpAddr → Bool
  | .v4 a => store.inet4Net.any fun net => decide (net.1 ≤ a ∧ a ≤ net.2)
  | .v6 a => store.inet6Net.any fun net => decide (net.1 ≤ a ∧ a ≤ net.2)

/-- `FakeIpStore::lookup`. -/
def lookup (store : FakeIpStore) (addr : IpAddr) : Option Str := store.inner.addrToDomain addr

/-- `FakeIpStore::is_excluded`. -/
def isExcluded (store : FakeIpStore) (domain : Str) : Bool :=
  let lower := toAsciiLowercase domain
  decide (lower ∈ store.excludeDomain) ||
    store.excludeDomainSuffix.any fun suffix =>
      decide (suffix <:+ lower) || decide (lower = trimStartMatches '.' suffix)

end FakeIpStore

/-- What an allocation in one family returns and leaves behind. -/
structure Allocation (w : Nat) where
  addr : BitVec w
  current : Option (BitVec w)
  domainTo : Str → Option (BitVec w)
  addrToDomain : IpAddr → Option Str

/-- The shared body of `allocate_v4` and `allocate_v6`: the address a domain has, or the next one
    of the range, which is taken away from its previous owner. -/
def allocate {w : Nat} (toIp : BitVec w → IpAddr) (net : Option (BitVec w × BitVec w))
    (current : Option (BitVec w)) (domainTo : Str → Option (BitVec w))
    (addrToDomain : IpAddr → Option Str) (domain : Str) : Option (Allocation w) :=
  match domainTo domain with
  | some existing => some ⟨existing, current, domainTo, addrToDomain⟩
  | none => do
      let (start, last) ← net
      let cur ← current
      -- the source's `next >= last` check: the last address of a range is never given out
      let next := if last ≤ ipNext cur then ipNext start else ipNext cur
      -- the range has wrapped: the address is taken away from the domain that had it
      let domainTo := match addrToDomain (toIp next) with
        | some oldDomain => Function.update domainTo oldDomain none
        | none => domainTo
      return ⟨next, some next, Function.update domainTo domain (some next),
        Function.update addrToDomain (toIp next) (some domain)⟩

namespace FakeIpStore

/-- `FakeIpStore::allocate_v4`. -/
def allocateV4 (store : FakeIpStore) (domain : Str) : FakeIpStore × Option Ipv4Addr :=
  match allocate .v4 store.inet4Net store.inner.inet4Current store.inner.domainToV4
      store.inner.addrToDomain domain with
  | some al =>
      ({ store with inner :=
          { store.inner with
            inet4Current := al.current, domainToV4 := al.domainTo
            addrToDomain := al.addrToDomain } }, some al.addr)
  | none => (store, none)

/-- `FakeIpStore::allocate_v6`. -/
def allocateV6 (store : FakeIpStore) (domain : Str) : FakeIpStore × Option Ipv6Addr :=
  match allocate .v6 store.inet6Net store.inner.inet6Current store.inner.domainToV6
      store.inner.addrToDomain domain with
  | some al =>
      ({ store with inner :=
          { store.inner with
            inet6Current := al.current, domainToV6 := al.domainTo
            addrToDomain := al.addrToDomain } }, some al.addr)
  | none => (store, none)

end FakeIpStore

/-! ### Replies -/

/-- `build_ip_response`: the query as it came, one answer behind it. -/
def buildIpResponse (query : Bytes) (rtype : Nat) (rdata : Bytes) : Bytes :=
  if query.length < 12 then makeNoerrorEmpty query
  else
    query.take 2 ++ [0x81, 0x80] ++ [0x00, 0x01] ++ [0x00, 0x01] ++ [0x00, 0x00] ++ [0x00, 0x00]
      ++ query.drop 12 ++ [0xC0, 0x0C] ++ beBytes 2 rtype ++ [0x00, 0x01] ++ beBytes 4 1
      ++ beBytes 2 rdata.length ++ rdata

/-- What `reply` decides to answer. -/
inductive Answer where
  | noerrorEmpty
  | nxdomain
  | address (domain : Str) (addr : IpAddr)
  deriving DecidableEq

/-- The message that `reply` sends for an answer. -/
def Answer.toBytes (query : Bytes) : Answer → Bytes
  | .noerrorEmpty => makeNoerrorEmpty query
  | .nxdomain => makeNxdomain query
  | .address _ (.v4 ip) => buildIpResponse query 1 ip.octets
  | .address _ (.v6 ip) => buildIpResponse query 28 ip.octets

namespace FakeIpStore

/-- The decisions of `FakeIpStore::reply`. -/
def answer (store : FakeIpStore) (query : Bytes) : FakeIpStore × Answer :=
  match extractQtype query with
  | none => (store, .noerrorEmpty)
  | some qtype =>
      if qtype ≠ 1 ∧ qtype ≠ 28 then (store, .noerrorEmpty)
      else
        match extractQname query with
        | none => (store, .noerrorEmpty)
        | some qname =>
            if store.isExcluded qname then (store, .nxdomain)
            else if qtype = 1 then
              if store.strategy = .ipv6Only then (store, .noerrorEmpty)
              else
                match store.allocateV4 qname with
                | (store, some ip) => (store, .address qname (.v4 ip))
                | (store, none) => (store, .noerrorEmpty)
            else
              if store.strategy = .ipv4Only then (store, .noerrorEmpty)
              else
                match store.allocateV6 qname with
                | (store, some ip) => (store, .address qname (.v6 ip))
                | (store, none) => (store, .noerrorEmpty)

/-- `FakeIpStore::reply`. -/
def reply (store : FakeIpStore) (query : Bytes) : FakeIpStore × Bytes :=
  let (store, answer) := store.answer query
  (store, answer.toBytes query)

end FakeIpStore

/-! ### The tables are inverse -/

/-- The tables from domains to addresses and the reverse table are inverse, family by family. -/
structure FakeIpInner.Inverse (inner : FakeIpInner) : Prop where
  v4 : MutuallyInverse inner.domainToV4 fun a => inner.addrToDomain (.v4 a)
  v6 : MutuallyInverse inner.domainToV6 fun a => inner.addrToDomain (.v6 a)

/-- A family's view of the shared reverse table sees an update at the address itself. -/
theorem view_update {w : Nat} {toIp : BitVec w → IpAddr} (htoIp : Function.Injective toIp)
    {addrToDomain : IpAddr → Option Str} {next : BitVec w} {v : Option Str} :
    (fun a => Function.update addrToDomain (toIp next) v (toIp a))
      = Function.update (fun a => addrToDomain (toIp a)) next v := by
  funext a
  by_cases ha : a = next
  · rw [ha, Function.update_self, Function.update_self]
  · rw [Function.update_of_ne ha, Function.update_of_ne (htoIp.ne ha)]

/-- A change under an address of one family is not seen through the view of the other one. -/
theorem view_other {w : Nat} {toIp : BitVec w → IpAddr} {addrToDomain : IpAddr → Option Str}
    {addr : IpAddr} {v : Option Str} (h : ∀ a, toIp a ≠ addr) :
    (fun a => Function.update addrToDomain addr v (toIp a)) = fun a => addrToDomain (toIp a) := by
  funext a
  exact Function.update_of_ne (h a) _ _

/-- **One allocation** keeps the tables of its family inverse, and the reverse table then says that
    the address stands for the domain. -/
theorem allocate_spec {w : Nat} {toIp : BitVec w → IpAddr} (htoIp : Function.Injective toIp)
    {net : Option (BitVec w × BitVec w)} {current : Option (BitVec w)}
    {domainTo : Str → Option (BitVec w)} {addrToDomain : IpAddr → Option Str} {domain : Str}
    {al : Allocation w} (hinv : MutuallyInverse domainTo fun a => addrToDomain (toIp a))
    (h : allocate toIp net current domainTo addrToDomain domain = some al) :
    MutuallyInverse al.domainTo (fun a => al.addrToDomain (toIp a)) ∧
      al.addrToDomain = Function.update addrToDomain (toIp al.addr) (some domain) := by
  unfold allocate at h
  rcases hdomain : domainTo domain with _ | existing
  · rw [hdomain] at h
    -- a new address; which one of the range it is does not matter for the tables
    simp only [Option.bind_eq_bind, Option.bind_eq_some_iff, Option.pure_def,
      Option.some.injEq] at h
    obtain ⟨⟨start, last⟩, -, cur, -, rfl⟩ := h
    refine ⟨?_, rfl⟩
    generalize (if last ≤ ipNext cur then ipNext start else ipNext cur) = next
    have hassign := hinv.assign hdomain next
    rw [← view_update htoIp] at hassign
    -- with and without a previous owner, `release` is what the source does to the table
    rcases howner : addrToDomain (toIp next) with _ | oldDomain
    · simpa only [release, howner] using hassign
    · simpa only [release, howner] using hassign
  · rw [hdomain] at h
    obtain rfl := Option.some.inj h
    refine ⟨hinv, ?_⟩
    -- the domain has an address already: the reverse table holds the pair, so the update is idle
    exact (Function.update_eq_self_iff.mpr ((hinv domain existing).mp hdomain).symm).symm

theorem v4_injective : Function.Injective IpAddr.v4 := fun _ _ h => IpAddr.v4.inj h

theorem v6_injective : Function.Injective IpAddr.v6 := fun _ _ h => IpAddr.v6.inj h

namespace FakeIpStore

/-- The store of an answer with an address: the tables are inverse, and the reverse table was
    updated at the address. -/
structure Answered (store store' : FakeIpStore) (domain : Str) (addr : IpAddr) : Prop where
  inverse : store'.inner.Inverse
  addrToDomain : store'.inner.addrToDomain
    = Function.update store.inner.addrToDomain addr (some domain)

theorem answered_allocateV4 {store store' : FakeIpStore} {domain : Str} {ip : Ipv4Addr}
    (hinv : store.inner.Inverse) (h : store.allocateV4 domain = (store', some ip)) :
    store.Answered store' domain (.v4 ip) := by
  unfold allocateV4 at h
  split at h
  · rename_i al hal
    obtain ⟨rfl, rfl⟩ : _ = store' ∧ al.addr = ip := by simpa using h
    obtain ⟨h4, haddr⟩ := allocate_spec v4_injective hinv.v4 hal
    refine ⟨⟨h4, ?_⟩, haddr⟩
    -- the other family shares the reverse table, but none of its addresses changed
    have hother : (fun a => al.addrToDomain (.v6 a)) = fun a => store.inner.addrToDomain (.v6 a) := by
      rw [haddr]
      exact view_other fun a => by simp
    simpa only [hother] using hinv.v6
  · simp at h

theorem answered_allocateV6 {store store' : FakeIpStore} {domain : Str} {ip : Ipv6Addr}
    (hinv : store.inner.Inverse) (h : store.allocateV6 domain = (store', some ip)) :
    store.Answered store' domain (.v6 ip) := by
  unfold allocateV6 at h
  split at h
  · rename_i al hal
    obtain ⟨rfl, rfl⟩ : _ = store' ∧ al.addr = ip := by simpa using h
    obtain ⟨h6, haddr⟩ := allocate_spec v6_injective hinv.v6 hal
    refine ⟨⟨?_, h6⟩, haddr⟩
    -- the other family shares the reverse table, but none of its addresses changed
    have hother : (fun a => al.addrToDomain (.v4 a)) = fun a => store.inner.addrToDomain (.v4 a) := by
      rw [haddr]
      exact view_other fun a => by simp
    simpa only [hother] using hinv.v4
  · simp at h

/-- An allocation that finds no free address leaves the store as it was. -/
theorem allocateV4_none {store store' : FakeIpStore} {domain : Str}
    (h : store.allocateV4 domain = (store', none)) : store' = store := by
  unfold allocateV4 at h
  split at h
  · simp at h
  · exact (Prod.mk.inj h).1.symm

theorem allocateV6_none {store store' : FakeIpStore} {domain : Str}
    (h : store.allocateV6 domain = (store', none)) : store' = store := by
  unfold allocateV6 at h
  split at h
  · simp at h
  · exact (Prod.mk.inj h).1.symm

/-- What the store may look like behind an answer: an allocation for an answer with an address,
    unchanged for any other. -/
def Outcome (store : FakeIpStore) : FakeIpStore × Answer → Prop
  | (store', .address domain addr) => store.Answered store' domain addr
  | (store', _) => store' = store

/-- **One query**, in whichever branch of `reply`: an answer with an address comes from an allocation, and any other
    leaves the store as it is. -/
theorem answer_outcome {store : FakeIpStore} (hinv : store.inner.Inverse) (query : Bytes) :
    store.Outcome (store.answer query) := by
  -- the branches of `reply`, in its order: only the two allocations touch the store
  unfold answer
  split
  · rfl
  · split
    · rfl
    · split
      · rfl
      · rename_i qname hqname
        split
        · rfl
        · split
          · split
            · rfl
            · split
              · rename_i store' ip halloc
                exact answered_allocateV4 hinv halloc
              · rename_i store' halloc
                exact allocateV4_none halloc
          · split
            · rfl
            · split
              · rename_i store' ip halloc
                exact answered_allocateV6 hinv halloc
              · rename_i store' halloc
                exact allocateV6_none halloc

/-- An answer with an address comes from an allocation in its family. -/
theorem answer_eq_address {store store' : FakeIpStore} {query : Bytes} {domain : Str}
    {addr : IpAddr} (h : store.answer query = (store', .address domain addr)) :
    (∃ ip, addr = .v4 ip ∧ store.allocateV4 domain = (store', some ip)) ∨
      ∃ ip, addr = .v6 ip ∧ store.allocateV6 domain = (store', some ip) := by
  unfold answer at h
  split at h
  · cases h
  · split at h
    · cases h
    · split at h
      · cases h
      · split at h
        · cases h
        · split at h
          · split at h
            · cases h
            · split at h
              · rename_i ip halloc
                cases h
                exact .inl ⟨ip, rfl, halloc⟩
              · cases h
          · split at h
            · cases h
            · split at h
              · rename_i ip halloc
                cases h
                exact .inr ⟨ip, rfl, halloc⟩
              · cases h

/-- An answer leaves the ranges as they are. -/
theorem answer_nets {store store' : FakeIpStore} {query : Bytes} {answer : Answer}
    (hinv : store.inner.Inverse) (h : store.answer query = (store', answer)) :
    store'.inet4Net = store.inet4Net ∧ store'.inet6Net = store.inet6Net := by
  have hout := answer_outcome hinv query
  rw [h] at hout
  cases answer with
  | noerrorEmpty => rw [show store' = store from hout]; exact ⟨rfl, rfl⟩
  | nxdomain => rw [show store' = store from hout]; exact ⟨rfl, rfl⟩
  | address domain addr =>
      rcases answer_eq_address h with ⟨ip, -, halloc⟩ | ⟨ip, -, halloc⟩
      · unfold allocateV4 at halloc
        split at halloc
        · rw [← (Prod.mk.inj halloc).1]
          exact ⟨rfl, rfl⟩
        · cases halloc
      · unfold allocateV6 at halloc
        split at halloc
        · rw [← (Prod.mk.inj halloc).1]
          exact ⟨rfl, rfl⟩
        · cases halloc

theorem contains_eq_of_nets {store store' : FakeIpStore} (h4 : store'.inet4Net = store.inet4Net)
    (h6 : store'.inet6Net = store.inet6Net) : store'.contains = store.contains := by
  funext ip
  cases ip with
  | v4 v4 => rw [contains, contains, h4]
  | v6 v6 => rw [contains, contains, h6]

/-- The tables of a new store are empty, and its cursors are one behind the first address. -/
theorem new_inner {cfg : FakeIpConfig} {store : FakeIpStore} (h : new cfg = .ok store) :
    store.inner = { inet4Current := store.inet4Net.map fun net => ipNext net.1
                    inet6Current := store.inet6Net.map fun net => ipNext net.1
                    addrToDomain := fun _ => none
                    domainToV4 := fun _ => none
                    domainToV6 := fun _ => none } := by
  unfold new at h
  rcases h4 : cfg.inet4Range.mapM parseIpv4Cidr with e | inet4Net
  · rw [h4] at h
    cases h
  · rw [h4] at h
    rcases h6 : cfg.inet6Range.mapM parseIpv6Cidr with e | inet6Net
    · rw [h6] at h
      cases h
    · rw [h6] at h
      simp only [bind, Except.bind] at h
      split at h
      · cases h
      · obtain rfl := Except.ok.inj h
        rfl

theorem inverse_new {cfg : FakeIpConfig} {store : FakeIpStore} (h : new cfg = .ok store) :
    store.inner.Inverse ∧ store.inner.addrToDomain = fun _ => none := by
  rw [new_inner h]
  exact ⟨⟨mutuallyInverse_empty, mutuallyInverse_empty⟩, rfl⟩

end FakeIpStore

/-! ### Whole runs -/

/-- What can happen to a store: a query to answer, or a change of the strategy. -/
inductive StoreOp where
  | reply (query : Bytes)
  | setStrategy (s : ResolveStrategy)

/-- A store and the addresses it has answered so far, the latest first, each with the domain it
    was answered for. -/
structure History where
  store : FakeIpStore
  answers : List (IpAddr × Str)

/-- Record an answer. -/
def History.record (h : History) : FakeIpStore × Answer → History
  | (store, .address domain addr) => ⟨store, (addr, domain) :: h.answers⟩
  | (store, _) => ⟨store, h.answers⟩

/-- One step of a run. -/
def History.step (h : History) : StoreOp → History
  | .reply query => h.record (h.store.answer query)
  | .setStrategy s => ⟨h.store.setStrategy s, h.answers⟩

/-- A run from a fresh store. -/
def History.run (store : FakeIpStore) (ops : List StoreOp) : History :=
  ops.foldl History.step ⟨store, []⟩

/-- The invariant of a run: the tables are inverse, and the reverse table returns the domain that
    an address was last answered for. -/
structure History.Consistent (h : History) : Prop where
  inverse : h.store.inner.Inverse
  lookup : ∀ addr, h.store.lookup addr = h.answers.lookup addr

theorem History.Consistent.step {h : History} (hc : h.Consistent) (op : StoreOp) :
    (h.step op).Consistent := by
  cases op with
  | setStrategy s => exact ⟨hc.inverse, hc.lookup⟩
  | reply query =>
    have hout := FakeIpStore.answer_outcome hc.inverse query
    rcases hanswer : h.store.answer query with ⟨store, _ | _ | ⟨domain, addr⟩⟩
    case address =>
      rw [hanswer] at hout
      have hanswered : h.store.Answered store domain addr := hout
      rw [History.step, hanswer]
      refine ⟨hanswered.inverse, fun a => ?_⟩
      -- the update of the table is the new head of the history
      show store.inner.addrToDomain a = ((addr, domain) :: h.answers).lookup a
      rw [hanswered.addrToDomain]
      by_cases ha : a = addr
      · subst ha
        rw [Function.update_self, List.lookup_cons_self]
      · rw [Function.update_of_ne ha, List.lookup_cons, beq_false_of_ne ha]
        exact hc.lookup a
    all_goals
      rw [hanswer] at hout
      obtain rfl : store = h.store := hout
      rw [History.step, hanswer]
      exact ⟨hc.inverse, hc.lookup⟩

/-- **Whole runs.** From any accepted configuration, after any sequence of queries and strategy
    changes, the tables are inverse in both families, and `lookup` returns the domain that an
    address was last answered for. -/
theorem run_inverse_lookup (cfg : FakeIpConfig) (store : FakeIpStore)
    (hnew : FakeIpStore.new cfg = .ok store) (ops : List StoreOp) :
    (∀ d a, (History.run store ops).store.inner.domainToV4 d = some a ↔
        (History.run store ops).store.inner.addrToDomain (.v4 a) = some d) ∧
      (∀ d a, (History.run store ops).store.inner.domainToV6 d = some a ↔
        (History.run store ops).store.inner.addrToDomain (.v6 a) = some d) ∧
      ∀ addr, (History.run store ops).store.lookup addr
        = (History.run store ops).answers.lookup addr := by
  obtain ⟨hinv, hempty⟩ := FakeIpStore.inverse_new hnew
  have hinit : (⟨store, []⟩ : History).Consistent :=
    ⟨hinv, fun addr => by rw [FakeIpStore.lookup, hempty]; rfl⟩
  -- induction on the operations, with `Consistent` as the invariant
  have hrun : (History.run store ops).Consistent :=
    List.foldlRecOn ops History.step hinit fun h hc op _ => hc.step op
  exact ⟨hrun.inverse.v4, hrun.inverse.v6, hrun.lookup⟩

/-- A query for the IPv4 address of `a`. -/
def queryA : Bytes := [0, 1, 1, 0, 0, 1, 0, 0, 0, 0, 0, 0, 1, 0x61, 0, 0, 1, 0, 1]

/-- In a range of four addresses `a` gets the third one, and keeps it. -/
theorem run_inverse_lookup_small :
    ∃ store, FakeIpStore.new { inet4Range := some "198.18.0.0/30".toList } = .ok store ∧
      (History.run store [.reply queryA, .setStrategy .ipv4Only, .reply queryA]).store.lookup
        (.v4 0xC6120002) = some "a".toList ∧
      ∀ addr, (History.run store [.reply queryA, .setStrategy .ipv4Only, .reply queryA]).store.lookup
          addr
        = (History.run store [.reply queryA, .setStrategy .ipv4Only, .reply queryA]).answers.lookup
          addr := by
  obtain ⟨store, hnew, hlookup⟩ := exists_eq_ok_of_any
    (x := FakeIpStore.new { inet4Range := some "198.18.0.0/30".toList })
    (p := fun store => decide
      ((History.run store [.reply queryA, .setStrategy .ipv4Only, .reply queryA]).store.lookup
        (.v4 0xC6120002) = some "a".toList))
    (by decide +kernel)
  exact ⟨store, hnew, of_decide_eq_true hlookup, (run_inverse_lookup _ store hnew _).2.2⟩

end Reflex.Dns
