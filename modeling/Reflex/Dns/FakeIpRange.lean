import Reflex.Dns.FakeIp

namespace Reflex.Dns

open RustStd PartialInverse

/-!
# DNS — FakeIP addresses and their range

The cursor of `allocate_v4` and `allocate_v6` starts one behind the first address, and an address
at or behind the last one is replaced by the one behind the first.  In a range of one address, and
in the last two addresses of the address space, this leads out of the range.

* `UsableNet` — the other ranges;
* `Given` — the addresses such a range gives out, `given_first` and `given_next`;
* `FakeIpStore.Within.answer` — every answer of a store with usable ranges is an address of them.
-/

variable {w : Nat}

/-- More than one address, and not the last two of the address space. -/
def UsableNet (net : BitVec w × BitVec w) : Prop :=
  net.1 < net.2 ∧ ¬ (ipNext net.1 = net.2 ∧ net.2 = BitVec.allOnes w)

instance {w : Nat} (net : BitVec w × BitVec w) : Decidable (UsableNet net) :=
  inferInstanceAs (Decidable (_ ∧ ¬ _))

/-- The addresses a range gives out: neither its first one nor its last one, unless there is no
    other. -/
def Given (net : BitVec w × BitVec w) (a : BitVec w) : Prop :=
  net.1 < a ∧ a ≤ net.2 ∧ (a = net.2 → ipNext net.1 = net.2)

theorem toNat_ipNext {a : BitVec w} (h : a.toNat + 1 < 2 ^ w) :
    (ipNext a).toNat = a.toNat + 1 := by
  have hone : (1#w).toNat = 1 := by
    rw [BitVec.toNat_ofNat]
    exact Nat.mod_eq_of_lt (by omega)
  show (a + 1#w).toNat = _
  rw [BitVec.toNat_add, hone, Nat.mod_eq_of_lt h]

theorem given_first {net : BitVec w × BitVec w} (h : UsableNet net) : Given net (ipNext net.1) := by
  have hlt : net.1.toNat < net.2.toNat := h.1
  have hnext := toNat_ipNext (a := net.1) (by have := net.2.isLt; omega)
  refine ⟨?_, ?_, fun heq => heq⟩
  · show net.1.toNat < (ipNext net.1).toNat
    omega
  · show (ipNext net.1).toNat ≤ net.2.toNat
    omega

/-- The address behind one of the range is a larger one: it does not wrap. -/
theorem Given.toNat_next {net : BitVec w × BitVec w} (h : UsableNet net) {a : BitVec w}
    (ha : Given net a) : (ipNext a).toNat = a.toNat + 1 := by
  apply toNat_ipNext
  have hle : a.toNat ≤ net.2.toNat := ha.2.1
  by_contra hwrap
  -- only the largest address wraps, and then it is the end of the range
  have hend : a = net.2 := BitVec.eq_of_toNat_eq (by have := net.2.isLt; omega)
  refine h.2 ⟨ha.2.2 hend, BitVec.eq_of_toNat_eq ?_⟩
  rw [BitVec.toNat_allOnes, ← hend]
  have := a.isLt
  omega

theorem given_next {net : BitVec w × BitVec w} (h : UsableNet net) {a : BitVec w}
    (ha : Given net a) (hlt : ¬ net.2 ≤ ipNext a) : Given net (ipNext a) := by
  have hnext := ha.toNat_next h
  have hstart : net.1.toNat < a.toNat := ha.1
  have hbelow : (ipNext a).toNat < net.2.toNat := by
    have : ¬ net.2.toNat ≤ (ipNext a).toNat := hlt
    omega
  refine ⟨?_, ?_, fun heq => ?_⟩
  · show net.1.toNat < (ipNext a).toNat
    omega
  · show (ipNext a).toNat ≤ net.2.toNat
    omega
  · rw [heq] at hbelow
    exact absurd hbelow (Nat.lt_irrefl _)

/-! ### Allocation -/

/-- Cursor and table of one family stay within the addresses the range gives out. -/
structure Roaming (net : Option (BitVec w × BitVec w)) (current : Option (BitVec w))
    (view : BitVec w → Option Str) : Prop where
  cursor : ∀ n cur, net = some n → current = some cur → Given n cur
  given : ∀ a d, view a = some d → ∃ n, net = some n ∧ Given n a

/-- **One allocation** in a usable range keeps the cursor and the addresses of the tables within it. -/
theorem Roaming.allocate {toIp : BitVec w → IpAddr} (htoIp : Function.Injective toIp)
    {net : Option (BitVec w × BitVec w)} {current : Option (BitVec w)}
    {domainTo : Str → Option (BitVec w)} {addrToDomain : IpAddr → Option Str} {domain : Str}
    {al : Allocation w} (husable : ∀ n, net = some n → UsableNet n)
    (hinv : MutuallyInverse domainTo fun a => addrToDomain (toIp a))
    (hroam : Roaming net current fun a => addrToDomain (toIp a))
    (h : allocate toIp net current domainTo addrToDomain domain = some al) :
    Roaming net al.current (fun a => al.addrToDomain (toIp a)) ∧
      ∃ n, net = some n ∧ Given n al.addr := by
  unfold Dns.allocate at h
  rcases hdomain : domainTo domain with _ | existing
  · rw [hdomain] at h
    simp only [Option.bind_eq_bind, Option.bind_eq_some_iff, Option.pure_def,
      Option.some.injEq] at h
    obtain ⟨⟨start, last⟩, hnet, cur, hcur, rfl⟩ := h
    have hu := husable _ hnet
    -- the next address behind the cursor, or the first one again
    have hgiven : Given (start, last)
        (if last ≤ ipNext cur then ipNext start else ipNext cur) := by
      split
      · exact given_first hu
      · rename_i hlt
        exact given_next hu (hroam.cursor _ _ hnet hcur) hlt
    refine ⟨⟨?_, ?_⟩, _, hnet, hgiven⟩
    · intro n cur' hn hcur'
      obtain rfl := Option.some.inj (hnet.symm.trans hn)
      obtain rfl := Option.some.inj hcur'
      exact hgiven
    · intro a d hview
      dsimp only at hview
      -- the tables have the new address, and the old ones as before
      by_cases ha : a = if last ≤ ipNext cur then ipNext start else ipNext cur
      · rw [ha]
        exact ⟨_, hnet, hgiven⟩
      · rw [Function.update_of_ne (htoIp.ne ha)] at hview
        exact hroam.given a d hview
  · rw [hdomain] at h
    obtain rfl := Option.some.inj h
    -- a name that is known keeps its address
    exact ⟨hroam, hroam.given existing domain ((hinv domain existing).mp hdomain)⟩

namespace FakeIpStore

/-- The ranges of the store are usable. -/
structure Usable (store : FakeIpStore) : Prop where
  v4 : ∀ net, store.inet4Net = some net → UsableNet net
  v6 : ∀ net, store.inet6Net = some net → UsableNet net

/-- Both families stay within what their ranges give out. -/
structure Within (store : FakeIpStore) : Prop where
  v4 : Roaming store.inet4Net store.inner.inet4Current fun a => store.inner.addrToDomain (.v4 a)
  v6 : Roaming store.inet6Net store.inner.inet6Current fun a => store.inner.addrToDomain (.v6 a)

theorem contains_of_given {store : FakeIpStore} {net : Ipv4Addr × Ipv4Addr} {a : Ipv4Addr}
    (hnet : store.inet4Net = some net) (h : Given net a) : store.contains (.v4 a) = true := by
  rw [contains, hnet]
  exact decide_eq_true ⟨BitVec.le_of_lt h.1, h.2.1⟩

theorem contains_of_given_v6 {store : FakeIpStore} {net : Ipv6Addr × Ipv6Addr} {a : Ipv6Addr}
    (hnet : store.inet6Net = some net) (h : Given net a) : store.contains (.v6 a) = true := by
  rw [contains, hnet]
  exact decide_eq_true ⟨BitVec.le_of_lt h.1, h.2.1⟩

/-- Every address in memory is one of the ranges. -/
theorem Within.contains {store : FakeIpStore} (h : store.Within) {ip : IpAddr} {d : Str}
    (hd : store.lookup ip = some d) : store.contains ip = true := by
  cases ip with
  | v4 a =>
      obtain ⟨n, hn, hgiven⟩ := h.v4.given a d hd
      exact contains_of_given hn hgiven
  | v6 a =>
      obtain ⟨n, hn, hgiven⟩ := h.v6.given a d hd
      exact contains_of_given_v6 hn hgiven

/-- **One answer** of a store with usable ranges is an address of them. -/
theorem Within.answer {store store' : FakeIpStore} {query : Bytes} {domain : Str} {addr : IpAddr}
    (hw : store.Within) (husable : store.Usable) (hinv : store.inner.Inverse)
    (h : store.answer query = (store', .address domain addr)) :
    store'.Within ∧ store.contains addr = true := by
  rcases answer_eq_address h with ⟨ip, rfl, halloc⟩ | ⟨ip, rfl, halloc⟩
  · have hanswered := answered_allocateV4 hinv halloc
    unfold allocateV4 at halloc
    split at halloc
    · rename_i al hal
      obtain ⟨rfl, rfl⟩ : _ = store' ∧ al.addr = ip := by simpa using halloc
      obtain ⟨hroam, n, hn, hgiven⟩ := hw.v4.allocate v4_injective husable.v4 hinv.v4 hal
      refine ⟨⟨hroam, ?_⟩, contains_of_given hn hgiven⟩
      rw [hanswered.addrToDomain, view_other fun a => by simp]
      exact hw.v6
    · cases halloc
  · have hanswered := answered_allocateV6 hinv halloc
    unfold allocateV6 at halloc
    split at halloc
    · rename_i al hal
      obtain ⟨rfl, rfl⟩ : _ = store' ∧ al.addr = ip := by simpa using halloc
      obtain ⟨hroam, n, hn, hgiven⟩ := hw.v6.allocate v6_injective husable.v6 hinv.v6 hal
      refine ⟨⟨?_, hroam⟩, contains_of_given_v6 hn hgiven⟩
      rw [hanswered.addrToDomain, view_other fun a => by simp]
      exact hw.v4
    · cases halloc

/-- A new store starts within its ranges. -/
theorem within_new {cfg : FakeIpConfig} {store : FakeIpStore} (h : new cfg = .ok store)
    (husable : store.Usable) : store.Within := by
  have hinner := new_inner h
  constructor
  · rw [hinner]
    refine ⟨fun n cur hn hcur => ?_, fun a d hd => nomatch hd⟩
    dsimp only at hcur
    rw [hn] at hcur
    obtain rfl := Option.some.inj hcur
    exact given_first (husable.v4 n hn)
  · rw [hinner]
    refine ⟨fun n cur hn hcur => ?_, fun a d hd => nomatch hd⟩
    dsimp only at hcur
    rw [hn] at hcur
    obtain rfl := Option.some.inj hcur
    exact given_first (husable.v6 n hn)

end FakeIpStore

end Reflex.Dns
