import Reflex.Lib.PartialInverse
import Reflex.RustStd.Net

namespace Reflex.Inbound

open RustStd PartialInverse

/-!
# Inbounds — the TCP NAT table of the TUN device

`TcpNat` of `inbound/tun.rs`: a source address is given a NAT port, and the port leads back to the
source and to the destination its first packet was for.

* `TcpNat.Valid` — the map from sources to ports and the one from ports to sources are inverse;
* `isSome_of_evicts` — an entry is evicted only when no port is free;
* `lookupOrInsert_spec` — which entry a packet uses: the one its source has, or a new one;
* `entry_lookupOrInsert`, `entry_gc` — an entry stays as it is until it is evicted or collected.
-/

/-- `NAT_PORT_START`. -/
def natPortStart : UInt16 := 10000

/-- `NAT_PORT_END`. -/
def natPortEnd : UInt16 := 60000

/-- `TcpNatEntry`. -/
structure TcpNatEntry where
  source : SocketAddr
  destination : SocketAddr
  lastActive : Nat

/-- `TcpNat`. -/
structure TcpNat where
  portIndex : UInt16
  addrMap : SocketAddr → Option UInt16
  portMap : UInt16 → Option TcpNatEntry

namespace TcpNat

/-- `TcpNat::new`. -/
def new : TcpNat where
  portIndex := natPortStart
  addrMap := fun _ => none
  portMap := fun _ => none

/-- The source and the destination behind a port. -/
def entry (nat : TcpNat) (port : UInt16) : Option (SocketAddr × SocketAddr) :=
  (nat.portMap port).map fun e => (e.source, e.destination)

/-- `do_insert`. -/
def doInsert (nat : TcpNat) (now : Nat) (port : UInt16) (src dst : SocketAddr) : TcpNat :=
  { nat with
    addrMap := Function.update nat.addrMap src (some port)
    portMap := Function.update nat.portMap port (some ⟨src, dst, now⟩) }

/-- The entry of a port is used now. -/
def touch (nat : TcpNat) (now : Nat) (port : UInt16) : TcpNat :=
  { nat with
    portMap := Function.update nat.portMap port
      ((nat.portMap port).map fun e => { e with lastActive := now }) }

/-- An entry is taken out of both maps. -/
def remove (nat : TcpNat) (port : UInt16) : TcpNat :=
  match nat.portMap port with
  | some old =>
      { nat with
        addrMap := Function.update nat.addrMap old.source none
        portMap := Function.update nat.portMap port none }
  | none => nat

/-- The port behind `port`, around the end of the range. -/
def nextPort (port : UInt16) : UInt16 := if natPortEnd ≤ port then natPortStart else port + 1

/-- The loop for a free port from `index` on, back to `start`: the port, if there is one, and the
    new index.  `fuel` bounds the number of rounds. -/
def findFree (nat : TcpNat) (start : UInt16) : Nat → UInt16 → Option UInt16 × UInt16
  | 0, index => (none, index)
  | fuel + 1, index =>
      if (nat.portMap index).isNone then (some index, nextPort index)
      else if nextPort index = start then (none, nextPort index)
      else findFree nat start fuel (nextPort index)

/-- The number of ports in the range. -/
def natPorts : Nat := natPortEnd.toNat - natPortStart.toNat + 1

/-- The first of the entries used longest ago, in the order `order` of the iteration. -/
def oldest (nat : TcpNat) (order : List UInt16) : Option UInt16 :=
  (order.filter fun port => (nat.portMap port).isSome).foldl (fun best port =>
    match best with
    | none => some port
    | some b =>
        if ((nat.portMap port).map (·.lastActive)).getD 0
            < ((nat.portMap b).map (·.lastActive)).getD 0 then some port else some b) none

/-- The port whose entry is evicted for a packet from `src`, if no port is free. -/
def evicts (nat : TcpNat) (order : List UInt16) (src : SocketAddr) : Option UInt16 :=
  match nat.addrMap src with
  | some _ => none
  | none =>
      match (nat.findFree nat.portIndex natPorts nat.portIndex).1 with
      | some _ => none
      | none => some ((nat.oldest order).getD natPortStart)

/-- `lookup_or_insert` at the time `now`; `order` is the order in which the hash map is iterated. -/
def lookupOrInsert (nat : TcpNat) (now : Nat) (order : List UInt16) (src dst : SocketAddr) :
    UInt16 × TcpNat :=
  match nat.addrMap src with
  | some port => (port, nat.touch now port)
  | none =>
      match nat.findFree nat.portIndex natPorts nat.portIndex with
      | (some port, portIndex) => (port, { nat with portIndex }.doInsert now port src dst)
      | (none, portIndex) =>
          let evictPort := (nat.oldest order).getD natPortStart
          (evictPort, ({ nat with portIndex }.remove evictPort).doInsert now evictPort src dst)

/-- `lookup_back`. -/
def lookupBack (nat : TcpNat) (now : Nat) (natPort : UInt16) :
    Option (SocketAddr × SocketAddr) × TcpNat :=
  (nat.entry natPort, nat.touch now natPort)

/-- Has the entry of a port been idle for longer than `timeout`? -/
def expired (nat : TcpNat) (now timeout : Nat) (port : UInt16) : Bool :=
  (nat.portMap port).any fun e => decide (timeout < now - e.lastActive)

/-- `gc`; the ports are visited in the order of the iteration. -/
def gc (nat : TcpNat) (now timeout : Nat) (order : List UInt16) : TcpNat :=
  (order.filter (nat.expired now timeout)).foldl remove nat

/-! ### The maps are inverse -/

/-- The source that a port stands for, if it is in the table. -/
def source (nat : TcpNat) (port : UInt16) : Option SocketAddr := (nat.portMap port).map (·.source)

/-- The map from sources to ports and the map from ports to sources. -/
def Inverse (nat : TcpNat) : Prop := MutuallyInverse nat.addrMap nat.source

theorem inverse_new : new.Inverse := mutuallyInverse_empty

theorem source_eq_of_entry {nat nat' : TcpNat} {port : UInt16}
    (h : nat'.entry port = nat.entry port) : nat'.source port = nat.source port := by
  have hfst := congrArg (Option.map Prod.fst) h
  rw [entry, entry, Option.map_map, Option.map_map] at hfst
  exact hfst

theorem entry_touch (nat : TcpNat) (now : Nat) (port q : UInt16) :
    (nat.touch now port).entry q = nat.entry q := by
  by_cases hq : q = port
  · subst hq
    simp only [entry, touch, Function.update_self, Option.map_map]
    rfl
  · simp only [entry, touch, Function.update_of_ne hq]

theorem inverse_touch {nat : TcpNat} (h : nat.Inverse) (now : Nat) (port : UInt16) :
    (nat.touch now port).Inverse := by
  have hsource : (nat.touch now port).source = nat.source :=
    funext fun q => source_eq_of_entry (nat.entry_touch now port q)
  rw [Inverse, hsource]
  exact h

theorem addrMap_remove (nat : TcpNat) (port : UInt16) :
    (nat.remove port).addrMap = release nat.addrMap nat.source port := by
  rcases hport : nat.portMap port with _ | old
  · rw [remove, release, source, hport]
    rfl
  · rw [remove, release, source, hport]
    rfl

theorem portMap_remove (nat : TcpNat) (port : UInt16) :
    (nat.remove port).portMap = Function.update nat.portMap port none := by
  rcases hport : nat.portMap port with _ | old
  · have hself : Function.update nat.portMap port none = nat.portMap := by
      rw [← hport, Function.update_eq_self]
    rw [remove, hport, hself]
  · rw [remove, hport]

theorem entry_remove_of_ne (nat : TcpNat) {port q : UInt16} (h : q ≠ port) :
    (nat.remove port).entry q = nat.entry q := by
  rw [entry, portMap_remove, Function.update_of_ne h, entry]

theorem source_remove (nat : TcpNat) (port : UInt16) :
    (nat.remove port).source = Function.update nat.source port none := by
  funext q
  by_cases hq : q = port
  · subst hq
    rw [source, portMap_remove, Function.update_self, Function.update_self, Option.map_none]
  · rw [source_eq_of_entry (nat.entry_remove_of_ne hq), Function.update_of_ne hq]

theorem inverse_remove {nat : TcpNat} (h : nat.Inverse) (port : UInt16) :
    (nat.remove port).Inverse := by
  rw [Inverse, addrMap_remove, source_remove]
  exact h.released port

theorem entry_doInsert_self (nat : TcpNat) (now : Nat) (port : UInt16) (src dst : SocketAddr) :
    (nat.doInsert now port src dst).entry port = some (src, dst) := by
  simp only [entry, doInsert, Function.update_self, Option.map_some]

theorem entry_doInsert_of_ne (nat : TcpNat) (now : Nat) {port q : UInt16} (src dst : SocketAddr)
    (h : q ≠ port) : (nat.doInsert now port src dst).entry q = nat.entry q := by
  simp only [entry, doInsert, Function.update_of_ne h]

/-- A port whose old entry is taken out is given to a source without a port. -/
theorem inverse_doInsert_remove {nat : TcpNat} (h : nat.Inverse) (now : Nat) (port : UInt16)
    {src : SocketAddr} (hsrc : nat.addrMap src = none) (dst : SocketAddr) :
    ((nat.remove port).doInsert now port src dst).Inverse := by
  have hsource : ((nat.remove port).doInsert now port src dst).source
      = Function.update nat.source port (some src) := by
    funext q
    by_cases hq : q = port
    · subst hq
      simp only [source, doInsert, Function.update_self, Option.map_some]
    · rw [source_eq_of_entry (entry_doInsert_of_ne _ now src dst hq),
        source_eq_of_entry (nat.entry_remove_of_ne hq), Function.update_of_ne hq]
  rw [Inverse, hsource]
  show MutuallyInverse (Function.update (nat.remove port).addrMap src (some port)) _
  rw [addrMap_remove]
  exact h.assign hsrc port

theorem remove_of_none {nat : TcpNat} {port : UInt16} (h : nat.portMap port = none) :
    nat.remove port = nat := by
  rw [remove, h]

/-! ### The free port -/

theorem portMap_of_findFree {nat : TcpNat} {start index port portIndex : UInt16} {fuel : Nat}
    (h : nat.findFree start fuel index = (some port, portIndex)) : nat.portMap port = none := by
  induction fuel generalizing index with
  | zero => cases h
  | succ fuel ih =>
      rw [findFree] at h
      split at h
      · rename_i hfree
        obtain ⟨rfl, -⟩ := Prod.mk.inj h |>.imp_left Option.some.inj
        exact Option.isNone_iff_eq_none.mp hfree
      · split at h
        · cases h
        · exact ih h

/-- The ports of the pool. -/
def inPool (port : UInt16) : Prop := natPortStart ≤ port ∧ port ≤ natPortEnd

theorem inPool_iff {port : UInt16} : inPool port ↔ 10000 ≤ port.toNat ∧ port.toNat ≤ 60000 := Iff.rfl

theorem toNat_nextPort {port : UInt16} (h : inPool port) :
    (nextPort port).toNat = 10000 + (port.toNat - 10000 + 1) % natPorts := by
  rw [inPool_iff] at h
  have hports : natPorts = 50001 := rfl
  rw [hports]
  unfold nextPort
  by_cases hend : natPortEnd ≤ port
  · have hge : 60000 ≤ port.toNat := hend
    have hstart : natPortStart.toNat = 10000 := rfl
    rw [if_pos hend, hstart]
    omega
  · have hlt : ¬ 60000 ≤ port.toNat := hend
    have hone : (1 : UInt16).toNat = 1 := rfl
    rw [if_neg hend, UInt16.toNat_add, hone]
    omega

theorem toNat_nextPort_iterate {start : UInt16} (h : inPool start) (k : Nat) :
    (nextPort^[k] start).toNat = 10000 + (start.toNat - 10000 + k) % natPorts := by
  have hports : natPorts = 50001 := rfl
  have hrange := inPool_iff.mp h
  induction k with
  | zero =>
      rw [Function.iterate_zero, id_eq, hports]
      omega
  | succ k ih =>
      have hk : inPool (nextPort^[k] start) := by
        rw [inPool_iff, ih, hports]
        omega
      rw [Function.iterate_succ_apply', toNat_nextPort hk, ih, hports]
      omega

theorem inPool_nextPort {port : UInt16} (h : inPool port) : inPool (nextPort port) := by
  have hports : natPorts = 50001 := rfl
  rw [inPool_iff, toNat_nextPort h, hports]
  omega

theorem inPool_findFree (nat : TcpNat) (start : UInt16) (fuel : Nat) {index : UInt16} (h : inPool index) :
    inPool (nat.findFree start fuel index).2 := by
  induction fuel generalizing index with
  | zero => exact h
  | succ fuel ih =>
      rw [findFree]
      split
      · exact inPool_nextPort h
      · split
        · exact inPool_nextPort h
        · exact ih (inPool_nextPort h)

private theorem isSome_of_findFree_go {nat : TcpNat} {start i : UInt16} (hstart : inPool start)
    {fuel k : Nat} (hk : k + fuel = natPorts)
    (h : nat.findFree start fuel (nextPort^[k] start) = (none, i)) {j : Nat} (hkj : k ≤ j)
    (hj : j < natPorts) : (nat.portMap (nextPort^[j] start)).isSome := by
  induction fuel generalizing k with
  | zero => omega
  | succ fuel ih =>
      rw [findFree] at h
      split at h
      · cases h
      · rename_i htaken
        by_cases hjk : j = k
        · subst hjk
          exact Option.isSome_iff_ne_none.mpr (by simpa using htaken)
        · split at h
          · -- back at the start: the whole pool has been visited
            rename_i hback
            rw [← Function.iterate_succ_apply' nextPort k start] at hback
            have hnat := congrArg UInt16.toNat hback
            rw [toNat_nextPort_iterate hstart] at hnat
            have hrange := inPool_iff.mp hstart
            have hports : natPorts = 50001 := rfl
            rw [hports] at hnat hj hk
            omega
          · rw [← Function.iterate_succ_apply' nextPort k start] at h
            exact ih (by omega) h (by omega)

/-- **The search** gives up only when every port of the pool is taken. -/
theorem isSome_of_findFree {nat : TcpNat} {start i : UInt16} (hstart : inPool start)
    (h : nat.findFree start natPorts start = (none, i)) {port : UInt16} (hport : inPool port) :
    (nat.portMap port).isSome := by
  have hrange := inPool_iff.mp hstart
  have hrange' := inPool_iff.mp hport
  have hports : natPorts = 50001 := rfl
  -- the port is visited after so many rounds
  have hround : nextPort^[(port.toNat + natPorts - start.toNat) % natPorts] start = port := by
    apply UInt16.toNat_inj.mp
    rw [toNat_nextPort_iterate hstart, hports]
    omega
  rw [← hround]
  exact isSome_of_findFree_go hstart (Nat.zero_add _) h (Nat.zero_le _)
    (Nat.mod_lt _ (by rw [hports]; decide))

/-! ### The entries -/

/-- The destination of the entry a source has. -/
def destination (nat : TcpNat) (src : SocketAddr) : Option SocketAddr :=
  (nat.addrMap src).bind fun port => (nat.entry port).map Prod.snd

/-- A source with a port keeps it; a new one is given a port that is free or whose entry is evicted
    for it. -/
theorem lookupOrInsert_cases (nat : TcpNat) (now : Nat) (order : List UInt16)
    (src dst : SocketAddr) :
    (∃ port, nat.addrMap src = some port ∧
        nat.lookupOrInsert now order src dst = (port, nat.touch now port)) ∨
      ∃ port portIndex, nat.addrMap src = none ∧
        portIndex = (nat.findFree nat.portIndex natPorts nat.portIndex).2 ∧
        (nat.portMap port = none ∨ nat.evicts order src = some port) ∧
        nat.lookupOrInsert now order src dst
          = (port, ({ nat with portIndex }.remove port).doInsert now port src dst) := by
  unfold lookupOrInsert evicts
  rcases hsrc : nat.addrMap src with _ | port
  · refine .inr ?_
    rcases hfind : nat.findFree nat.portIndex natPorts nat.portIndex with ⟨_ | port, portIndex⟩
    · exact ⟨_, portIndex, rfl, rfl, .inr rfl, rfl⟩
    · have hfree := portMap_of_findFree hfind
      refine ⟨port, portIndex, rfl, rfl, .inl hfree, ?_⟩
      -- a free port has no entry to take out
      have hself : ({ nat with portIndex } : TcpNat).remove port = { nat with portIndex } :=
        remove_of_none hfree
      rw [hself]
  · exact .inl ⟨port, rfl, rfl⟩

/-- **A packet's entry** is the one its source has, with the destination it has, or a new one. -/
theorem lookupOrInsert_spec {nat : TcpNat} (h : nat.Inverse) (now : Nat) (order : List UInt16)
    (src dst : SocketAddr) :
    (nat.lookupOrInsert now order src dst).2.entry (nat.lookupOrInsert now order src dst).1
      = some (src, (nat.destination src).getD dst) := by
  obtain ⟨port, hsrc, heq⟩ | ⟨port, portIndex, hsrc, -, -, heq⟩ :=
    nat.lookupOrInsert_cases now order src dst
  · -- the reverse map leads from the port to `src`
    have hport := (h src port).mp hsrc
    obtain ⟨e, he, hsource⟩ := Option.map_eq_some_iff.mp hport
    have hentry : nat.entry port = some (src, e.destination) := by
      rw [entry, he, Option.map_some, hsource]
    have hdst : nat.destination src = some e.destination := by
      rw [destination, hsrc, Option.bind_some, hentry, Option.map_some]
    rw [heq, hdst, Option.getD_some, ← hentry]
    exact nat.entry_touch now port port
  · have hdst : nat.destination src = none := by rw [destination, hsrc, Option.bind_none]
    rw [heq, hdst, Option.getD_none]
    exact entry_doInsert_self ..

theorem inverse_lookupOrInsert {nat : TcpNat} (h : nat.Inverse) (now : Nat) (order : List UInt16)
    (src dst : SocketAddr) : (nat.lookupOrInsert now order src dst).2.Inverse := by
  obtain ⟨port, -, heq⟩ | ⟨port, portIndex, hsrc, -, -, heq⟩ :=
    nat.lookupOrInsert_cases now order src dst
  · rw [heq]
    exact inverse_touch h now port
  · have hnat : ({ nat with portIndex } : TcpNat).Inverse := h
    rw [heq]
    exact inverse_doInsert_remove hnat now port hsrc dst

/-- The entries that are not evicted stay as they are. -/
theorem entry_lookupOrInsert {nat : TcpNat} (now : Nat) {order : List UInt16} {src : SocketAddr}
    (dst : SocketAddr) {q : UInt16} {e : SocketAddr × SocketAddr} (hq : nat.entry q = some e)
    (hkeep : nat.evicts order src ≠ some q) :
    (nat.lookupOrInsert now order src dst).2.entry q = some e := by
  obtain ⟨port, -, heq⟩ | ⟨port, portIndex, -, -, hport, heq⟩ :=
    nat.lookupOrInsert_cases now order src dst
  · rw [heq]
    exact (nat.entry_touch now port q).trans hq
  · have hne : q ≠ port := by
      rintro rfl
      rcases hport with hfree | hevict
      · rw [entry, hfree] at hq
        cases hq
      · exact hkeep hevict
    rw [heq, entry_doInsert_of_ne _ now src dst hne, entry_remove_of_ne _ hne]
    exact hq

theorem portIndex_remove (nat : TcpNat) (port : UInt16) :
    (nat.remove port).portIndex = nat.portIndex := by
  unfold remove
  split
  · rfl
  · rfl

theorem inPool_lookupOrInsert {nat : TcpNat} (h : inPool nat.portIndex) (now : Nat)
    (order : List UInt16) (src dst : SocketAddr) :
    inPool (nat.lookupOrInsert now order src dst).2.portIndex := by
  obtain ⟨port, -, heq⟩ | ⟨port, portIndex, -, rfl, -, heq⟩ :=
    nat.lookupOrInsert_cases now order src dst
  · rw [heq]
    exact h
  · rw [heq]
    show inPool (remove _ _).portIndex
    rw [portIndex_remove]
    exact inPool_findFree nat nat.portIndex natPorts h

/-- An entry is evicted only when every port of the pool is taken. -/
theorem isSome_of_evicts {nat : TcpNat} (h : inPool nat.portIndex) {order : List UInt16}
    {src : SocketAddr} {q : UInt16} (hevict : nat.evicts order src = some q) {port : UInt16}
    (hport : inPool port) : (nat.portMap port).isSome := by
  unfold evicts at hevict
  split at hevict
  · cases hevict
  · split at hevict
    · cases hevict
    · rename_i hnone
      exact isSome_of_findFree h (Prod.ext hnone rfl) hport

theorem inverse_gc {nat : TcpNat} (h : nat.Inverse) (now timeout : Nat) (order : List UInt16) :
    (nat.gc now timeout order).Inverse := by
  unfold gc
  generalize order.filter (nat.expired now timeout) = ports
  induction ports generalizing nat with
  | nil => exact h
  | cons port ports ih => exact ih (inverse_remove h port)

theorem portIndex_gc (nat : TcpNat) (now timeout : Nat) (order : List UInt16) :
    (nat.gc now timeout order).portIndex = nat.portIndex := by
  unfold gc
  generalize order.filter (nat.expired now timeout) = ports
  induction ports generalizing nat with
  | nil => rfl
  | cons port ports ih => exact (ih (nat.remove port)).trans (nat.portIndex_remove port)

theorem entry_foldl_remove {nat : TcpNat} {ports : List UInt16} {q : UInt16} (h : q ∉ ports) :
    (ports.foldl remove nat).entry q = nat.entry q := by
  induction ports generalizing nat with
  | nil => rfl
  | cons port ports ih =>
      obtain ⟨hne, hrest⟩ := List.ne_and_not_mem_of_not_mem_cons h
      rw [List.foldl_cons, ih hrest, entry_remove_of_ne nat hne]

/-- The entries that are not collected stay as they are. -/
theorem entry_gc {nat : TcpNat} {now timeout : Nat} {order : List UInt16} {q : UInt16}
    (h : q ∉ order.filter (nat.expired now timeout)) :
    (nat.gc now timeout order).entry q = nat.entry q :=
  entry_foldl_remove h

/-! ### Valid tables -/

/-- The maps are inverse, and the search for a free port starts in the pool. -/
structure Valid (nat : TcpNat) : Prop where
  inverse : nat.Inverse
  portIndex : inPool nat.portIndex

theorem valid_new : new.Valid where
  inverse := inverse_new
  portIndex := ⟨by decide, by decide⟩

theorem valid_touch {nat : TcpNat} (h : nat.Valid) (now : Nat) (port : UInt16) :
    (nat.touch now port).Valid where
  inverse := inverse_touch h.inverse now port
  portIndex := h.portIndex

theorem valid_lookupOrInsert {nat : TcpNat} (h : nat.Valid) (now : Nat) (order : List UInt16)
    (src dst : SocketAddr) : (nat.lookupOrInsert now order src dst).2.Valid where
  inverse := inverse_lookupOrInsert h.inverse now order src dst
  portIndex := inPool_lookupOrInsert h.portIndex now order src dst

theorem valid_gc {nat : TcpNat} (h : nat.Valid) (now timeout : Nat) (order : List UInt16) :
    (nat.gc now timeout order).Valid where
  inverse := inverse_gc h.inverse now timeout order
  portIndex := by
    rw [portIndex_gc]
    exact h.portIndex

end TcpNat

end Reflex.Inbound
