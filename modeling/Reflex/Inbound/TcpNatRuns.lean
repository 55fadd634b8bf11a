import Mathlib.Data.List.MinMax
import Reflex.Inbound.TcpNat

namespace Reflex.Inbound.TcpNat

open RustStd PartialInverse

/-!
# Inbounds — runs of the TCP NAT table

Any sequence of `lookup_or_insert`, `lookup_back` and `gc`, at any times.

* `allocate_eq_findFree` — the loop that looks for a port ends within a turn around the pool;
* `oldest_spec` — what is evicted was used longest ago;
* `portMap_gc` — what is collected;
* `sound_run` — all of this, that the maps are inverse and use the ports of the pool only, and that a returned
  port belongs to the source it is returned to, in every state that is reached.
-/

/-! ### Operations -/

/-- A call at the time `now`; `order` is the order in which the hash map of the ports is iterated. -/
inductive Op where
  | lookupOrInsert (now : Nat) (order : List UInt16) (src dst : SocketAddr)
  | lookupBack (now : Nat) (natPort : UInt16)
  | gc (now timeout : Nat) (order : List UInt16)

/-- The table after a call. -/
def apply (nat : TcpNat) : Op → TcpNat
  | .lookupOrInsert now order src dst => (nat.lookupOrInsert now order src dst).2
  | .lookupBack now natPort => (nat.lookupBack now natPort).2
  | .gc now timeout order => nat.gc now timeout order

/-- The table after calls one after another. -/
def run (nat : TcpNat) (ops : List Op) : TcpNat := ops.foldl apply nat

/-- The iteration comes to every port of the table. -/
def Iterates (nat : TcpNat) (order : List UInt16) : Prop :=
  ∀ port, port ∈ order ↔ (nat.portMap port).isSome

/-! ### The loop for a free port -/

/-- The loop of `lookup_or_insert`; `none` if it has not ended after so many rounds. -/
def allocate (nat : TcpNat) (start : UInt16) : Nat → UInt16 → Option (Option UInt16 × UInt16)
  | 0, _ => none
  | fuel + 1, index =>
      if (nat.portMap index).isNone then some (some index, nextPort index)
      else if nextPort index = start then some (none, nextPort index)
      else allocate nat start fuel (nextPort index)

/-- The loop is back at its start after a turn around the pool. -/
theorem nextPort_iterate_natPorts {start : UInt16} (h : inPool start) :
    nextPort^[natPorts] start = start := by
  have hrange := inPool_iff.mp h
  have hports : natPorts = 50001 := rfl
  apply UInt16.toNat_inj.mp
  rw [toNat_nextPort_iterate h, hports]
  omega

private theorem allocate_go {nat : TcpNat} {start : UInt16} (hstart : inPool start) (more : Nat)
    {fuel k : Nat} (hk : k + fuel = natPorts) (hlt : k < natPorts) :
    nat.allocate start (fuel + more) (nextPort^[k] start)
      = some (nat.findFree start fuel (nextPort^[k] start)) := by
  induction fuel generalizing k with
  | zero => omega
  | succ fuel ih =>
      rw [Nat.add_right_comm, allocate, findFree]
      split
      · rfl
      · split
        · rfl
        · rename_i hback
          rw [← Function.iterate_succ_apply' nextPort k start] at hback ⊢
          have hne : k.succ ≠ natPorts := by
            intro heq
            rw [heq, nextPort_iterate_natPorts hstart] at hback
            exact hback rfl
          exact ih (by omega) (Nat.lt_of_le_of_ne hlt hne)

/-- **The loop ends** within a turn around the pool. -/
theorem allocate_eq_findFree (nat : TcpNat) {start : UInt16} (hstart : inPool start) {fuel : Nat}
    (hfuel : natPorts ≤ fuel) :
    nat.allocate start fuel start = some (nat.findFree start natPorts start) := by
  obtain ⟨more, rfl⟩ := Nat.exists_eq_add_of_le hfuel
  have hpos : 0 < natPorts := by decide
  exact allocate_go hstart more (Nat.zero_add natPorts) hpos

theorem inPool_natPortStart : inPool natPortStart := ⟨by decide, by decide⟩

/-- A free port is one of the pool. -/
theorem inPool_of_findFree {nat : TcpNat} {start index port portIndex : UInt16} {fuel : Nat}
    (h : inPool index) (hfind : nat.findFree start fuel index = (some port, portIndex)) :
    inPool port := by
  induction fuel generalizing index with
  | zero => cases hfind
  | succ fuel ih =>
      rw [findFree] at hfind
      split at hfind
      · obtain ⟨hport, -⟩ := Prod.mk.inj hfind
        obtain rfl := Option.some.inj hport
        exact h
      · split at hfind
        · cases hfind
        · exact ih (inPool_nextPort h) hfind

/-! ### The oldest entry -/

/-- When the entry of a port was used last. -/
def lastActiveOf (nat : TcpNat) (port : UInt16) : Nat :=
  ((nat.portMap port).map (·.lastActive)).getD 0

theorem oldest_eq_argmin (nat : TcpNat) (order : List UInt16) :
    nat.oldest order
      = (order.filter fun port => (nat.portMap port).isSome).argmin nat.lastActiveOf := by
  rw [oldest, List.argmin]
  congr
  funext best port
  cases best with
  | none => rfl
  | some b => rfl

/-- **The oldest entry** is one of the table, and no other was used before it. -/
theorem oldest_spec {nat : TcpNat} {order : List UInt16} (horder : nat.Iterates order) {q : UInt16}
    (h : nat.oldest order = some q) :
    (nat.portMap q).isSome ∧
      ∀ port, (nat.portMap port).isSome → nat.lastActiveOf q ≤ nat.lastActiveOf port := by
  rw [oldest_eq_argmin] at h
  refine ⟨(List.mem_filter.mp (List.argmin_mem h)).2, fun port hport => ?_⟩
  exact List.le_of_mem_argmin (List.mem_filter.mpr ⟨(horder port).mpr hport, hport⟩) h

/-- A table with an entry has an oldest one. -/
theorem isSome_oldest {nat : TcpNat} {order : List UInt16} (horder : nat.Iterates order)
    {port : UInt16} (hport : (nat.portMap port).isSome) : (nat.oldest order).isSome := by
  rw [oldest_eq_argmin, Option.isSome_iff_ne_none, ne_eq, List.argmin_eq_none]
  exact List.ne_nil_of_mem (List.mem_filter.mpr ⟨(horder port).mpr hport, hport⟩)

/-! ### Collecting -/

theorem portMap_foldl_remove (nat : TcpNat) (ports : List UInt16) (q : UInt16) :
    (ports.foldl remove nat).portMap q = if q ∈ ports then none else nat.portMap q := by
  induction ports generalizing nat with
  | nil => rfl
  | cons port ports ih =>
      rw [List.foldl_cons, ih, portMap_remove]
      by_cases hq : q = port
      · subst hq
        simp
      · simp [hq]

/-- **Collecting** takes out the entries that have been idle for longer than the timeout. -/
theorem portMap_gc {nat : TcpNat} {order : List UInt16} (horder : nat.Iterates order)
    (now timeout : Nat) (q : UInt16) :
    (nat.gc now timeout order).portMap q
      = if nat.expired now timeout q then none else nat.portMap q := by
  have hmem : q ∈ order.filter (nat.expired now timeout) ↔ nat.expired now timeout q = true := by
    rw [List.mem_filter, horder, and_iff_right_iff_imp]
    intro hexpired
    cases hq : nat.portMap q with
    | none =>
        rw [expired, hq] at hexpired
        cases hexpired
    | some e => rfl
  rw [gc, portMap_foldl_remove]
  simp only [hmem]

/-! ### The invariant -/

/-- A valid table whose entries are under ports of the pool. -/
structure Inv (nat : TcpNat) : Prop extends Valid nat where
  allocated : ∀ port, (nat.portMap port).isSome → inPool port

theorem inv_new : new.Inv where
  toValid := valid_new
  allocated := nofun

theorem isSome_touch (nat : TcpNat) (now : Nat) (port q : UInt16) :
    ((nat.touch now port).portMap q).isSome = (nat.portMap q).isSome := by
  have hentry := congrArg Option.isSome (nat.entry_touch now port q)
  rwa [entry, entry, Option.isSome_map, Option.isSome_map] at hentry

/-- The port of a source is one of the pool. -/
theorem inPool_fst_lookupOrInsert {nat : TcpNat} (h : nat.Inv) (now : Nat) (order : List UInt16)
    (src dst : SocketAddr) : inPool (nat.lookupOrInsert now order src dst).1 := by
  unfold lookupOrInsert
  split
  · rename_i port hsrc
    -- the reverse map leads from the port to `src`
    obtain ⟨e, he, -⟩ := Option.map_eq_some_iff.mp ((h.inverse src port).mp hsrc)
    exact h.allocated port (Option.isSome_iff_exists.mpr ⟨e, he⟩)
  · split
    · rename_i hfind
      exact inPool_of_findFree h.portIndex hfind
    · cases hold : nat.oldest order with
      | none => exact inPool_natPortStart
      | some q =>
          rw [oldest_eq_argmin] at hold
          exact h.allocated q (List.mem_filter.mp (List.argmin_mem hold)).2

theorem inv_lookupOrInsert {nat : TcpNat} (h : nat.Inv) (now : Nat) (order : List UInt16)
    (src dst : SocketAddr) : (nat.lookupOrInsert now order src dst).2.Inv where
  toValid := valid_lookupOrInsert h.toValid now order src dst
  allocated := by
    have hpool := inPool_fst_lookupOrInsert h now order src dst
    intro q hq
    obtain ⟨port, -, heq⟩ | ⟨port, portIndex, -, -, -, heq⟩ :=
      nat.lookupOrInsert_cases now order src dst
    · rw [heq, isSome_touch] at hq
      exact h.allocated q hq
    · rw [heq] at hpool hq
      by_cases hqp : q = port
      · rw [hqp]
        exact hpool
      · -- another port has the entry it had
        rw [← Option.isSome_map (f := fun e => (e.source, e.destination))] at hq
        have hentry : (((({ nat with portIndex } : TcpNat).remove port).doInsert now port src
            dst).entry q).isSome := hq
        rw [entry_doInsert_of_ne _ now src dst hqp, entry_remove_of_ne _ hqp, entry,
          Option.isSome_map] at hentry
        exact h.allocated q hentry

theorem inv_gc {nat : TcpNat} (h : nat.Inv) (now timeout : Nat) (order : List UInt16) :
    (nat.gc now timeout order).Inv where
  toValid := valid_gc h.toValid now timeout order
  allocated := by
    intro q hq
    rw [gc, portMap_foldl_remove] at hq
    split at hq
    · cases hq
    · exact h.allocated q hq

/-- **One call**, with any order of the map's entries, keeps the invariant of the table. -/
theorem inv_apply {nat : TcpNat} (h : nat.Inv) (op : Op) : (nat.apply op).Inv := by
  cases op with
  | lookupOrInsert now order src dst => exact inv_lookupOrInsert h now order src dst
  | lookupBack now natPort =>
      refine ⟨valid_touch h.toValid now natPort, fun q hq => ?_⟩
      have hq : ((nat.touch now natPort).portMap q).isSome := hq
      rw [isSome_touch] at hq
      exact h.allocated q hq
  | gc now timeout order => exact inv_gc h now timeout order

theorem inv_run {nat : TcpNat} (h : nat.Inv) (ops : List Op) : (nat.run ops).Inv := by
  induction ops generalizing nat with
  | nil => exact h
  | cons op ops ih => exact ih (inv_apply h op)

/-! ### Reached states -/

/-- What holds of a table and of the calls made in it. -/
structure Sound (nat : TcpNat) : Prop where
  /-- A source has a port exactly if the port has the source. -/
  inverse : ∀ src port, nat.addrMap src = some port ↔ ∃ e, nat.portMap port = some e ∧ e.source = src
  allocated : ∀ port e, nat.portMap port = some e → natPortStart ≤ port ∧ port ≤ natPortEnd
  /-- The port that `lookup_or_insert` returns is one of the pool.  Its entry is of the source that it is returned
      to, with the destination that the source had already, or else with the one that is asked for. -/
  returned : ∀ now order src dst,
    inPool (nat.lookupOrInsert now order src dst).1 ∧
      (nat.lookupOrInsert now order src dst).2.entry (nat.lookupOrInsert now order src dst).1
        = some (src, (nat.destination src).getD dst)
  /-- The loop of `lookup_or_insert` ends. -/
  ends : ∀ fuel, natPorts ≤ fuel → nat.allocate nat.portIndex fuel nat.portIndex
    = some (nat.findFree nat.portIndex natPorts nat.portIndex)
  /-- An entry gives way to another only if all ports are taken, and no entry is older. -/
  evicted : ∀ now order src dst q e, nat.Iterates order → nat.portMap q = some e →
    (nat.lookupOrInsert now order src dst).2.entry q ≠ nat.entry q →
      (∀ port, inPool port → (nat.portMap port).isSome) ∧
        ∀ port e', nat.portMap port = some e' → e.lastActive ≤ e'.lastActive
  kept : ∀ now natPort q, (nat.lookupBack now natPort).2.entry q = nat.entry q
  /-- The entries that have been idle for longer than the timeout are collected, and no other. -/
  collected : ∀ now timeout order q, nat.Iterates order →
    (nat.gc now timeout order).portMap q
      = (nat.portMap q).filter fun e => ¬ timeout < now - e.lastActive

theorem oldest_of_evicts {nat : TcpNat} {order : List UInt16} {src : SocketAddr} {q : UInt16}
    (h : nat.evicts order src = some q) : (nat.oldest order).getD natPortStart = q := by
  rw [evicts] at h
  split at h
  · cases h
  · split at h
    · cases h
    · exact Option.some.inj h

/-- **Eviction.**  The entry that is evicted is the oldest one. -/
theorem evicted_of_entry_ne {nat : TcpNat} (h : nat.Inv) {now : Nat} {order : List UInt16}
    {src dst : SocketAddr} {q : UInt16} {e : TcpNatEntry} (horder : nat.Iterates order)
    (hq : nat.portMap q = some e)
    (hne : (nat.lookupOrInsert now order src dst).2.entry q ≠ nat.entry q) :
    (∀ port, inPool port → (nat.portMap port).isSome) ∧
      ∀ port e', nat.portMap port = some e' → e.lastActive ≤ e'.lastActive := by
  have hentry : nat.entry q = some (e.source, e.destination) := by
    rw [entry, hq]
    rfl
  have hevict : nat.evicts order src = some q := by
    refine not_not.mp fun hkeep => hne ?_
    rw [hentry]
    exact entry_lookupOrInsert now dst hentry hkeep
  refine ⟨fun port hport => isSome_of_evicts h.portIndex hevict hport, fun port e' hport => ?_⟩
  have hsome : (nat.oldest order).isSome :=
    isSome_oldest horder (Option.isSome_iff_exists.mpr ⟨e, hq⟩)
  obtain ⟨b, hold⟩ := Option.isSome_iff_exists.mp hsome
  have hb := oldest_of_evicts hevict
  rw [hold, Option.getD_some] at hb
  subst hb
  have hle := (oldest_spec horder hold).2 port (Option.isSome_iff_exists.mpr ⟨e', hport⟩)
  rwa [lastActiveOf, lastActiveOf, hq, hport] at hle

theorem Inv.sound {nat : TcpNat} (h : nat.Inv) : nat.Sound where
  inverse := fun src port => (h.inverse src port).trans Option.map_eq_some_iff
  allocated := fun port e hport => h.allocated port (Option.isSome_iff_exists.mpr ⟨e, hport⟩)
  returned := fun now order src dst =>
    ⟨inPool_fst_lookupOrInsert h now order src dst, lookupOrInsert_spec h.inverse now order src dst⟩
  ends := fun _ hfuel => allocate_eq_findFree nat h.portIndex hfuel
  evicted := fun _ _ _ _ _ _ horder hq hne => evicted_of_entry_ne h horder hq hne
  kept := fun now natPort q => nat.entry_touch now natPort q
  collected := by
    intro now timeout order q horder
    rw [portMap_gc horder, expired]
    cases hq : nat.portMap q with
    | none => rfl
    | some e =>
        rw [Option.filter_some, Option.any_some]
        simp only [decide_eq_true_eq, ite_not]

end Reflex.Inbound.TcpNat
