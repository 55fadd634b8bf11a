import Mathlib.Data.Multiset.AddSub
import Mathlib.Data.Multiset.MapFold

namespace Datagrams

/-!
# A network that loses and reorders

A multiset of datagrams in flight: what is sent is in it until it is delivered or lost, in any order.  Nothing is
invented and nothing is delivered twice.

* `Network.send`, `Network.deliver`, `Network.lose` — the steps;
* `Carried` — what was sent is what was delivered, what was lost and what is in flight, as an equation between
  multisets;
* `Carried.send`, `Carried.deliver`, `Carried.lose` — every step keeps it.

A system in which datagrams travel keeps one network for each direction, and proves of its own steps only which of
the three they are.
-/

variable {α β : Type*}

/-- The datagrams under way and the lost ones. -/
@[ext] structure Network (α : Type*) where
  inFlight : Multiset α := 0
  lost : Multiset α := 0

/-- A datagram is sent, and is in flight. -/
def Network.send (net : Network α) (a : α) : Network α := { net with inFlight := a ::ₘ net.inFlight }

variable [DecidableEq α]

/-- A datagram that is in flight is delivered, and is no longer there. -/
def Network.deliver (net : Network α) (a : α) : Option (Network α) :=
  if a ∈ net.inFlight then some { net with inFlight := net.inFlight.erase a } else none

/-- A datagram that is in flight gets lost, which is recorded. -/
def Network.lose (net : Network α) (a : α) : Option (Network α) :=
  if a ∈ net.inFlight then some { inFlight := net.inFlight.erase a, lost := a ::ₘ net.lost } else none

/-- Every datagram that was sent has arrived, is lost or is under way; `f` is what it carries. -/
def Carried (f : α → β) (sent : Multiset β) (net : Network α) (arrived : Multiset β) : Prop :=
  sent = (net.inFlight + net.lost).map f + arrived

variable {f : α → β} {sent arrived : Multiset β} {net net' : Network α} {a : α}

omit [DecidableEq α] in
theorem carried_empty (f : α → β) : Carried f 0 ({} : Network α) 0 := by
  rw [Carried, Multiset.add_zero, Multiset.map_add, Multiset.map_zero, Multiset.add_zero]

/-- What arrives is put at the end of a list. -/
theorem coe_append_singleton (as : List β) (b : β) :
    ((as ++ [b] : List β) : Multiset β) = b ::ₘ (as : Multiset β) :=
  Multiset.coe_eq_coe.mpr (List.perm_append_singleton b as)

omit [DecidableEq α] in
theorem Carried.send (h : Carried f sent net arrived) (a : α) :
    Carried f (f a ::ₘ sent) (net.send a) arrived := by
  rw [Carried, Network.send, Multiset.cons_add, Multiset.map_cons, Multiset.cons_add, ← h]

theorem Network.mem_of_deliver (hdeliver : net.deliver a = some net') : a ∈ net.inFlight :=
  (Option.ite_none_right_eq_some.mp hdeliver).1

theorem Carried.deliver (h : Carried f sent net arrived) (hdeliver : net.deliver a = some net') :
    Carried f sent net' (f a ::ₘ arrived) := by
  obtain ⟨hmem, hnet⟩ := Option.ite_none_right_eq_some.mp hdeliver
  obtain rfl := Option.some.inj hnet
  obtain ⟨rest, hrest⟩ := Multiset.exists_cons_of_mem hmem
  rw [Carried] at h ⊢
  rw [h, hrest, Multiset.erase_cons_head, Multiset.cons_add, Multiset.map_cons, Multiset.cons_add,
    Multiset.add_cons]

theorem Carried.lose (h : Carried f sent net arrived) (hlose : net.lose a = some net') :
    Carried f sent net' arrived := by
  obtain ⟨hmem, hnet⟩ := Option.ite_none_right_eq_some.mp hlose
  obtain rfl := Option.some.inj hnet
  obtain ⟨rest, hrest⟩ := Multiset.exists_cons_of_mem hmem
  rw [Carried] at h ⊢
  rw [h, hrest, Multiset.erase_cons_head, Multiset.cons_add, Multiset.add_cons]

/-- What is in flight or lost after a step was in flight or lost before. -/
theorem Network.mem_of_deliver_of_mem (hdeliver : net.deliver a = some net') {b : α}
    (hb : b ∈ net'.inFlight + net'.lost) : b ∈ net.inFlight + net.lost := by
  obtain ⟨-, hnet⟩ := Option.ite_none_right_eq_some.mp hdeliver
  obtain rfl := Option.some.inj hnet
  rcases Multiset.mem_add.mp hb with h | h
  · exact Multiset.mem_add.mpr (.inl (Multiset.mem_of_mem_erase h))
  · exact Multiset.mem_add.mpr (.inr h)

theorem Network.mem_of_lose_of_mem (hlose : net.lose a = some net') {b : α}
    (hb : b ∈ net'.inFlight + net'.lost) : b ∈ net.inFlight + net.lost := by
  obtain ⟨hmem, hnet⟩ := Option.ite_none_right_eq_some.mp hlose
  obtain rfl := Option.some.inj hnet
  rcases Multiset.mem_add.mp hb with h | h
  · exact Multiset.mem_add.mpr (.inl (Multiset.mem_of_mem_erase h))
  · rcases Multiset.mem_cons.mp h with rfl | h
    · exact Multiset.mem_add.mpr (.inl hmem)
    · exact Multiset.mem_add.mpr (.inr h)

end Datagrams
