import Mathlib.Logic.Function.Basic
import Mathlib.Tactic.Common

namespace PartialInverse

/-!
# A map and its reverse

Two partial maps that are kept as each other's inverse: an allocation table and its reverse
lookup.  `assign` gives a value to a key that has none, taking it away from its previous owner.

* `MutuallyInverse.released`, `MutuallyInverse.assign` — releasing and assigning keep the maps
  inverse;
* `MutuallyInverse.insert` — so does adding a pair whose key and value are not used otherwise;
* `MutuallyInverse.eq_of_eq` — no two keys share a value.
-/

variable {α β : Type*}

/-- The maps are each other's inverse. -/
def MutuallyInverse (f : α → Option β) (g : β → Option α) : Prop :=
  ∀ a b, f a = some b ↔ g b = some a

theorem mutuallyInverse_empty : MutuallyInverse (fun _ : α => (none : Option β)) fun _ => none := by
  intro a b
  simp

/-- Two keys with the same value are one. -/
theorem MutuallyInverse.eq_of_eq {f : α → Option β} {g : β → Option α} (h : MutuallyInverse f g)
    {a a' : α} {b : β} (ha : f a = some b) (ha' : f a' = some b) : a = a' :=
  Option.some.inj (((h a b).mp ha).symm.trans ((h a' b).mp ha'))

variable [DecidableEq α]

/-- Take the value `b` away from its owner. -/
def release (f : α → Option β) (g : β → Option α) (b : β) : α → Option β :=
  match g b with
  | some owner => Function.update f owner none
  | none => f

theorem release_eq_some {f : α → Option β} {g : β → Option α} (h : MutuallyInverse f g) (b : β)
    (a : α) (b' : β) : release f g b a = some b' ↔ f a = some b' ∧ b' ≠ b := by
  rcases howner : g b with _ | owner
  · have hfree : release f g b = f := by rw [release, howner]
    rw [hfree]
    refine ⟨fun hab => ⟨hab, ?_⟩, fun hab => hab.1⟩
    rintro rfl
    rw [(h a b').mp hab] at howner
    cases howner
  · have htaken : release f g b = Function.update f owner none := by rw [release, howner]
    rw [htaken]
    by_cases ha : a = owner
    · subst ha
      -- the owner loses its value, which was `b`
      rw [Function.update_self, (h a b).mpr howner]
      simp [eq_comm]
    · rw [Function.update_of_ne ha]
      refine ⟨fun hab => ⟨hab, ?_⟩, fun hab => hab.1⟩
      rintro rfl
      exact ha (h.eq_of_eq hab ((h owner b').mpr howner))

/-- **Releasing** a value keeps the maps inverse. -/
theorem MutuallyInverse.released [DecidableEq β] {f : α → Option β} {g : β → Option α}
    (h : MutuallyInverse f g) (b : β) :
    MutuallyInverse (release f g b) (Function.update g b none) := by
  intro a b'
  rw [release_eq_some h]
  by_cases hbb : b' = b
  · simp [hbb]
  · rw [Function.update_of_ne hbb, ← h a b']
    simp [hbb]

/-- **Adding a pair** of which neither side is used otherwise keeps the maps inverse. -/
theorem MutuallyInverse.insert [DecidableEq β] {f : α → Option β} {g : β → Option α}
    (h : MutuallyInverse f g) {a : α} {b : β} (hf : ∀ b', f a = some b' → b' = b)
    (hg : ∀ a', g b = some a' → a' = a) :
    MutuallyInverse (Function.update f a (some b)) (Function.update g b (some a)) := by
  intro a' b'
  by_cases haa : a' = a
  · subst haa
    rw [Function.update_self]
    by_cases hbb : b' = b
    · subst hbb
      rw [Function.update_self]
      simp
    · -- the value is another one, which the key did not have
      rw [Function.update_of_ne hbb, ← h a' b', Option.some.injEq]
      exact ⟨fun heq => absurd heq.symm hbb, fun hab => absurd (hf b' hab) hbb⟩
  · rw [Function.update_of_ne haa, h a' b']
    by_cases hbb : b' = b
    · subst hbb
      rw [Function.update_self, Option.some.injEq]
      exact ⟨fun hab => absurd (hg a' hab) haa, fun heq => absurd heq.symm haa⟩
    · rw [Function.update_of_ne hbb]

/-- **Assigning** a value to a key without one keeps the maps inverse. -/
theorem MutuallyInverse.assign [DecidableEq β] {f : α → Option β} {g : β → Option α}
    (h : MutuallyInverse f g) {a : α} (ha : f a = none) (b : β) :
    MutuallyInverse (Function.update (release f g b) a (some b)) (Function.update g b (some a)) := by
  intro a' b'
  -- `a` gets `b` and nothing else; another key keeps its value unless that was `b`
  by_cases haa : a' = a
  · subst haa
    by_cases hbb : b' = b
    · subst hbb
      simp
    · rw [Function.update_self, Function.update_of_ne hbb, ← h a' b', ha]
      simp [Ne.symm hbb]
  · rw [Function.update_of_ne haa, release_eq_some h]
    by_cases hbb : b' = b
    · subst hbb
      simp [Ne.symm haa]
    · rw [Function.update_of_ne hbb, ← h a' b']
      simp [hbb]

end PartialInverse
