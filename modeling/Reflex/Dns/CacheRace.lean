import Reflex.Dns.Handle
import Reflex.Lib.Lru
import Reflex.Lib.Transition

namespace Reflex.Dns

open RustStd

/-!
# DNS — concurrent calls of the cache

`DnsCache::get` and `DnsCache::set` by their critical sections.  `get` decides under the lock that an
entry has expired, releases the lock, and takes it again to remove the entry: what it removes is what
is under the key by then.

* `LockedCache` — the memory behind its lock, and the calls between their critical sections;
* `LockedCache.Retrievable` — what was written is found until it expires, is overwritten or evicted;
* `LockedCache.InTime` — nothing that is still good was written between check and removal;
* `LockedCache.inTime_iff_retrievable` — exactly the runs of such steps keep what was written;
* `LockedCache.removed_unexpired` — a refresh that is removed at once.
-/

/-- What `get` makes of the entry under its key. -/
inductive Found where
  | hit (resp : Bytes)
  | stale (resp : Bytes)
  | expired
  | absent

/-- The decisions of `get` on the memory. -/
def CacheConfig.found (cfg : CacheConfig) (now : Nat) : Option CacheEntry → Found
  | none => .absent
  | some entry =>
      if now < entry.expires then .hit entry.resp
      else if cfg.optimisticTtl.any fun opt => decide (now < entry.expires + opt) then
        .stale entry.resp
      else .expired

namespace LockedCache

/-- Where a call is between two critical sections. -/
inductive Stage where
  /-- `get` has read the clock, and has yet to lock the memory -/
  | start (now : Nat)
  /-- it found the entry expired, and has released the lock to remove it -/
  | remove
  /-- before the cache file -/
  | load
  /-- `insert_memory` with its entry, before the lock; `get` will return `result` -/
  | insert (entry : CacheEntry) (result : Option CacheResult)
  | done (result : Option CacheResult)

/-- A call of `get` or `set`. -/
structure Call where
  key : CacheKey
  stage : Stage

end LockedCache

/-- The memory of a `DnsCache` and the calls on it.  The last three fields only record what happens:
    the entry that was last written to a key and not evicted, the same for each removal since it was
    decided on, and what was removed, with the time. -/
structure LockedCache (T : Type*) where
  now : Nat
  inner : T
  calls : Nat → Option LockedCache.Call
  written : CacheKey → Option CacheEntry
  overtaken : Nat → Option CacheEntry
  removed : List (CacheEntry × Nat)

namespace LockedCache

variable {T : Type*} (lru : Lru.Ops T CacheKey CacheEntry)

/-- A new cache. -/
def init (capacity : Nat) : LockedCache T where
  now := 0
  inner := lru.new (max capacity 1) (Nat.le_max_right capacity 1)
  calls := fun _ => none
  written := fun _ => none
  overtaken := fun _ => none
  removed := []

/-- Call `i` is now at `stage`. -/
def move (s : LockedCache T) (i : Nat) (key : CacheKey) (stage : Stage) : LockedCache T :=
  { s with calls := Function.update s.calls i (some ⟨key, stage⟩) }

/-- A call starts under a number that no other call has. -/
def spawn (s : LockedCache T) (i : Nat) (key : CacheKey) (stage : Stage) :
    Option (LockedCache T) :=
  match s.calls i with
  | some _ => none
  | none => some (s.move i key stage)

/-- `get` is called. -/
def get (s : LockedCache T) (i : Nat) (key : CacheKey) : Option (LockedCache T) :=
  s.spawn i key (.start s.now)

/-- `set` is called. -/
def set (cfg : CacheConfig) (s : LockedCache T) (i : Nat) (key : CacheKey) (resp : Bytes)
    (ttl : Nat) : Option (LockedCache T) :=
  let ttl := max (min ttl cfg.ttlCap) 1
  s.spawn i key (.insert ⟨resp, s.now + ttl * second⟩ none)

/-- The first critical section of `get`. -/
def check (cfg : CacheConfig) (s : LockedCache T) (i : Nat) : Option (LockedCache T) :=
  match s.calls i with
  | some ⟨key, .start now⟩ =>
      let s := { s with inner := lru.touch s.inner key }
      match cfg.found now (lru.lookup s.inner key) with
      | .hit resp => some (s.move i key (.done (some (.hit resp))))
      | .stale resp => some (s.move i key (.done (some (.stale resp))))
      | .expired =>
          some ({ s with overtaken := Function.update s.overtaken i none }.move i key .remove)
      | .absent => some (s.move i key .load)
  | _ => none

/-- The second one: whatever is under the key is removed. -/
def pop (s : LockedCache T) (i : Nat) : Option (LockedCache T) :=
  match s.calls i with
  | some ⟨key, .remove⟩ =>
      some ({ s with
        inner := lru.pop s.inner key
        removed := (lru.lookup s.inner key).toList.map (·, s.now) ++ s.removed }.move i key .load)
  | _ => none

/-- `get` reads the cache file, which holds `stored`, and the clock, which shows `nowSecs`. -/
def load (cfg : CacheConfig) (s : LockedCache T) (i : Nat) (stored : Option (Bytes × Nat))
    (nowSecs : Nat) : Option (LockedCache T) :=
  match s.calls i with
  | some ⟨key, .load⟩ =>
      match (if cfg.persist then stored else none) with
      | none => some (s.move i key (.done (some .miss)))
      | some (raw, expireAt) =>
          if nowSecs < expireAt then
            let ttl := min (expireAt - nowSecs) cfg.ttlCap
            some (s.move i key (.insert ⟨raw, s.now + ttl * second⟩ (some (.hit raw))))
          else if cfg.optimisticTtl.any fun opt => decide ((nowSecs - expireAt) * second < opt) then
            some (s.move i key (.done (some (.stale raw))))
          else some (s.move i key (.done (some .miss)))
  | _ => none

/-- What is recorded of `key'` when `entry` is written to `key`. -/
def recorded (s : LockedCache T) (key : CacheKey) (entry : CacheEntry) (key' : CacheKey)
    (old : Option CacheEntry) : Option CacheEntry :=
  if key' = key then some entry else if lru.evicted s.inner key = some key' then none else old

/-- The critical section of `insert_memory`. -/
def put (s : LockedCache T) (i : Nat) : Option (LockedCache T) :=
  match s.calls i with
  | some ⟨key, .insert entry result⟩ =>
      some ({ s with
        inner := lru.put s.inner key entry
        written := fun key' => s.recorded lru key entry key' (s.written key')
        overtaken := fun j =>
          match s.calls j with
          | some ⟨key', .remove⟩ => s.recorded lru key entry key' (s.overtaken j)
          | _ => s.overtaken j }.move i key (.done result))
  | _ => none

/-- The steps of the calls, and the passing of time. -/
inductive Action where
  | get (i : Nat) (key : CacheKey)
  | set (i : Nat) (key : CacheKey) (resp : Bytes) (ttl : Nat)
  | check (i : Nat)
  | pop (i : Nat)
  | load (i : Nat) (stored : Option (Bytes × Nat)) (nowSecs : Nat)
  | put (i : Nat)
  | tick (nanos : Nat)

/-- One step: a call starts or enters its next critical section, or time passes. -/
def step (cfg : CacheConfig) (s : LockedCache T) : Action → Option (LockedCache T)
  | .get i key => s.get i key
  | .set i key resp ttl => s.set cfg i key resp ttl
  | .check i => s.check lru cfg i
  | .pop i => s.pop lru i
  | .load i stored nowSecs => s.load cfg i stored nowSecs
  | .put i => s.put lru i
  | .tick nanos => some { s with now := s.now + nanos }

/-! ### The property and the condition -/

/-- What was written to a key, has not expired and was neither overwritten nor evicted is what a
    `get` that has read the clock finds. -/
def Retrievable (cfg : CacheConfig) (s : LockedCache T) : Prop :=
  ∀ key entry, s.written key = some entry → s.now < entry.expires →
    ∀ now ≤ s.now, cfg.found now (lru.lookup s.inner key) = .hit entry.resp

/-- What was removed had expired by then. -/
def RemovedExpired (s : LockedCache T) : Prop :=
  ∀ r ∈ s.removed, r.1.expires ≤ r.2

/-- Where an expired entry is about to be removed, no entry that is still good was written to the key
    since that was decided. -/
def InTime (s : LockedCache T) : Action → Prop
  | .pop i => ∀ entry, s.overtaken i = some entry → entry.expires ≤ s.now
  | _ => True

instance (s : LockedCache T) : (a : Action) → Decidable (s.InTime a)
  | .pop i => inferInstanceAs
      (Decidable (∀ entry, s.overtaken i = some entry → entry.expires ≤ s.now))
  | .get .. | .set .. | .check _ | .load .. | .put _ | .tick _ => .isTrue trivial

/-- The records of the calls fit the memory. -/
structure Inv (s : LockedCache T) : Prop where
  written : ∀ key entry, lru.lookup s.inner key = some entry → s.written key = some entry
  overtaken : ∀ i key, s.calls i = some ⟨key, .remove⟩ → s.overtaken i = s.written key ∨
    (s.overtaken i = none ∧ ∀ entry, s.written key = some entry → entry.expires ≤ s.now)
  clock : ∀ i key now, s.calls i = some ⟨key, .start now⟩ → now ≤ s.now

/-! ### What each step does -/

/-- The stages that are neither before the check nor before the removal. -/
def Stage.plain : Stage → Bool
  | .start _ | .remove => false
  | _ => true

variable {lru} {cfg : CacheConfig} {s s' : LockedCache T} {i : Nat}

theorem spawn_cases {key : CacheKey} {stage : Stage} (h : s.spawn i key stage = some s') :
    s' = s.move i key stage := by
  unfold spawn at h
  split at h
  · cases h
  · exact (Option.some.inj h).symm

theorem check_cases (hlru : lru.Lawful) (h : s.check lru cfg i = some s') :
    ∃ key now, s.calls i = some ⟨key, .start now⟩ ∧
      ((∃ stage, stage.plain = true ∧ s' = { s with inner := lru.touch s.inner key }.move i key stage) ∨
        (cfg.found now (lru.lookup s.inner key) = .expired ∧
          s' = { s with
            inner := lru.touch s.inner key
            overtaken := Function.update s.overtaken i none }.move i key .remove)) := by
  unfold check at h
  split at h
  · rename_i key now hcall
    refine ⟨key, now, hcall, ?_⟩
    simp only [hlru.lookup_touch] at h
    rcases hfound : cfg.found now (lru.lookup s.inner key) with resp | resp | _ | _
    · rw [hfound] at h
      exact .inl ⟨_, rfl, (Option.some.inj h).symm⟩
    · rw [hfound] at h
      exact .inl ⟨_, rfl, (Option.some.inj h).symm⟩
    · rw [hfound] at h
      exact .inr ⟨rfl, (Option.some.inj h).symm⟩
    · rw [hfound] at h
      exact .inl ⟨_, rfl, (Option.some.inj h).symm⟩
  · cases h

theorem pop_cases (h : s.pop lru i = some s') :
    ∃ key, s.calls i = some ⟨key, .remove⟩ ∧
      s' = { s with
        inner := lru.pop s.inner key
        removed := (lru.lookup s.inner key).toList.map (·, s.now) ++ s.removed }.move i key .load := by
  unfold pop at h
  split at h
  · rename_i key hcall
    exact ⟨key, hcall, (Option.some.inj h).symm⟩
  · cases h

theorem load_cases {stored : Option (Bytes × Nat)} {nowSecs : Nat}
    (h : s.load cfg i stored nowSecs = some s') :
    ∃ key stage, stage.plain = true ∧ s' = s.move i key stage := by
  unfold load at h
  split at h
  · rename_i key hcall
    split at h
    · exact ⟨key, _, rfl, (Option.some.inj h).symm⟩
    · split at h
      · exact ⟨key, _, rfl, (Option.some.inj h).symm⟩
      · split at h
        · exact ⟨key, _, rfl, (Option.some.inj h).symm⟩
        · exact ⟨key, _, rfl, (Option.some.inj h).symm⟩
  · cases h

variable (lru) in
/-- The records after an entry was written. -/
def write (s : LockedCache T) (key : CacheKey) (entry : CacheEntry) : LockedCache T :=
  { s with
    inner := lru.put s.inner key entry
    written := fun key' => s.recorded lru key entry key' (s.written key')
    overtaken := fun j =>
      match s.calls j with
      | some ⟨key', .remove⟩ => s.recorded lru key entry key' (s.overtaken j)
      | _ => s.overtaken j }

theorem put_cases (h : s.put lru i = some s') :
    ∃ key entry result, s.calls i = some ⟨key, .insert entry result⟩ ∧
      s' = (s.write lru key entry).move i key (.done result) := by
  unfold put at h
  split at h
  · rename_i key entry result hcall
    exact ⟨key, entry, result, hcall, (Option.some.inj h).symm⟩
  · cases h

/-- What `get` has found expired had expired by the time that it read from the clock. -/
theorem expires_le_of_found {now : Nat} {entry : CacheEntry}
    (h : cfg.found now (some entry) = .expired) : entry.expires ≤ now := by
  simp only [CacheConfig.found] at h
  split at h
  · cases h
  · rename_i hexpired
    exact Nat.not_lt.mp hexpired

/-! ### The records fit -/

theorem inv_init (hlru : lru.Lawful) (capacity : Nat) : (init lru capacity).Inv lru where
  written key entry h := by
    have hnew : lru.lookup (lru.new (max capacity 1) _) key = some entry := h
    rw [hlru.lookup_new] at hnew
    cases hnew
  overtaken i key h := by cases h
  clock i key now h := by cases h

/-- A call that is moved to a stage at which nothing is asked of it. -/
theorem Inv.move (h : s.Inv lru) (key : CacheKey) {stage : Stage} (hplain : stage.plain = true) :
    (s.move i key stage).Inv lru where
  written := h.written
  overtaken j key' hcall := by
    rcases Transition.update_eq_some hcall with ⟨-, hnew⟩ | ⟨-, hold⟩
    · cases hnew
      cases hplain
    · exact h.overtaken j key' hold
  clock j key' now hcall := by
    rcases Transition.update_eq_some hcall with ⟨-, hnew⟩ | ⟨-, hold⟩
    · cases hnew
      cases hplain
    · exact h.clock j key' now hold

/-- Using an entry changes nothing that is recorded. -/
theorem Inv.touch (hlru : lru.Lawful) (h : s.Inv lru) (key : CacheKey) :
    ({ s with inner := lru.touch s.inner key } : LockedCache T).Inv lru where
  written key' entry hentry := h.written key' entry ((hlru.lookup_touch ..).symm.trans hentry)
  overtaken := h.overtaken
  clock := h.clock

/-- **Writing** keeps the records of the memory and of the removals alike. -/
theorem Inv.write (hlru : lru.Lawful) (h : s.Inv lru) (key : CacheKey) (entry : CacheEntry) :
    (s.write lru key entry).Inv lru where
  written key' entry' hentry := by
    have hlookup : lru.lookup (lru.put s.inner key entry) key' = some entry' := hentry
    rw [hlru.lookup_put] at hlookup
    show s.recorded lru key entry key' (s.written key') = some entry'
    unfold recorded
    split
    · rwa [if_pos ‹_›] at hlookup
    · rw [if_neg ‹_›] at hlookup
      split
      · rwa [if_pos ‹_›] at hlookup
      · rw [if_neg ‹_›] at hlookup
        exact h.written key' entry' hlookup
  overtaken j key' hcall := by
    have hcall' : s.calls j = some ⟨key', .remove⟩ := hcall
    have hovertaken : (s.write lru key entry).overtaken j
        = s.recorded lru key entry key' (s.overtaken j) := by
      simp only [LockedCache.write, hcall']
    have hwritten : (s.write lru key entry).written key'
        = s.recorded lru key entry key' (s.written key') := rfl
    rw [hovertaken, hwritten]
    unfold recorded
    split
    · exact .inl rfl
    · split
      · exact .inl rfl
      · exact h.overtaken j key' hcall'
  clock := h.clock

/-- A removal is decided on: what is under the key has expired. -/
theorem Inv.expired (h : s.Inv lru) {key : CacheKey} {now : Nat}
    (hcall : s.calls i = some ⟨key, .start now⟩)
    (hfound : cfg.found now (lru.lookup s.inner key) = .expired) :
    ({ s with overtaken := Function.update s.overtaken i none }.move i key .remove :
      LockedCache T).Inv lru where
  written := h.written
  overtaken j key' hcall' := by
    rcases Transition.update_eq_some hcall' with ⟨rfl, hnew⟩ | ⟨hne, hold⟩
    · cases hnew
      refine .inr ⟨Function.update_self .., fun entry hentry => ?_⟩
      rcases hlookup : lru.lookup s.inner key with _ | entry'
      · rw [hlookup] at hfound
        cases hfound
      · -- the memory shows what was last written
        have hwritten := h.written key entry' hlookup
        obtain rfl : entry' = entry := Option.some.inj (hwritten.symm.trans hentry)
        rw [hlookup] at hfound
        exact le_trans (expires_le_of_found hfound) (h.clock j key now hcall)
    · rcases h.overtaken j key' hold with hsame | hexpired
      · exact .inl ((Function.update_of_ne hne ..).trans hsame)
      · exact .inr ⟨(Function.update_of_ne hne ..).trans hexpired.1, hexpired.2⟩
  clock j key' now' hcall' := by
    rcases Transition.update_eq_some hcall' with ⟨-, hnew⟩ | ⟨-, hold⟩
    · cases hnew
    · exact h.clock j key' now' hold

/-- Removing an entry leaves what is recorded about the writes as it is. -/
theorem Inv.pop (hlru : lru.Lawful) (h : s.Inv lru) (key : CacheKey) (removed : List (CacheEntry × Nat)) :
    ({ s with inner := lru.pop s.inner key, removed } : LockedCache T).Inv lru where
  written key' entry hentry := by
    have hlookup : lru.lookup (lru.pop s.inner key) key' = some entry := hentry
    rw [hlru.lookup_pop, Option.ite_none_left_eq_some] at hlookup
    exact h.written key' entry hlookup.2
  overtaken := h.overtaken
  clock := h.clock

theorem inv_step (hlru : lru.Lawful) {a : Action} (hstep : step lru cfg s a = some s') (h : s.Inv lru) :
    s'.Inv lru := by
  cases a with
  | get i key =>
      obtain rfl := spawn_cases hstep
      refine ⟨h.written, fun j key' hcall => ?_, fun j key' now hcall => ?_⟩
      · rcases Transition.update_eq_some hcall with ⟨-, hnew⟩ | ⟨-, hold⟩
        · cases hnew
        · exact h.overtaken j key' hold
      · rcases Transition.update_eq_some hcall with ⟨-, hnew⟩ | ⟨-, hold⟩
        · cases hnew
          exact le_refl _
        · exact h.clock j key' now hold
  | set i key resp ttl =>
      obtain rfl := spawn_cases hstep
      exact h.move key rfl
  | check i =>
      obtain ⟨key, now, hcall, ⟨stage, hplain, rfl⟩ | ⟨hfound, rfl⟩⟩ := check_cases hlru hstep
      · exact (h.touch hlru key).move key hplain
      · exact (h.expired hcall hfound).touch hlru key
  | pop i =>
      obtain ⟨key, hcall, rfl⟩ := pop_cases hstep
      exact (h.pop hlru key _).move key rfl
  | load i stored nowSecs =>
      obtain ⟨key, stage, hplain, rfl⟩ := load_cases hstep
      exact h.move key hplain
  | put i =>
      obtain ⟨key, entry, result, hcall, rfl⟩ := put_cases hstep
      exact (h.write hlru key entry).move key rfl
  | tick nanos =>
      obtain rfl := Option.some.inj hstep
      refine ⟨h.written, fun j key hcall => ?_, fun j key now hcall => ?_⟩
      · rcases h.overtaken j key hcall with hsame | ⟨hnone, hexpired⟩
        · exact .inl hsame
        · exact .inr ⟨hnone, fun entry hentry => le_trans (hexpired entry hentry) (Nat.le_add_right ..)⟩
      · exact le_trans (h.clock j key now hcall) (Nat.le_add_right ..)

/-! ### What is kept -/

variable (lru) in
/-- What was written and has not expired is under its key. -/
def Retained (s : LockedCache T) : Prop :=
  ∀ key entry, s.written key = some entry → s.now < entry.expires →
    lru.lookup s.inner key = some entry

/-- What is under its key is found; and what is found is under its key. -/
theorem Inv.retrievable_iff (h : s.Inv lru) : s.Retrievable lru cfg ↔ s.Retained lru := by
  constructor
  · intro hret key entry hwritten hlive
    have hhit := hret key entry hwritten hlive s.now (le_refl _)
    rcases hlookup : lru.lookup s.inner key with _ | entry'
    · rw [hlookup] at hhit
      cases hhit
    · exact congrArg some (Option.some.inj ((h.written key entry' hlookup).symm.trans hwritten))
  · intro hret key entry hwritten hlive now hnow
    rw [hret key entry hwritten hlive]
    exact if_pos (lt_of_le_of_lt hnow hlive)

/-- A written entry replaces the one of its key, and at most evicts another one. -/
theorem Retained.write (hlru : lru.Lawful) (hretained : s.Retained lru) (key : CacheKey) (entry : CacheEntry) :
    (s.write lru key entry).Retained lru := by
  intro key' entry' hwritten hlive
  have hrecorded : s.recorded lru key entry key' (s.written key') = some entry' := hwritten
  show lru.lookup (lru.put s.inner key entry) key' = some entry'
  rw [hlru.lookup_put]
  unfold recorded at hrecorded
  split
  · rwa [if_pos ‹_›] at hrecorded
  · rw [if_neg ‹_›] at hrecorded
    split
    · rwa [if_pos ‹_›] at hrecorded
    · rw [if_neg ‹_›] at hrecorded
      exact hretained key' entry' hrecorded hlive

/-- **Removals.** What is removed was written since the check, or had expired then. -/
theorem Inv.inTime_iff_pop (hlru : lru.Lawful) (h : s.Inv lru) {key : CacheKey}
    (hcall : s.calls i = some ⟨key, .remove⟩) (hretained : s.Retained lru)
    (hremoved : s.RemovedExpired) :
    s.InTime (.pop i) ↔
      Retained lru ({ s with
        inner := lru.pop s.inner key
        removed := (lru.lookup s.inner key).toList.map (·, s.now) ++ s.removed }.move i key .load) ∧
      RemovedExpired ({ s with
        inner := lru.pop s.inner key
        removed := (lru.lookup s.inner key).toList.map (·, s.now) ++ s.removed }.move i key .load) := by
  have hovertaken := h.overtaken i key hcall
  constructor
  · intro hintime
    -- the last entry that was written is the one that the call has seen, or has expired as well
    have hexpired : ∀ entry, s.written key = some entry → entry.expires ≤ s.now := by
      intro entry hwritten
      rcases hovertaken with hsame | ⟨-, hexpired⟩
      · exact hintime entry (hsame.trans hwritten)
      · exact hexpired entry hwritten
    constructor
    · intro key' entry hwritten hlive
      show lru.lookup (lru.pop s.inner key) key' = some entry
      -- another key is not touched, and under this one nothing lives
      have hne : key' ≠ key := by
        rintro rfl
        exact absurd (hexpired entry hwritten) (Nat.not_le.mpr hlive)
      rw [hlru.lookup_pop, if_neg hne]
      exact hretained key' entry hwritten hlive
    · intro r hr
      rcases List.mem_append.mp hr with hnew | hold
      · obtain ⟨entry, hentry, rfl⟩ := List.mem_map.mp hnew
        exact hexpired entry (h.written key entry (Option.mem_toList.mp hentry))
      · exact hremoved r hold
  · rintro ⟨hretained', -⟩ entry hentry
    rcases hovertaken with hsame | ⟨hnone, -⟩
    · -- an entry that lives and is removed would no longer be found
      by_contra hlive
      have hlookup : lru.lookup (lru.pop s.inner key) key = some entry :=
        hretained' key entry (hsame.symm.trans hentry) (Nat.not_le.mp hlive)
      rw [hlru.lookup_pop, if_pos rfl] at hlookup
      cases hlookup
    · rw [hnone] at hentry
      cases hentry

/-- **One step.** What was written is kept by every step but a removal, and by a removal exactly if it
    is in time. -/
theorem inTime_iff_step (hlru : lru.Lawful) {a : Action} (hstep : step lru cfg s a = some s') (h : s.Inv lru)
    (hgood : s.Retained lru ∧ s.RemovedExpired) :
    s.InTime a ↔ s'.Retained lru ∧ s'.RemovedExpired := by
  obtain ⟨hretained, hremoved⟩ := hgood
  cases a with
  | get i key =>
      obtain rfl := spawn_cases hstep
      exact iff_of_true trivial ⟨hretained, hremoved⟩
  | set i key resp ttl =>
      obtain rfl := spawn_cases hstep
      exact iff_of_true trivial ⟨hretained, hremoved⟩
  | check i =>
      have htouch (key : CacheKey) :
          ({ s with inner := lru.touch s.inner key } : LockedCache T).Retained lru := by
        intro key' entry hwritten hlive
        exact (hlru.lookup_touch ..).trans (hretained key' entry hwritten hlive)
      obtain ⟨key, now, -, ⟨stage, -, rfl⟩ | ⟨-, rfl⟩⟩ := check_cases hlru hstep
      · exact iff_of_true trivial ⟨htouch key, hremoved⟩
      · exact iff_of_true trivial ⟨htouch key, hremoved⟩
  | pop i =>
      obtain ⟨key, hcall, rfl⟩ := pop_cases hstep
      exact h.inTime_iff_pop hlru hcall hretained hremoved
  | load i stored nowSecs =>
      obtain ⟨key, stage, -, rfl⟩ := load_cases hstep
      exact iff_of_true trivial ⟨hretained, hremoved⟩
  | put i =>
      obtain ⟨key, entry, result, -, rfl⟩ := put_cases hstep
      exact iff_of_true trivial ⟨hretained.write hlru key entry, hremoved⟩
  | tick nanos =>
      obtain rfl := Option.some.inj hstep
      refine iff_of_true trivial ⟨fun key entry hwritten hlive => ?_, hremoved⟩
      exact hretained key entry hwritten (lt_of_le_of_lt (Nat.le_add_right s.now nanos) hlive)

/-- **Interleavings.** In a run of calls of `get` and `set` from a new cache, in any order of their
    critical sections, every removal is in time if and only if at every point of the run what was
    written can be retrieved until it expires, is overwritten or is evicted, and everything that was
    removed had expired.  The table of the memory is any that has the laws. -/
theorem inTime_iff_retrievable (hlru : lru.Lawful) (cfg : CacheConfig) (capacity : Nat) (actions : List Action)
    (s : LockedCache T) (hrun : Transition.run (step lru cfg) (init lru capacity) actions = some s) :
    Transition.Guarded (step lru cfg) InTime (init lru capacity) actions ↔
      ∀ done rest t, actions = done ++ rest →
        Transition.run (step lru cfg) (init lru capacity) done = some t →
          t.Retrievable lru cfg ∧ t.RemovedExpired := by
  have hgood : (init lru capacity).Retained lru ∧ (init lru capacity).RemovedExpired :=
    ⟨fun key entry hwritten _ => (nomatch hwritten), fun r hr => (nomatch hr)⟩
  have hiff := Transition.guarded_iff_always (fun _ _ _ hstep hinv => inv_step hlru hstep hinv)
    (fun _ _ _ hstep hinv hgood => inTime_iff_step hlru hstep hinv hgood) hrun (inv_init hlru capacity) hgood
  rw [hiff]
  -- at every point of the run the records fit
  refine forall_congr' fun done => forall_congr' fun rest => forall_congr' fun t =>
    forall_congr' fun _ => forall_congr' fun ht => and_congr_left' ?_
  have hinv : t.Inv lru :=
    Transition.invariant_of_steps (fun _ _ _ hstep h => inv_step hlru hstep h) ht (inv_init hlru capacity)
  exact hinv.retrievable_iff.symm

/-- A cache in memory, without a stale window. -/
def plainCache : CacheConfig := ⟨300, none, false⟩

/-- The key of the calls below. -/
def oneKey : CacheKey := ⟨[], "a".toList, 1⟩

/-- An entry is stored for a second, and expires. -/
def storeAndExpire : List Action := [.set 0 oneKey [1] 1, .put 0, .tick (2 * second)]

/-- A `get` finds it expired; before it has removed it, it is refreshed for a minute. -/
def refreshBeforePop : List Action := [.get 1 oneKey, .check 1, .set 2 oneKey [2] 60, .put 2, .pop 1]

/-- The refreshed entry is removed in the moment it was written. -/
theorem removed_unexpired :
    ∃ s, Transition.run (step Lru.Table.ops plainCache) (init Lru.Table.ops 16)
        (storeAndExpire ++ refreshBeforePop) = some s ∧
      ¬ s.RemovedExpired ∧ ¬ s.Retrievable Lru.Table.ops plainCache := by
  obtain ⟨s, hs, hlost⟩ := (Option.any_eq_true _ _).mp
    (show (Transition.run (step Lru.Table.ops plainCache) (init Lru.Table.ops 16)
        (storeAndExpire ++ refreshBeforePop)).any (fun s => s.removed.any (fun r => decide (r.2 < r.1.expires)) &&
        (s.written oneKey).any (fun entry => decide (s.now < entry.expires)) &&
        (s.inner.lookup oneKey).isNone) = true by decide)
  obtain ⟨⟨hremoved, hwritten⟩, hnone⟩ : (_ ∧ _) ∧ _ := by
    simpa only [Bool.and_eq_true] using hlost
  obtain ⟨r, hr, hlive⟩ := List.any_eq_true.mp hremoved
  obtain ⟨entry, hentry, hunexpired⟩ := (Option.any_eq_true _ _).mp hwritten
  refine ⟨s, hs, fun hexpired => ?_, fun hret => ?_⟩
  · exact absurd (hexpired r hr) (Nat.not_le.mpr (of_decide_eq_true hlive))
  · have hhit := hret oneKey entry hentry (of_decide_eq_true hunexpired) s.now (le_refl _)
    have habsent : Lru.Table.ops.lookup s.inner oneKey = none := Option.isNone_iff_eq_none.mp hnone
    rw [habsent] at hhit
    cases hhit

/-- A cache for two entries that reads a cache file. -/
def fileCache : CacheConfig := ⟨300, none, true⟩

/-- The key of another name. -/
def otherKey (name : Str) : CacheKey := ⟨[], name, 1⟩

/-- A `get` finds an entry expired.  Before it removes it, another one is written to the key, and expires in turn;
    and a `get` of `b` brings back what is in the file.  After the removal the key is written again, and an entry
    for `c` evicts the one for `b`. -/
def refreshAndEvict : List Action :=
  storeAndExpire ++
    [.get 1 oneKey, .check 1, .set 2 oneKey [2] 1, .put 2, .tick (2 * second),
      .get 3 (otherKey "b".toList), .check 3, .load 3 (some ([7], 100)) 40, .put 3, .pop 1, .load 1 none 40,
      .set 4 oneKey [3] 60, .put 4, .set 5 (otherKey "c".toList) [4] 60, .put 5, .get 6 oneKey, .check 6]

theorem inTime_iff_retrievable_refreshed :
    ∃ s, Transition.run (step Lru.Table.ops fileCache) (init Lru.Table.ops 2) refreshAndEvict = some s ∧
      s.removed.map (·.1.resp) = [[2]] ∧ (s.written oneKey).map (·.resp) = some [3] ∧
      s.written (otherKey "b".toList) = none ∧
      s.Retrievable Lru.Table.ops fileCache ∧ s.RemovedExpired := by
  have hguard : Transition.Guarded (step Lru.Table.ops fileCache) InTime (init Lru.Table.ops 2)
      refreshAndEvict := by decide +kernel
  obtain ⟨s, hs, hend⟩ := (Option.any_eq_true _ _).mp
    (show (Transition.run (step Lru.Table.ops fileCache) (init Lru.Table.ops 2) refreshAndEvict).any (fun s =>
      decide (s.removed.map (·.1.resp) = [[2]]) && decide ((s.written oneKey).map (·.resp) = some [3]) &&
        (s.written (otherKey "b".toList)).isNone) = true by decide +kernel)
  simp only [Bool.and_eq_true, decide_eq_true_eq, Option.isNone_iff_eq_none] at hend
  obtain ⟨⟨hremoved, hwritten⟩, hevicted⟩ := hend
  have hgood := (inTime_iff_retrievable Lru.Table.lawful fileCache 2 _ s hs).mp hguard _ [] s
    (List.append_nil _).symm hs
  exact ⟨s, hs, hremoved, hwritten, hevicted, hgood⟩

end LockedCache

end Reflex.Dns
