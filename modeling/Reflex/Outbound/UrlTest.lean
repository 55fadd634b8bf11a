import Mathlib.Data.List.Dedup
import Mathlib.Data.List.MinMax
import Mathlib.Order.Nat
import Reflex.Outbound.Basic
import Reflex.Provider.Groups

namespace Reflex.Outbound

open RustStd Transition

/-!
# Outbounds — the probes of a url-test group

`UrlTestOutbound` of `outbound/group.rs`.  A connection that finds the last check too long ago wins the
flag `is_checking` and starts a probe in the background; the probe ends by clearing `is_checking_arc`,
which is another flag.

* `step_cases` — what a step does to the flag and the probes;
* `startsNext_iff` — the next connection that should starts a probe exactly if the flag says whether
  one runs;
* `no_more_probes` — behind the first probe there is no other;
* `sound_iff` — all is well in every state of a run, exactly if no probe ends in it.

The wait for the nodes is one step, as the provider refresh is; the probe URL has been parsed by `new`.
-/

/-! ### The group -/

/-- How far a probe task is: it was spawned, it waits for the nodes, and it has published what it
    measured. -/
inductive ProbeStage where
  | spawned
  | probing
  | published
  deriving DecidableEq, Repr

/-- A probe task, with the `all_tags` it was spawned with. -/
structure ProbeTask where
  allTags : List Str
  stage : ProbeStage
  deriving DecidableEq, Repr

/-- `UrlTestOutbound`, with the clock, the threads that have found `should_check` to hold in
    `current_tag`, and the probe tasks. -/
structure UrlTestGroup where
  group : UrlTestOutbound
  interval : Nat
  tolerance : UInt64
  latencies : List (Str × Option UInt64) := []
  lastCheck : Option Nat := none
  isChecking : Bool := false
  isCheckingArc : Bool := false
  now : Nat := 0
  callers : Nat → Bool := fun _ => false
  tasks : List ProbeTask := []

/-- What a thread, a task, a provider or the clock does.  `check` and `exchange` are the two halves of
    `current_tag`; `measured` is in the order of the map. -/
inductive UrlTestAction where
  | check (c : Nat)
  | exchange (c : Nat)
  | start (i : Nat)
  | publish (i : Nat) (measured : List (Str × Option UInt64))
  | store (i : Nat)
  | refresh (nodes : List Str)
  | tick (d : Nat)
  deriving DecidableEq, Repr

namespace UrlTestGroup

/-- `UrlTestOutbound::new`, with the interval and the tolerance of the configuration. -/
def new (tag : Str) (outbounds : List Str) (interval : Nat) (tolerance : UInt64) : UrlTestGroup :=
  { group := { tag, outbounds, allTags := outbounds, selected := none }, interval, tolerance }

/-- `should_check`. -/
def shouldCheck (s : UrlTestGroup) : Bool :=
  match s.lastCheck with
  | none => true
  | some last => decide (s.interval ≤ s.now - last)

/-- `compare_exchange(false, true)` on `is_checking`, and the task that is spawned if it succeeds. -/
def exchange (s : UrlTestGroup) : UrlTestGroup :=
  if s.isChecking then s
  else { s with
    isChecking := true
    tasks := s.tasks ++ [{ allTags := s.group.allTags, stage := .spawned }] }

/-- `current_tag`, without anything in between. -/
def currentTag (s : UrlTestGroup) : Str × UrlTestGroup :=
  let s := if s.shouldCheck then s.exchange else s
  (s.group.currentTag, s)

/-- The selection at the end of `refresh_background`. -/
def select (tolerance : UInt64) (measured : List (Str × Option UInt64)) (selected : Option Str) :
    Option Str :=
  let reached := measured.filterMap fun (tag, latency) => latency.map fun l => (tag, l)
  match reached.argmin fun p => p.2.toNat with
  | none => selected
  | some (bestTag, bestLatency) =>
      match selected with
      | none => some bestTag
      | some cur =>
          match (measured.lookup cur).join with
          | some l => if l ≤ bestLatency + tolerance then some cur else some bestTag
          | none => some bestTag

/-- `refresh_provider_nodes`. -/
def refreshProviderNodes (s : UrlTestGroup) (nodes : List Str) : UrlTestGroup :=
  let newAll := Provider.refreshTags s.group.outbounds s.group.allTags nodes
  { s with
    group := { s.group with
      allTags := newAll, selected := s.group.selected.filter fun tag => tag ∈ newAll }
    lastCheck := none }

/-- One step: a caller looks whether a probe is due, wins or loses the flag, or a task ends. -/
def step (s : UrlTestGroup) : UrlTestAction → Option UrlTestGroup
  | .check c =>
      if s.callers c = false then
        some (if s.shouldCheck then { s with callers := Function.update s.callers c true } else s)
      else none
  | .exchange c =>
      if s.callers c = true then
        some { s.exchange with callers := Function.update s.callers c false }
      else none
  | .start i =>
      match s.tasks[i]? with
      | some ⟨allTags, .spawned⟩ =>
          some { s with lastCheck := some s.now, tasks := s.tasks.set i ⟨allTags, .probing⟩ }
      | _ => none
  | .publish i measured =>
      match s.tasks[i]? with
      | some ⟨allTags, .probing⟩ =>
          -- the map has one entry for each tag
          if (measured.map Prod.fst).Perm allTags.dedup then
            some { s with
              group := { s.group with selected := select s.tolerance measured s.group.selected }
              latencies := measured
              tasks := s.tasks.set i ⟨allTags, .published⟩ }
          else none
      | _ => none
  | .store i =>
      match s.tasks[i]? with
      | some ⟨_, .published⟩ =>
          some { s with isCheckingArc := false, tasks := s.tasks.eraseIdx i }
      | _ => none
  | .refresh nodes => some (s.refreshProviderNodes nodes)
  | .tick d => some { s with now := s.now + d }

/-! ### What it is for -/

/-- Where no probe runs, the next call of `current_tag` that finds `should_check` to hold starts one,
    whatever happens until then. -/
def StartsNext (s : UrlTestGroup) : Prop :=
  s.tasks = [] → ∀ actions t c u, (∀ d, .exchange d ∉ actions) → run step s actions = some t →
    t.step (.exchange c) = some u → u.tasks ≠ []

/-- At most one probe runs, the flag says whether one does, and the next one is started when it is
    time. -/
structure Sound (s : UrlTestGroup) : Prop where
  one : s.tasks.length ≤ 1
  flag : s.isChecking = true ↔ s.tasks ≠ []
  starts : s.StartsNext

/-- No probe task gets to the end, where it gives the flag back. -/
def NoneEnds (_ : UrlTestGroup) : UrlTestAction → Prop
  | .store _ => False
  | _ => True

instance (s : UrlTestGroup) (a : UrlTestAction) : Decidable (s.NoneEnds a) :=
  match a with
  | .store _ => .isFalse id
  | .check _ | .exchange _ | .start _ | .publish .. | .refresh _ | .tick _ => .isTrue trivial

/-! ### One step -/

variable {s s' : UrlTestGroup} {a : UrlTestAction}

/-- A call of `current_tag` that nothing comes between. -/
theorem run_currentTag (c : Nat) (hc : s.callers c = false) :
    run step s (if s.shouldCheck then [.check c, .exchange c] else [.check c])
      = some s.currentTag.2 := by
  by_cases hcheck : s.shouldCheck
  · have hback : Function.update (Function.update s.callers c true) c false = s.callers := by
      rw [Function.update_idem, ← hc, Function.update_eq_self]
    rw [if_pos hcheck]
    refine run_cons (t := { s with callers := Function.update s.callers c true }) ?_
      (run_singleton ?_)
    · rw [step, if_pos hc, if_pos hcheck]
    · rw [step, if_pos (Function.update_self ..), hback, currentTag, if_pos hcheck]
      unfold exchange
      split <;> rfl
  · rw [if_neg hcheck, currentTag, if_neg hcheck]
    refine run_singleton ?_
    rw [step, if_pos hc, if_neg hcheck]

/-- **One step** leaves the flag and the number of probes as they are; or it wins the flag and starts a
    probe; or it ends one. -/
theorem step_cases (h : s.step a = some s') :
    (s'.isChecking = s.isChecking ∧ s'.tasks.length = s.tasks.length ∧ s.NoneEnds a) ∨
      (∃ c, a = .exchange c ∧ s.isChecking = false ∧ s'.isChecking = true ∧
        s'.tasks = s.tasks ++ [{ allTags := s.group.allTags, stage := .spawned }]) ∨
      (∃ i, a = .store i ∧ s'.isChecking = s.isChecking ∧ i < s.tasks.length ∧
        s'.tasks = s.tasks.eraseIdx i) := by
  cases a with
  | check c =>
    obtain ⟨-, hs'⟩ := Option.ite_none_right_eq_some.mp h
    obtain rfl := Option.some.inj hs'
    left
    split <;> exact ⟨rfl, rfl, trivial⟩
  | exchange c =>
    obtain ⟨-, hs'⟩ := Option.ite_none_right_eq_some.mp h
    obtain rfl := Option.some.inj hs'
    unfold exchange
    -- the exchange returns the old flag, and only the caller that finds it down starts a task
    by_cases hflag : s.isChecking = true
    · rw [if_pos hflag]
      exact .inl ⟨rfl, rfl, trivial⟩
    · rw [if_neg hflag]
      exact .inr (.inl ⟨c, rfl, by simpa using hflag, rfl, rfl⟩)
  | start i =>
    simp only [step] at h
    split at h
    · obtain rfl := Option.some.inj h
      exact .inl ⟨rfl, List.length_set, trivial⟩
    · cases h
  | publish i measured =>
    simp only [step] at h
    split at h
    · obtain ⟨-, hs'⟩ := Option.ite_none_right_eq_some.mp h
      obtain rfl := Option.some.inj hs'
      exact .inl ⟨rfl, List.length_set, trivial⟩
    · cases h
  | store i =>
    simp only [step] at h
    split at h
    · -- only a task that has published is at the store that ends it
      rename_i htask
      obtain rfl := Option.some.inj h
      exact .inr (.inr ⟨i, rfl, rfl, (List.getElem?_eq_some_iff.mp htask).1, rfl⟩)
    · cases h
  | refresh nodes =>
    obtain rfl := Option.some.inj h
    exact .inl ⟨rfl, rfl, trivial⟩
  | tick d =>
    obtain rfl := Option.some.inj h
    exact .inl ⟨rfl, rfl, trivial⟩

theorem tasks_eq_nil (hlen : s'.tasks.length = s.tasks.length) (htasks : s.tasks = []) :
    s'.tasks = [] := by
  rw [← List.length_eq_zero_iff, hlen, htasks]
  rfl

/-- At most one probe runs, and none without the flag. -/
structure Inv (s : UrlTestGroup) : Prop where
  one : s.tasks.length ≤ 1
  idle : s.isChecking = false → s.tasks = []

theorem inv_new (tag : Str) (outbounds : List Str) (interval : Nat) (tolerance : UInt64) :
    (new tag outbounds interval tolerance).Inv := ⟨Nat.zero_le 1, fun _ => rfl⟩

theorem Inv.step (hs : s.Inv) (h : s.step a = some s') : s'.Inv := by
  rcases step_cases h with ⟨hflag, hlen, -⟩ | ⟨c, -, hflag, hflag', htasks⟩ |
    ⟨i, -, hflag, hi, htasks⟩
  · refine ⟨hlen ▸ hs.one, fun hclear => ?_⟩
    rw [hflag] at hclear
    exact tasks_eq_nil hlen (hs.idle hclear)
  · refine ⟨?_, fun hclear => ?_⟩
    · rw [htasks, hs.idle hflag]
      exact le_rfl
    · rw [hflag'] at hclear
      cases hclear
  · have hlen := List.length_eraseIdx_of_lt hi
    have hone := hs.one
    refine ⟨?_, fun hclear => ?_⟩
    · rw [htasks, hlen]
      omega
    · rw [hflag] at hclear
      rw [hs.idle hclear] at hi
      cases hi

/-! ### The next probe -/

/-- With the flag set no probe is ever started, and it stays set. -/
theorem no_more_probes {actions : List UrlTestAction} (hrun : run step s actions = some s')
    (hflag : s.isChecking = true) (htasks : s.tasks = []) :
    s'.isChecking = true ∧ s'.tasks = [] := by
  have hstep : ∀ s a s', step s a = some s' → s.isChecking = true ∧ s.tasks = [] →
      s'.isChecking = true ∧ s'.tasks = [] := by
    rintro s a s' h ⟨hflag, htasks⟩
    rcases step_cases h with ⟨hflag', hlen, -⟩ | ⟨c, -, hclear, -⟩ | ⟨i, -, -, hi, -⟩
    · exact ⟨hflag'.trans hflag, tasks_eq_nil hlen htasks⟩
    · rw [hflag] at hclear
      cases hclear
    · rw [htasks] at hi
      cases hi
  exact invariant_of_steps hstep hrun ⟨hflag, htasks⟩

/-- Without a call that exchanges the flag, a clear one stays clear. -/
theorem clear_of_run {actions : List UrlTestAction} (hrun : run step s actions = some s')
    (hquiet : ∀ d, .exchange d ∉ actions) (hflag : s.isChecking = false) (htasks : s.tasks = []) :
    s'.isChecking = false ∧ s'.tasks = [] := by
  have hguard : Guarded step (fun _ a => ∀ d, a ≠ .exchange d) s actions := by
    refine guarded_of_forall ?_ s
    rintro a ha - d rfl
    exact hquiet d ha
  have hstep : ∀ s a s', step s a = some s' → (∀ d, a ≠ .exchange d) →
      s.isChecking = false ∧ s.tasks = [] → s'.isChecking = false ∧ s'.tasks = [] := by
    rintro s a s' h hno ⟨hflag, htasks⟩
    rcases step_cases h with ⟨hflag', hlen, -⟩ | ⟨c, rfl, -⟩ | ⟨i, -, -, hi, -⟩
    · exact ⟨hflag'.trans hflag, tasks_eq_nil hlen htasks⟩
    · exact absurd rfl (hno c)
    · rw [htasks] at hi
      cases hi
  exact invariant_of_run hstep hrun hguard ⟨hflag, htasks⟩

/-- After a refresh of the nodes of a provider a probe is due, whatever the time of the last one. -/
theorem shouldCheck_refresh (s : UrlTestGroup) (nodes : List Str) :
    (s.refreshProviderNodes nodes).shouldCheck = true := rfl

/-- Some call can find that it is time. -/
theorem exists_caller (s : UrlTestGroup) : ∃ actions t, (∀ d, .exchange d ∉ actions) ∧
    run step s actions = some t ∧ t.callers 0 = true := by
  by_cases hc : s.callers 0 = true
  · exact ⟨[], s, by simp, rfl, hc⟩
  · refine ⟨[.refresh [], .check 0],
      { s.refreshProviderNodes [] with callers := Function.update s.callers 0 true }, by simp,
      run_cons rfl (run_singleton ?_), ?_⟩
    · rw [step, if_pos (by simpa [refreshProviderNodes] using hc),
        if_pos (shouldCheck_refresh s [])]
      rfl
    · show Function.update s.callers 0 true 0 = true
      rw [Function.update_self]

/-- **The next probe** is started when it is time, exactly if the flag says whether one runs. -/
theorem startsNext_iff (hs : s.Inv) :
    s.StartsNext ↔ (s.isChecking = true ↔ s.tasks ≠ []) := by
  constructor
  · intro hstarts
    refine ⟨fun hflag htasks => ?_, fun htasks => ?_⟩
    · -- a call that finds that it is time does not win the flag
      obtain ⟨actions, t, hquiet, hrun, hc⟩ := exists_caller s
      have hstep : t.step (.exchange 0)
          = some { t.exchange with callers := Function.update t.callers 0 false } := if_pos hc
      have hall := run_append_eq_some.mpr ⟨t, hrun, run_singleton hstep⟩
      exact hstarts htasks actions t 0 _ hquiet hrun hstep (no_more_probes hall hflag htasks).2
    · by_contra hclear
      exact htasks (hs.idle (by simpa using hclear))
  · intro hflag htasks actions t c u hquiet hrun hstep
    have hclear : s.isChecking = false := by
      by_contra hset
      exact hflag.mp (by simpa using hset) htasks
    obtain ⟨hclear', htasks'⟩ := clear_of_run hrun hquiet hclear htasks
    obtain ⟨-, hu⟩ := Option.ite_none_right_eq_some.mp hstep
    obtain rfl := Option.some.inj hu
    simp [exchange, hclear', htasks']

theorem sound_iff_flag (hs : s.Inv) : s.Sound ↔ (s.isChecking = true ↔ s.tasks ≠ []) :=
  ⟨Sound.flag, fun hflag => ⟨hs.one, hflag, (startsNext_iff hs).mpr hflag⟩⟩

theorem sound_new (tag : Str) (outbounds : List Str) (interval : Nat) (tolerance : UInt64) :
    (new tag outbounds interval tolerance).Sound :=
  (sound_iff_flag (inv_new tag outbounds interval tolerance)).mpr (by simp [new])

/-- **Probing.** In every run of the connections, the provider refreshes and the probe tasks of a
    group: at most one probe runs, the flag says whether one does, and the next one is started when it
    is time, in every state, exactly if no probe task ends in the run. -/
theorem sound_iff {tag : Str} {outbounds : List Str} {interval : Nat} {tolerance : UInt64}
    {actions : List UrlTestAction}
    (hrun : run step (new tag outbounds interval tolerance) actions = some s) :
    Guarded step NoneEnds (new tag outbounds interval tolerance) actions ↔
      ∀ before after t, actions = before ++ after →
        run step (new tag outbounds interval tolerance) before = some t → t.Sound := by
  refine guarded_iff_always (fun _ _ _ h hs => Inv.step hs h) ?_ hrun (inv_new ..) (sound_new ..)
  intro s a s' h hs hgood
  rw [sound_iff_flag (hs.step h)]
  rcases step_cases h with ⟨hflag, hlen, hnone⟩ | ⟨c, rfl, -, hflag, htasks⟩ |
    ⟨i, rfl, hflag, hi, htasks⟩
  · refine iff_of_true hnone ?_
    rw [hflag, hgood.flag, ← List.length_pos_iff, ← List.length_pos_iff, hlen]
  · refine iff_of_true trivial (iff_of_true hflag ?_)
    rw [htasks]
    simp
  · -- the only probe is gone, and the flag is still set
    have hone := hgood.one
    have hlen := List.length_eraseIdx_of_lt hi
    have hset : s.isChecking = true := hgood.flag.mpr (List.ne_nil_of_length_pos (by omega))
    refine iff_of_false id fun hiff => hiff.mp (hflag.trans hset) ?_
    rw [htasks, ← List.length_eq_zero_iff, hlen]
    omega

/-- A connection starts a probe, and while it runs a second connection, a provider refresh and a third
    connection start none. -/
def firstProbe : List UrlTestAction :=
  [.check 0, .check 1, .exchange 0, .exchange 1, .start 0, .refresh [], .check 2, .exchange 2,
    .publish 0 [(['a'], some 20), (['b'], some 10)]]

theorem sound_iff_firstProbe : ∃ s,
    run step (new ['g'] [['a'], ['b']] 180 5) firstProbe = some s ∧
      s.tasks.length = 1 ∧ s.group.selected = some ['b'] ∧
      ∀ before after t, firstProbe = before ++ after →
        run step (new ['g'] [['a'], ['b']] 180 5) before = some t → t.Sound :=
  ⟨_, rfl, rfl, rfl, (sound_iff rfl).mp (guarded_of_forall (by simp [firstProbe, NoneEnds]) _)⟩

/-- When the first probe has ended, a later connection finds that it is time, and starts none. -/
theorem not_sound : ∃ t u,
    run step (new ['g'] [['a']] 180 5) [.check 0, .exchange 0, .start 0, .publish 0 [(['a'], some 20)],
      .store 0, .tick 200, .check 0] = some t ∧
      t.tasks = [] ∧ t.shouldCheck = true ∧ t.callers 0 = true ∧ t.step (.exchange 0) = some u ∧
      u.tasks = [] ∧ ¬ t.Sound :=
  ⟨_, _, rfl, rfl, rfl, rfl, rfl, rfl, fun h => h.flag.mp rfl rfl⟩

end UrlTestGroup

end Reflex.Outbound
