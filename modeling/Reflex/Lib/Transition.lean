import Mathlib.Logic.Function.Basic
import Mathlib.Tactic.Common

namespace Transition

/-!
# Runs of a partial step function

A system is a function that takes a state and an action to the next state, or to `none` where the
action is not enabled.  An interleaving is a list of actions.

* `run` — the state after a list of actions;
* `Guarded` — every step of the run meets a condition on the state it is taken from;
* `invariant_of_run` — what the guarded steps preserve holds at the end of a guarded run;
* `invariant_of_steps` — the same where every step preserves it;
* `counted_of_run` — the same for a property of the number of steps;
* `run_append_eq_some`, `run_map` — runs compose, and a run of one party is a run of the whole;
* `run_simulates` — where the steps of one system are matched by another, so are its runs;
* `run_iff_forall` — a property that each action either keeps or breaks;
* `foldl_of_run` — a part of the state that depends on the actions alone;
* `guarded_append` — guarded runs compose;
* `Guarded.imp_of_inv`, `not_guarded_or_of_run` — one guard implies another along a run, and what
  becomes of a run whose first guard fails;
* `guarded_iff_always` — when the guard is exactly what keeps the states good;
* `update_eq_some`, `update_none_eq_some` — what a table of parties holds after one of them has moved
  or gone.
-/

variable {σ α : Type*} (step : σ → α → Option σ)

/-- The state after a list of actions, if each is enabled in its turn. -/
def run : σ → List α → Option σ
  | s, [] => some s
  | s, a :: as => (step s a).bind fun s' => run s' as

/-- Every step of the run meets `guard` in the state it is taken from. -/
def Guarded (guard : σ → α → Prop) : σ → List α → Prop
  | _, [] => True
  | s, a :: as => guard s a ∧ ∀ s', step s a = some s' → Guarded guard s' as

/-- Whether a run is guarded can be computed. -/
instance Guarded.decidable (guard : σ → α → Prop) [∀ s a, Decidable (guard s a)] :
    ∀ s as, Decidable (Guarded step guard s as)
  | _, [] => .isTrue trivial
  | s, a :: as =>
      match hstep : step s a with
      | none => decidable_of_iff (guard s a)
          ⟨fun ha => ⟨ha, fun s' hs' => by rw [hstep] at hs'; cases hs'⟩, And.left⟩
      | some t =>
          have := Guarded.decidable guard t as
          decidable_of_iff (guard s a ∧ Guarded step guard t as)
            ⟨fun h => ⟨h.1, fun s' hs' => by
                obtain rfl := Option.some.inj (hstep.symm.trans hs')
                exact h.2⟩,
              fun h => ⟨h.1, h.2 t hstep⟩⟩

variable {step}

theorem run_cons {s t u : σ} {a : α} {as : List α} (ha : step s a = some t)
    (has : run step t as = some u) : run step s (a :: as) = some u := by
  rw [run, ha]
  exact has

theorem run_singleton {s t : σ} {a : α} (ha : step s a = some t) : run step s [a] = some t :=
  run_cons ha rfl

/-- **Invariants of guarded runs.** What every guarded step preserves holds at the end of a
    guarded run. -/
theorem invariant_of_run {guard : σ → α → Prop} {Inv : σ → Prop}
    (hstep : ∀ s a s', step s a = some s' → guard s a → Inv s → Inv s') {s s' : σ} {as : List α}
    (hrun : run step s as = some s') (hguard : Guarded step guard s as) (hs : Inv s) : Inv s' := by
  induction as generalizing s with
  | nil =>
      obtain rfl := Option.some.inj hrun
      exact hs
  | cons a as ih =>
      obtain ⟨t, ht, hrest⟩ := Option.bind_eq_some_iff.mp hrun
      -- the first step leads to `t`, from where the rest of the run is guarded as well
      exact ih hrest (hguard.2 t ht) (hstep s a t ht hguard.1 hs)

/-- **Invariants that count.** A property of the number of steps that each step preserves below a
    bound holds after a run that stays below it. -/
theorem counted_of_run {Inv : Nat → σ → Prop} {bound : Nat}
    (hstep : ∀ n s a s', n < bound → step s a = some s' → Inv n s → Inv (n + 1) s') {n : Nat}
    {s s' : σ} {as : List α} (hrun : run step s as = some s') (hn : n + as.length ≤ bound)
    (hs : Inv n s) : Inv (n + as.length) s' := by
  induction as generalizing n s with
  | nil =>
      obtain rfl := Option.some.inj hrun
      exact hs
  | cons a as ih =>
      obtain ⟨t, ht, hrest⟩ := Option.bind_eq_some_iff.mp hrun
      rw [List.length_cons] at hn ⊢
      have hcount := ih hrest (by omega) (hstep n s a t (by omega) ht hs)
      rwa [show n + (as.length + 1) = n + 1 + as.length by omega]

/-- **Runs compose**, and a run of two parts goes through a state between them. -/
theorem run_append_eq_some {s u : σ} {as bs : List α} :
    run step s (as ++ bs) = some u ↔ ∃ t, run step s as = some t ∧ run step t bs = some u := by
  induction as generalizing s with
  | nil => exact ⟨fun h => ⟨s, rfl, h⟩, fun ⟨t, ht, h⟩ => by rw [Option.some.inj ht]; exact h⟩
  | cons a as ih =>
      rw [List.cons_append, run, run, Option.bind_eq_some_iff]
      constructor
      · rintro ⟨s', hs', hrest⟩
        obtain ⟨t, ht, hbs⟩ := ih.mp hrest
        exact ⟨t, by rw [hs']; exact ht, hbs⟩
      · rintro ⟨t, ht, hbs⟩
        obtain ⟨s', hs', hrest⟩ := Option.bind_eq_some_iff.mp ht
        exact ⟨s', hs', ih.mpr ⟨t, hrest, hbs⟩⟩

/-- **A party's run within the whole.** If each step of a party is a step of the whole, so is a run. -/
theorem run_map {τ β : Type*} {part : τ → β → Option τ} (embed : τ → σ) (f : β → α)
    (hstep : ∀ t b t', part t b = some t' → step (embed t) (f b) = some (embed t'))
    {t t' : τ} {bs : List β} (hrun : run part t bs = some t') :
    run step (embed t) (bs.map f) = some (embed t') := by
  induction bs generalizing t with
  | nil =>
      obtain rfl := Option.some.inj hrun
      rfl
  | cons b bs ih =>
      obtain ⟨u, hu, hrest⟩ := Option.bind_eq_some_iff.mp hrun
      exact Option.bind_eq_some_iff.mpr ⟨embed u, hstep t b u hu, ih hrest⟩

/-- **Simulation.** If each step of a system is matched by a step of another under the same action, so is a
    run. -/
theorem run_simulates {τ : Type*} {step' : τ → α → Option τ} {R : σ → τ → Prop} {ok : α → Prop}
    (hstep : ∀ s t a s', step s a = some s' → ok a → R s t → ∃ t', step' t a = some t' ∧ R s' t')
    {s s' : σ} {t : τ} {as : List α} (hrun : run step s as = some s') (hok : ∀ a ∈ as, ok a) (h : R s t) :
    ∃ t', run step' t as = some t' ∧ R s' t' := by
  induction as generalizing s t with
  | nil =>
      obtain rfl := Option.some.inj hrun
      exact ⟨t, rfl, h⟩
  | cons a as ih =>
      obtain ⟨u, hu, hrest⟩ := Option.bind_eq_some_iff.mp hrun
      rw [List.forall_mem_cons] at hok
      obtain ⟨v, hv, huv⟩ := hstep s t a u hu hok.1 h
      obtain ⟨t', ht', hend⟩ := ih hrest hok.2 huv
      exact ⟨t', run_cons hv ht', hend⟩

/-- **What the actions leave.** A property that holds after an action just when it held before and
    the action is harmless holds after a run just when it held before and all actions are. -/
theorem run_iff_forall {P : σ → Prop} {harmless : α → Prop}
    (hstep : ∀ s a s', step s a = some s' → (P s' ↔ P s ∧ harmless a)) {s s' : σ} {as : List α}
    (hrun : run step s as = some s') : P s' ↔ P s ∧ ∀ a ∈ as, harmless a := by
  induction as generalizing s with
  | nil =>
      obtain rfl := Option.some.inj hrun
      exact ⟨fun hs => ⟨hs, fun a ha => (nomatch ha)⟩, And.left⟩
  | cons a as ih =>
      obtain ⟨t, ht, hrest⟩ := Option.bind_eq_some_iff.mp hrun
      rw [ih hrest, hstep s a t ht, List.forall_mem_cons, and_assoc]

/-- **What the actions add up to.** A part of the state that each action changes in its own way is what
    the list of actions makes of it. -/
theorem foldl_of_run {β : Type*} {part : σ → β} {f : β → α → β}
    (hstep : ∀ s a s', step s a = some s' → part s' = f (part s) a) {s s' : σ} {as : List α}
    (hrun : run step s as = some s') : part s' = as.foldl f (part s) := by
  induction as generalizing s with
  | nil =>
      obtain rfl := Option.some.inj hrun
      rfl
  | cons a as ih =>
      obtain ⟨t, ht, hrest⟩ := Option.bind_eq_some_iff.mp hrun
      rw [ih hrest, hstep s a t ht, List.foldl_cons]

/-- Actions that meet the condition in every state. -/
theorem guarded_of_forall {guard : σ → α → Prop} {as : List α}
    (h : ∀ a ∈ as, ∀ s, guard s a) (s : σ) : Guarded step guard s as := by
  induction as generalizing s with
  | nil => trivial
  | cons a as ih =>
      refine ⟨h a (List.mem_cons_self ..) s, fun s' _ => ih ?_ s'⟩
      exact fun b hb => h b (List.mem_cons_of_mem a hb)

/-- **Invariants of runs.** What every step preserves holds at the end of every run. -/
theorem invariant_of_steps {Inv : σ → Prop}
    (hstep : ∀ s a s', step s a = some s' → Inv s → Inv s') {s s' : σ} {as : List α}
    (hrun : run step s as = some s') (hs : Inv s) : Inv s' :=
  have hguard : Guarded step (fun _ _ => True) s as := guarded_of_forall (fun _ _ _ => trivial) s
  invariant_of_run (fun t a t' ht _ => hstep t a t' ht) hrun hguard hs

theorem guarded_append {guard : σ → α → Prop} {s : σ} {as bs : List α}
    (has : Guarded step guard s as)
    (hbs : ∀ t, run step s as = some t → Guarded step guard t bs) :
    Guarded step guard s (as ++ bs) := by
  induction as generalizing s with
  | nil => exact hbs s rfl
  | cons a as ih =>
      refine ⟨has.1, fun s' hs' => ih (has.2 s' hs') fun t ht => hbs t ?_⟩
      exact Option.bind_eq_some_iff.mpr ⟨s', hs', ht⟩

/-- **Guarded runs and good states.** If from a good state exactly the guarded steps lead to a good
    state, then a run is guarded just when it stays in good states. -/
theorem guarded_iff_always {guard : σ → α → Prop} {Inv Good : σ → Prop}
    (hinv : ∀ s a s', step s a = some s' → Inv s → Inv s')
    (hgood : ∀ s a s', step s a = some s' → Inv s → Good s → (guard s a ↔ Good s'))
    {s s' : σ} {as : List α} (hrun : run step s as = some s') (hs : Inv s) (hs' : Good s) :
    Guarded step guard s as ↔ ∀ bs cs t, as = bs ++ cs → run step s bs = some t → Good t := by
  induction as generalizing s with
  | nil =>
      refine ⟨fun _ bs cs t has ht => ?_, fun _ => trivial⟩
      obtain ⟨rfl, -⟩ := List.append_eq_nil_iff.mp has.symm
      obtain rfl := Option.some.inj ht
      exact hs'
  | cons a as ih =>
      obtain ⟨u, hu, hrest⟩ := Option.bind_eq_some_iff.mp hrun
      have hiff := hgood s a u hu hs hs'
      constructor
      · rintro ⟨ha, hguard⟩ bs cs t has ht
        cases bs with
        | nil =>
            obtain rfl := Option.some.inj ht
            exact hs'
        | cons b bs =>
            -- the first step is the same, the rest is a start of the rest
            obtain ⟨rfl, rfl⟩ := List.cons.inj has
            rw [run, hu, Option.bind_some] at ht
            have hnext := hinv s _ u hu hs
            exact (ih hrest hnext (hiff.mp ha)).mp (hguard u hu) bs cs t rfl ht
      · intro halways
        have hgu : Good u := halways [a] as u rfl (by rw [run, hu]; rfl)
        refine ⟨hiff.mpr hgu, fun v hv => ?_⟩
        obtain rfl := Option.some.inj (hu.symm.trans hv)
        refine (ih hrest (hinv s a u hu hs) hgu).mpr fun bs cs t has ht => ?_
        refine halways (a :: bs) cs t (by rw [has]; rfl) ?_
        rw [run, hu]
        exact ht

/-- **One guard implies another**, where what the guarded steps preserve says so. -/
theorem Guarded.imp_of_inv {guard guard' : σ → α → Prop} {Inv : σ → Prop}
    (hinv : ∀ s a s', step s a = some s' → guard s a → Inv s → Inv s')
    (himp : ∀ s a, Inv s → guard s a → guard' s a) {s : σ} {as : List α} (hs : Inv s)
    (hguard : Guarded step guard s as) : Guarded step guard' s as := by
  induction as generalizing s with
  | nil => trivial
  | cons a as ih =>
      refine ⟨himp s a hs hguard.1, fun s' hs' => ?_⟩
      exact ih (hinv s a s' hs' hguard.1 hs) (hguard.2 s' hs')

/-- **A guard that fails.** If a step that fails the guard also fails a second one or leads to a state
    from which the run cannot recover, so does a run. -/
theorem not_guarded_or_of_run {guard guard' : σ → α → Prop} {Inv Bad : σ → Prop}
    (hinv : ∀ s a s', step s a = some s' → guard s a → Inv s → Inv s')
    (hfail : ∀ s a s', step s a = some s' → ¬ guard s a → Inv s → ¬ guard' s a ∨ Bad s')
    (hbad : ∀ s a s', step s a = some s' → Bad s → Bad s') {s s' : σ} {as : List α} (hs : Inv s)
    (hrun : run step s as = some s') (hguard : ¬ Guarded step guard s as) :
    ¬ Guarded step guard' s as ∨ Bad s' := by
  induction as generalizing s with
  | nil => exact absurd trivial hguard
  | cons a as ih =>
      obtain ⟨t, ht, hrest⟩ := Option.bind_eq_some_iff.mp hrun
      by_cases ha : guard s a
      · -- the guard fails in the rest of the run
        have hrestGuard : ¬ Guarded step guard t as := by
          refine fun h => hguard ⟨ha, fun u hu => ?_⟩
          obtain rfl := Option.some.inj (ht.symm.trans hu)
          exact h
        rcases ih (hinv s a t ht ha hs) hrest hrestGuard with hguard' | hend
        · exact .inl fun h => hguard' (h.2 t ht)
        · exact .inr hend
      · rcases hfail s a t ht ha hs with hguard' | hend
        · exact .inl fun h => hguard' h.1
        · exact .inr (invariant_of_steps hbad hrest hend)

/-! ### Tables of parties -/

/-- An entry of a table after one entry was set: the new one, or an old one. -/
theorem update_eq_some {ι β : Type*} [DecidableEq ι] {table : ι → Option β} {i j : ι} {x y : β}
    (h : Function.update table i (some x) j = some y) :
    (j = i ∧ y = x) ∨ (j ≠ i ∧ table j = some y) := by
  by_cases hji : j = i
  · rw [hji, Function.update_self] at h
    exact .inl ⟨hji, (Option.some.inj h).symm⟩
  · rw [Function.update_of_ne hji] at h
    exact .inr ⟨hji, h⟩

/-- After one entry was taken out of a table, an entry is an old one. -/
theorem update_none_eq_some {ι β : Type*} [DecidableEq ι] {table : ι → Option β} {i j : ι} {y : β}
    (h : Function.update table i none j = some y) : j ≠ i ∧ table j = some y := by
  by_cases hji : j = i
  · rw [hji, Function.update_self] at h
    cases h
  · rw [Function.update_of_ne hji] at h
    exact ⟨hji, h⟩

end Transition
