import Mathlib.Tactic.Common

namespace Outcome

/-!
# Postconditions of computations that may fail

* `Ensures` — what holds of the value a computation returns, or of the error it stops with;
* `Ensures.bind`, `Ensures.mapM` — a sequence of steps, a step for every element;
* `Ensures.foldlM` — a loop, with an invariant about the elements that are done;
* `Succeeds` — a value is returned, `succeeds_bind`, `succeeds_mapM`, `succeeds_foldlM`;
* `Terminates` — the same for a computation that may not come to an end, `Terminates.bind`,
  `Terminates.foldlM`.
-/

variable {ε α β : Type}

/-- What is returned satisfies `ok`, and an error satisfies `err`. -/
def Ensures (ok : α → Prop) (err : ε → Prop) : Except ε α → Prop
  | .ok a => ok a
  | .error e => err e

variable {ok mid : α → Prop} {err : ε → Prop}

@[simp] theorem ensures_ok {a : α} : Ensures ok err (.ok a) ↔ ok a := Iff.rfl

@[simp] theorem ensures_error {e : ε} : Ensures ok err (.error e) ↔ err e := Iff.rfl

theorem Ensures.of_ok {x : Except ε α} (h : Ensures ok err x) {a : α} (hx : x = .ok a) : ok a := by
  subst hx
  exact h

theorem Ensures.of_error {x : Except ε α} (h : Ensures ok err x) {e : ε} (hx : x = .error e) :
    err e := by
  subst hx
  exact h

theorem Ensures.imp {ok' : α → Prop} {err' : ε → Prop} {x : Except ε α} (h : Ensures ok err x)
    (hok : ∀ a, ok a → ok' a) (herr : ∀ e, err e → err' e) : Ensures ok' err' x := by
  rcases x with e | a
  · exact herr e h
  · exact hok a h

/-- The second step may rely on what the first one ensures. -/
theorem Ensures.bind {ok' : β → Prop} {x : Except ε α} {f : α → Except ε β}
    (hx : Ensures mid err x) (hf : ∀ a, mid a → Ensures ok' err (f a)) :
    Ensures ok' err (x >>= f) := by
  rcases x with e | a
  · exact hx
  · exact hf a hx

/-- A step for every element of a list. -/
theorem Ensures.mapM {f : β → Except ε α} {l : List β}
    (hf : ∀ b ∈ l, Ensures ok err (f b)) : Ensures (fun as => ∀ a ∈ as, ok a) err (l.mapM f) := by
  induction l with
  | nil => exact fun a ha => absurd ha List.not_mem_nil
  | cons b l ih =>
    rw [List.mapM_cons]
    refine (hf b List.mem_cons_self).bind fun a ha => ?_
    refine (ih fun b' hb' => hf b' (List.mem_cons_of_mem b hb')).bind fun as has => ?_
    show ∀ a' ∈ a :: as, ok a'
    exact List.forall_mem_cons.mpr ⟨ha, has⟩

/-- A loop: `I done b` says what holds of the accumulator behind the elements `done`. -/
theorem Ensures.foldlM {f : β → α → Except ε β} {I : List α → β → Prop} {l : List α} {b : β}
    (hinit : I [] b)
    (hstep : ∀ done a rest b, l = done ++ a :: rest → I done b →
      Ensures (I (done ++ [a])) err (f b a)) :
    Ensures (I l) err (l.foldlM f b) := by
  suffices hloop : ∀ rest done b, l = done ++ rest → I done b →
      Ensures (I l) err (rest.foldlM f b) from hloop l [] b rfl hinit
  intro rest
  induction rest with
  | nil =>
    intro done b hl hb
    rw [List.append_nil] at hl
    subst hl
    exact hb
  | cons a rest ih =>
    intro done b hl hb
    rw [List.foldlM_cons]
    exact (hstep done a rest b hl hb).bind fun b' hb' =>
      ih (done ++ [a]) b' (by rw [hl, List.append_assoc]; rfl) hb'

/-! ### Computations that return something -/

/-- The computation returns a value. -/
def Succeeds (x : Except ε α) : Prop := ∃ a, x = .ok a

@[simp] theorem succeeds_ok {a : α} : Succeeds (.ok a : Except ε α) := ⟨a, rfl⟩

@[simp] theorem not_succeeds_error {e : ε} : ¬ Succeeds (.error e : Except ε α) := fun ⟨_, h⟩ => by cases h

theorem succeeds_mapError {ε' : Type} {f : ε → ε'} {x : Except ε α} : Succeeds (x.mapError f) ↔ Succeeds x := by
  rcases x with e | a
  · exact iff_of_false not_succeeds_error not_succeeds_error
  · exact iff_of_true succeeds_ok succeeds_ok

theorem succeeds_bind {x : Except ε α} {f : α → Except ε β} :
    Succeeds (x >>= f) ↔ ∃ a, x = .ok a ∧ Succeeds (f a) := by
  rcases x with e | a
  · exact iff_of_false not_succeeds_error fun ⟨_, h, _⟩ => by cases h
  · exact ⟨fun h => ⟨a, rfl, h⟩, fun ⟨_, ha, h⟩ => Except.ok.inj ha ▸ h⟩

/-- A step for every element succeeds exactly if each of them does. -/
theorem succeeds_mapM {f : β → Except ε α} {l : List β} :
    Succeeds (l.mapM f) ↔ ∀ b ∈ l, Succeeds (f b) := by
  induction l with
  | nil => exact iff_of_true succeeds_ok fun b hb => absurd hb List.not_mem_nil
  | cons b l ih =>
    rw [List.mapM_cons, succeeds_bind, List.forall_mem_cons, ← ih]
    constructor
    · rintro ⟨a, ha, h⟩
      obtain ⟨as, has, -⟩ := succeeds_bind.mp h
      exact ⟨⟨a, ha⟩, as, has⟩
    · rintro ⟨⟨a, ha⟩, as, has⟩
      exact ⟨a, ha, succeeds_bind.mpr ⟨as, has, succeeds_ok⟩⟩

/-- A loop succeeds exactly if `Q` holds of all elements, when this decides about every round that the invariant
    `I` allows. -/
theorem succeeds_foldlM {f : β → α → Except ε β} {I : List α → β → Prop} {Q : α → Prop} {l : List α} {b : β}
    (hinit : I [] b)
    (hstep : ∀ done a rest b, l = done ++ a :: rest → I done b →
      (Succeeds (f b a) ↔ Q a) ∧ ∀ b', f b a = .ok b' → I (done ++ [a]) b') :
    Succeeds (l.foldlM f b) ↔ ∀ a ∈ l, Q a := by
  suffices hloop : ∀ rest done b, l = done ++ rest → I done b →
      (Succeeds (rest.foldlM f b) ↔ ∀ a ∈ rest, Q a) from hloop l [] b rfl hinit
  intro rest
  induction rest with
  | nil => exact fun done b _ _ => iff_of_true succeeds_ok fun a ha => absurd ha List.not_mem_nil
  | cons a rest ih =>
    intro done b hl hb
    obtain ⟨hround, hkeeps⟩ := hstep done a rest b hl hb
    rw [List.foldlM_cons, succeeds_bind, List.forall_mem_cons, ← hround]
    have hrest {b' : β} (hb' : f b a = .ok b') : Succeeds (rest.foldlM f b') ↔ ∀ a ∈ rest, Q a :=
      ih (done ++ [a]) b' (by rw [hl, List.append_assoc]; rfl) (hkeeps b' hb')
    constructor
    · rintro ⟨b', hb', h⟩
      exact ⟨⟨b', hb'⟩, (hrest hb').mp h⟩
    · rintro ⟨⟨b', hb'⟩, h⟩
      exact ⟨b', hb', (hrest hb').mpr h⟩

/-! ### Computations that may run on -/

/-- The computation comes to an end: what it returns satisfies `ok`, and an error satisfies
    `err`. -/
def Terminates (ok : α → Prop) (err : ε → Prop) (x : ExceptT ε Option α) : Prop :=
  ∃ r, x.run = some r ∧ Ensures ok err r

theorem terminates_pure {a : α} (h : ok a) : Terminates ok err (pure a : ExceptT ε Option α) :=
  ⟨.ok a, rfl, h⟩

theorem terminates_throw {e : ε} (h : err e) :
    Terminates ok err (throw e : ExceptT ε Option α) :=
  ⟨.error e, rfl, h⟩

theorem Terminates.imp {ok' : α → Prop} {err' : ε → Prop} {x : ExceptT ε Option α}
    (h : Terminates ok err x) (hok : ∀ a, ok a → ok' a) (herr : ∀ e, err e → err' e) :
    Terminates ok' err' x := by
  obtain ⟨r, hr, h⟩ := h
  exact ⟨r, hr, h.imp hok herr⟩

theorem Terminates.bind {ok' : β → Prop} {x : ExceptT ε Option α} {f : α → ExceptT ε Option β}
    (hx : Terminates mid err x) (hf : ∀ a, mid a → Terminates ok' err (f a)) :
    Terminates ok' err (x >>= f) := by
  obtain ⟨r, hr, h⟩ := hx
  rcases r with e | a
  · refine ⟨.error e, ?_, h⟩
    rw [ExceptT.run_bind, hr]
    rfl
  · obtain ⟨r', hr', h'⟩ := hf a h
    refine ⟨r', ?_, h'⟩
    rw [ExceptT.run_bind, hr]
    exact hr'

/-- A loop that comes to an end in every round. -/
theorem Terminates.foldlM {f : β → α → ExceptT ε Option β} {I : List α → β → Prop} {l : List α}
    {b : β} (hinit : I [] b)
    (hstep : ∀ done a rest b, l = done ++ a :: rest → I done b →
      Terminates (I (done ++ [a])) err (f b a)) :
    Terminates (I l) err (l.foldlM f b) := by
  suffices hloop : ∀ rest done b, l = done ++ rest → I done b →
      Terminates (I l) err (rest.foldlM f b) from hloop l [] b rfl hinit
  intro rest
  induction rest with
  | nil =>
    intro done b hl hb
    rw [List.append_nil] at hl
    subst hl
    exact terminates_pure hb
  | cons a rest ih =>
    intro done b hl hb
    rw [List.foldlM_cons]
    exact (hstep done a rest b hl hb).bind fun b' hb' =>
      ih (done ++ [a]) b' (by rw [hl, List.append_assoc]; rfl) hb'

end Outcome
