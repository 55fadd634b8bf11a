import Mathlib.Tactic.Common

namespace Journal

/-!
# Pending writes

A state with a queue of writes that are applied to it one by one, in order.  A crash keeps what has
been applied and loses the rest.

* `EveryCut` — a property holds wherever the queue is cut;
* `everyCut_append` — a write at the end of the queue adds one cut;
* `EveryCut.mono`, `replay_mono` — states that are related stay so under the same writes.
-/

variable {σ ω : Type*} (apply : σ → ω → σ)

/-- The state once all of the queue is applied. -/
def replay (s : σ) (ops : List ω) : σ := ops.foldl apply s

/-- The property holds of the state after any number of the writes, in order. -/
def EveryCut (P : σ → Prop) : σ → List ω → Prop
  | s, [] => P s
  | s, op :: ops => P s ∧ EveryCut P (apply s op) ops

variable {apply} {P : σ → Prop} {s : σ} {op : ω} {ops : List ω}

theorem replay_append : replay apply s (ops ++ [op]) = apply (replay apply s ops) op :=
  List.foldl_append

/-- The cut in front of the queue. -/
theorem EveryCut.here (h : EveryCut apply P s ops) : P s := by
  cases ops with
  | nil => exact h
  | cons op ops => exact h.1

/-- The cut behind the whole queue: what holds of every cut holds when all was written. -/
theorem EveryCut.last (h : EveryCut apply P s ops) : P (replay apply s ops) := by
  induction ops generalizing s with
  | nil => exact h
  | cons op ops ih => exact ih h.2

/-- **One more write**: every cut of the longer queue is one of the shorter or the last one. -/
theorem everyCut_append : EveryCut apply P s (ops ++ [op]) ↔
    EveryCut apply P s ops ∧ P (apply (replay apply s ops) op) := by
  induction ops generalizing s with
  | nil => rfl
  | cons op' ops ih =>
      show P s ∧ EveryCut apply P (apply s op') (ops ++ [op]) ↔ _
      rw [ih, ← and_assoc]
      rfl

section Related

variable {R : σ → σ → Prop} (hstep : ∀ s t op, R s t → R (apply s op) (apply t op))

include hstep

theorem replay_mono {t : σ} (h : R s t) : R (replay apply s ops) (replay apply t ops) := by
  induction ops generalizing s t with
  | nil => exact h
  | cons op ops ih => exact ih (hstep s t op h)

/-- **A smaller state** is as good at every cut. -/
theorem EveryCut.mono (hP : ∀ s t, R s t → P t → P s) {t : σ} (h : R s t)
    (hcut : EveryCut apply P t ops) : EveryCut apply P s ops := by
  induction ops generalizing s t with
  | nil => exact hP s t h hcut
  | cons op ops ih => exact ⟨hP s t h hcut.1, ih (hstep s t op h) hcut.2⟩

end Related

end Journal
