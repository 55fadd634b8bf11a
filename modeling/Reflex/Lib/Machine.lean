import Mathlib.Algebra.Ring.Nat
import Mathlib.Tactic.Common

namespace Machine

/-!
# Machine arithmetic and buffers

Code on machine integers and slices stops with a fault where an operation has no result: an addition
that does not fit, a shift by the width of the type, an index outside of its buffer.  The arithmetic is
that of a build with overflow checks.

* `Checked` — computations that may fault;
* `add`, `sub`, `mul`, `shl`, `shr` — the arithmetic of a type of `w` bits;
* `index`, `range` — what a buffer holds;
* `Defined` — no fault, with `defined_bind` for a sequence of steps.
-/

/-- Why an operation has no result. -/
inductive Fault where
  | overflow
  | shift
  | bounds
  deriving DecidableEq, Repr

/-- A computation that may fault. -/
abbrev Checked (α : Type*) := Except Fault α

variable {α β : Type}

/-- `a + b` in a type of `w` bits. -/
def add (w a b : Nat) : Checked Nat := if a + b < 2 ^ w then .ok (a + b) else .error .overflow

/-- `a - b`. -/
def sub (a b : Nat) : Checked Nat := if b ≤ a then .ok (a - b) else .error .overflow

/-- `a * b` in a type of `w` bits. -/
def mul (w a b : Nat) : Checked Nat := if a * b < 2 ^ w then .ok (a * b) else .error .overflow

/-- `a << k` in a type of `w` bits: bits that are shifted out are lost, a shift by `w` is a fault. -/
def shl (w a k : Nat) : Checked Nat := if k < w then .ok (a <<< k % 2 ^ w) else .error .shift

/-- `a >> k` in a type of `w` bits. -/
def shr (w a k : Nat) : Checked Nat := if k < w then .ok (a >>> k) else .error .shift

/-- `buf[i]`. -/
def index (buf : List α) (i : Nat) : Checked α :=
  match buf[i]? with
  | some a => .ok a
  | none => .error .bounds

/-- `&buf[lo..hi]`. -/
def range (buf : List α) (lo hi : Nat) : Checked (List α) :=
  if lo ≤ hi ∧ hi ≤ buf.length then .ok ((buf.drop lo).take (hi - lo)) else .error .bounds

/-! ### Results -/

theorem add_of_lt {w a b : Nat} (h : a + b < 2 ^ w) : add w a b = .ok (a + b) := if_pos h

theorem add_of_le {w a b : Nat} (h : 2 ^ w ≤ a + b) : add w a b = .error .overflow :=
  if_neg (Nat.not_lt.mpr h)

theorem sub_of_le {a b : Nat} (h : b ≤ a) : sub a b = .ok (a - b) := if_pos h

theorem mul_of_lt {w a b : Nat} (h : a * b < 2 ^ w) : mul w a b = .ok (a * b) := if_pos h

theorem shl_of_lt {w a k : Nat} (h : k < w) : shl w a k = .ok (a <<< k % 2 ^ w) := if_pos h

theorem shl_of_le {w a k : Nat} (h : w ≤ k) : shl w a k = .error .shift := if_neg (Nat.not_lt.mpr h)

theorem shr_of_lt {w a k : Nat} (h : k < w) : shr w a k = .ok (a >>> k) := if_pos h

theorem index_of_getElem? {buf : List α} {i : Nat} {a : α} (h : buf[i]? = some a) :
    index buf i = .ok a := by
  rw [index, h]

theorem index_of_lt {buf : List α} {i : Nat} (h : i < buf.length) : index buf i = .ok buf[i] :=
  index_of_getElem? (List.getElem?_eq_getElem h)

theorem index_of_le {buf : List α} {i : Nat} (h : buf.length ≤ i) : index buf i = .error .bounds := by
  rw [index, List.getElem?_eq_none h]

theorem range_of_le {buf : List α} {lo hi : Nat} (h : lo ≤ hi) (h' : hi ≤ buf.length) :
    range buf lo hi = .ok ((buf.drop lo).take (hi - lo)) := if_pos ⟨h, h'⟩

/-- A range up to the end of the buffer is what is left from its start on. -/
theorem range_length {buf : List α} {lo : Nat} (h : lo ≤ buf.length) :
    range buf lo buf.length = .ok (buf.drop lo) := by
  rw [range_of_le h (Nat.le_refl _), List.take_of_length_le (Nat.le_of_eq List.length_drop)]

/-! ### A position and what is behind it -/

section Position

variable {buf front rest : List α} {i : Nat}

theorem drop_add_of_drop (h : buf.drop i = front ++ rest) : buf.drop (i + front.length) = rest := by
  rw [← List.drop_drop, h, List.drop_left]

theorem drop_succ_of_drop {a : α} (h : buf.drop i = a :: rest) : buf.drop (i + 1) = rest := by
  rw [← List.drop_drop, h, List.drop_one, List.tail_cons]

theorem length_of_drop (h : buf.drop i = rest) (hrest : rest ≠ []) : buf.length = i + rest.length := by
  subst h
  have hlt : i < buf.length := by
    by_contra hle
    exact hrest (List.drop_eq_nil_of_le (Nat.not_lt.mp hle))
  rw [List.length_drop]
  omega

theorem index_of_drop {a : α} (h : buf.drop i = a :: rest) : index buf i = .ok a := by
  refine index_of_getElem? ?_
  rw [← Nat.add_zero i, ← List.getElem?_drop, h]
  rfl

/-- What is at a position, with its length known. -/
theorem range_of_drop (hi : i ≤ buf.length) (h : buf.drop i = front ++ rest) :
    range buf i (i + front.length) = .ok front := by
  have hlen := congrArg List.length h
  rw [List.length_drop, List.length_append] at hlen
  rw [range_of_le (Nat.le_add_right _ _) (by omega), h, Nat.add_sub_cancel_left, List.take_left]

end Position

/-! ### Steps -/

@[simp] theorem ok_bind {a : α} {f : α → Checked β} : ((.ok a : Checked α) >>= f) = f a := rfl

@[simp] theorem error_bind {e : Fault} {f : α → Checked β} :
    ((.error e : Checked α) >>= f) = .error e := rfl

/-- The first result among computations that do not fault. -/
theorem findSomeM?_eq_ok {f : α → Checked (Option β)} {g : α → Option β} {l : List α}
    (h : ∀ a ∈ l, f a = .ok (g a)) : l.findSomeM? f = .ok (l.findSome? g) := by
  induction l with
  | nil => rfl
  | cons a l ih =>
    rw [List.findSomeM?_cons, h a List.mem_cons_self, ok_bind, List.findSome?_cons]
    cases g a with
    | none => exact ih fun b hb => h b (List.mem_cons_of_mem a hb)
    | some b => rfl

/-- The computation does not fault. -/
def Defined (x : Checked α) : Prop := ∃ a, x = .ok a

@[simp] theorem defined_ok {a : α} : Defined (.ok a : Checked α) := ⟨a, rfl⟩

@[simp] theorem not_defined_error {e : Fault} : ¬ Defined (.error e : Checked α) := by
  rintro ⟨a, h⟩
  cases h

/-- A computation in two steps is defined exactly if the first step has a result for which the second is defined. -/
theorem defined_bind {x : Checked α} {f : α → Checked β} :
    Defined (x >>= f) ↔ ∃ a, x = .ok a ∧ Defined (f a) := by
  rcases x with e | a
  · simp
  · simp

theorem Defined.bind {x : Checked α} {f : α → Checked β} (hx : Defined x)
    (hf : ∀ a, x = .ok a → Defined (f a)) : Defined (x >>= f) := by
  obtain ⟨a, ha⟩ := hx
  exact defined_bind.mpr ⟨a, ha, hf a ha⟩

end Machine
