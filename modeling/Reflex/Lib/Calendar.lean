import Mathlib.Algebra.BigOperators.Intervals
import Mathlib.Algebra.Group.Action.Defs
import Mathlib.Algebra.Order.BigOperators.Group.Finset
import Mathlib.Tactic.Common

namespace Calendar

open scoped BigOperators

/-!
# The Gregorian calendar

Dates with their numbers, counted from the first day of a given year.  A year is a leap year by the rule of 4, 100
and 400.

* `Date` — a year, a month of twelve and a day of the month, so that there are no dates but those that exist;
* `Date.dayNumber` — the days from the start of a year to a date: the years, the months and the days before it;
* `Date.Before` — dates, the earlier one first;
* `Date.dayNumber_lt_iff` — earlier dates have smaller day numbers.

That different dates have different numbers follows, as of two dates one is the earlier (`before_trichotomy`).
-/

/-- Every fourth year, but of the centuries only every fourth. -/
def IsLeap (year : Nat) : Prop := 4 ∣ year ∧ ¬ 100 ∣ year ∨ 400 ∣ year

instance : DecidablePred IsLeap := fun year =>
  inferInstanceAs (Decidable (4 ∣ year ∧ ¬ 100 ∣ year ∨ 400 ∣ year))

/-- The days of a year. -/
def yearLength (year : Nat) : Nat := if IsLeap year then 366 else 365

/-- The days of a month. -/
def monthLength (year month : Nat) : Nat :=
  match month with
  | 2 => if IsLeap year then 29 else 28
  | 4 | 6 | 9 | 11 => 30
  | _ => 31

/-- The months of a year have as many days together as the year. -/
theorem sum_monthLength (year : Nat) : ∑ m ∈ Finset.Ico 1 13, monthLength year m = yearLength year := by
  rw [Finset.sum_Ico_eq_sum_range]
  simp only [Finset.sum_range_succ, Finset.sum_range_zero, monthLength, yearLength]
  split <;> rfl

/-- A date. -/
structure Date where
  year : Nat
  month : Nat
  day : Nat
  month_pos : 1 ≤ month
  month_le : month ≤ 12
  day_pos : 1 ≤ day
  day_le : day ≤ monthLength year month

/-- The days from one new year to another. -/
def daysBeforeYear (epoch year : Nat) : Nat := ∑ y ∈ Finset.Ico epoch year, yearLength y

/-- The days of a year before a month. -/
def daysBeforeMonth (year month : Nat) : Nat := ∑ m ∈ Finset.Ico 1 month, monthLength year m

theorem daysBeforeYear_succ {epoch year : Nat} (h : epoch ≤ year) :
    daysBeforeYear epoch (year + 1) = daysBeforeYear epoch year + yearLength year :=
  Finset.sum_Ico_succ_top h _

theorem daysBeforeMonth_succ {month : Nat} (h : 1 ≤ month) (year : Nat) :
    daysBeforeMonth year (month + 1) = daysBeforeMonth year month + monthLength year month :=
  Finset.sum_Ico_succ_top h _

theorem daysBeforeYear_mono (epoch : Nat) : Monotone (daysBeforeYear epoch) := fun _ _ h =>
  Finset.sum_le_sum_of_subset (Finset.Ico_subset_Ico_right h)

/-- No year is shorter than 365 days. -/
theorem le_daysBeforeYear (epoch year : Nat) : (year - epoch) * 365 ≤ daysBeforeYear epoch year := by
  rw [← Nat.card_Ico, ← smul_eq_mul, daysBeforeYear]
  refine Finset.card_nsmul_le_sum _ _ _ fun y _ => ?_
  unfold yearLength
  split <;> decide

theorem daysBeforeMonth_mono (year : Nat) : Monotone (daysBeforeMonth year) := fun _ _ h =>
  Finset.sum_le_sum_of_subset (Finset.Ico_subset_Ico_right h)

/-- No month is longer than 31 days. -/
theorem monthLength_le (year month : Nat) : monthLength year month ≤ 31 := by
  unfold monthLength
  split
  · split <;> decide
  · decide
  · decide
  · decide
  · decide
  · exact le_rfl

namespace Date

variable {d e : Date} {epoch : Nat}

/-- The days of the year before the date. -/
def dayOfYear (d : Date) : Nat := daysBeforeMonth d.year d.month + (d.day - 1)

/-- The days from the start of the year `epoch` to the date. -/
def dayNumber (epoch : Nat) (d : Date) : Nat := daysBeforeYear epoch d.year + d.dayOfYear

/-- The date is the earlier one. -/
def Before (d e : Date) : Prop :=
  d.year < e.year ∨ d.year = e.year ∧ (d.month < e.month ∨ d.month = e.month ∧ d.day < e.day)

theorem dayOfYear_lt (d : Date) : d.dayOfYear < yearLength d.year := by
  have hmonth := daysBeforeMonth_succ d.month_pos d.year
  have hyear : daysBeforeMonth d.year (d.month + 1) ≤ daysBeforeMonth d.year 13 :=
    daysBeforeMonth_mono d.year (Nat.succ_le_succ d.month_le)
  have hsum : daysBeforeMonth d.year 13 = yearLength d.year := sum_monthLength d.year
  have hpos := d.day_pos
  have hle := d.day_le
  rw [dayOfYear]
  omega

/-- **Earlier dates** have smaller day numbers. -/
theorem dayNumber_lt (hd : epoch ≤ d.year) (h : d.Before e) : d.dayNumber epoch < e.dayNumber epoch := by
  rw [dayNumber, dayNumber]
  rcases h with hyear | ⟨hyear, hmonth | ⟨hmonth, hday⟩⟩
  · have hlt := d.dayOfYear_lt
    have hsucc := daysBeforeYear_succ hd
    have hmono : daysBeforeYear epoch (d.year + 1) ≤ daysBeforeYear epoch e.year :=
      daysBeforeYear_mono epoch hyear
    omega
  · have hsucc := daysBeforeMonth_succ d.month_pos d.year
    have hmono : daysBeforeMonth d.year (d.month + 1) ≤ daysBeforeMonth d.year e.month :=
      daysBeforeMonth_mono d.year hmonth
    have hpos := d.day_pos
    have hle := d.day_le
    rw [dayOfYear, dayOfYear, ← hyear]
    omega
  · have hpos := d.day_pos
    rw [dayOfYear, dayOfYear, ← hyear, ← hmonth]
    omega

theorem before_trichotomy (d e : Date) :
    d.Before e ∨ (d.year = e.year ∧ d.month = e.month ∧ d.day = e.day) ∨ e.Before d := by
  unfold Before
  omega

/-- Day numbers are in the order of the dates. -/
theorem dayNumber_lt_iff (hd : epoch ≤ d.year) (he : epoch ≤ e.year) :
    d.dayNumber epoch < e.dayNumber epoch ↔ d.Before e := by
  refine ⟨fun h => ?_, dayNumber_lt hd⟩
  rcases before_trichotomy d e with hbefore | ⟨hyear, hmonth, hday⟩ | hafter
  · exact hbefore
  · rw [dayNumber, dayNumber, dayOfYear, dayOfYear, hyear, hmonth, hday] at h
    exact absurd h (lt_irrefl _)
  · exact absurd h (dayNumber_lt he hafter).asymm

end Date

end Calendar
