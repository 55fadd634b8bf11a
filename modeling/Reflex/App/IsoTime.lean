import Mathlib.Data.List.Lex
import Reflex.Lib.Calendar
import Reflex.RustStd.Num

namespace Reflex.App

open RustStd Calendar
open scoped BigOperators

/-!
# The Clash API — times as text

`ms_to_iso` of `app/clash_api.rs`: the time of a connection in milliseconds as an ISO 8601 string.  The date
is found by counting years from 1970 and then months; for times of 64 bits no step overflows.

* `yearGo_spec`, `monthGo_spec` — what the loops have taken off when they stop;
* `exists_date` — the date that is found is the one of the day;
* `msToIso_lt` — later seconds have later strings.
-/

/-! ### The code -/

/-- `is_leap`. -/
def isLeap (y : Nat) : Bool := (y % 4 == 0 && y % 100 != 0) || y % 400 == 0

/-- `diy`. -/
def daysInYear (year : Nat) : Nat := if isLeap year then 366 else 365

theorem daysInYear_pos (year : Nat) : 0 < daysInYear year := by
  unfold daysInYear
  split <;> decide

/-- The loop of `days_to_ymd` over the years. -/
def yearGo (days year : Nat) : Nat × Nat :=
  if days < daysInYear year then (year, days) else yearGo (days - daysInYear year) (year + 1)
termination_by days
decreasing_by
  have hpos := daysInYear_pos year
  omega

/-- `month_days`. -/
def monthDays (year : Nat) : List Nat :=
  [31, if isLeap year then 29 else 28, 31, 30, 31, 30, 31, 31, 30, 31, 30, 31]

/-- The loop of `days_to_ymd` over the months. -/
def monthGo : List Nat → Nat → Nat → Nat × Nat
  | [], days, month => (month, days)
  | md :: rest, days, month => if days < md then (month, days) else monthGo rest (days - md) (month + 1)

/-- `days_to_ymd`. -/
def daysToYmd (days : Nat) : Nat × Nat × Nat :=
  let (year, days) := yearGo days 1970
  let (month, days) := monthGo (monthDays year) days 0
  (year, month + 1, days + 1)

/-- `ms_to_iso`. -/
def msToIso (ms : Nat) : Str :=
  let secs := ms / 1000
  let s := secs % 60
  let m := secs / 60 % 60
  let h := secs / 3600 % 24
  let days := secs / 86400
  let (y, mo, d) := daysToYmd days
  displayPad 4 y ++ '-' :: (displayPad 2 mo ++ '-' :: (displayPad 2 d ++ 'T' :: (displayPad 2 h
    ++ ':' :: (displayPad 2 m ++ ':' :: (displayPad 2 s ++ ".000000000Z".toList)))))

/-! ### The date -/

theorem isLeap_eq (y : Nat) : isLeap y = decide (IsLeap y) := by
  simp only [isLeap, IsLeap, Nat.dvd_iff_mod_eq_zero]
  grind

theorem daysInYear_eq (y : Nat) : daysInYear y = yearLength y := by
  simp only [daysInYear, yearLength, isLeap_eq, decide_eq_true_eq]

theorem yearGo_spec (days year : Nat) :
    year ≤ (yearGo days year).1 ∧ (yearGo days year).2 < yearLength (yearGo days year).1 ∧
      daysBeforeYear year (yearGo days year).1 + (yearGo days year).2 = days := by
  fun_induction yearGo days year with
  | case1 days year hlt =>
    rw [daysInYear_eq] at hlt
    exact ⟨le_rfl, hlt, by rw [daysBeforeYear, Finset.Ico_self, Finset.sum_empty, Nat.zero_add]⟩
  | case2 days year hge ih =>
    obtain ⟨hle, hlt, hsum⟩ := ih
    have hbot := Finset.sum_eq_sum_Ico_succ_bot (Nat.lt_of_succ_le hle) yearLength
    have hlength := daysInYear_eq year
    refine ⟨Nat.le_of_succ_le hle, hlt, ?_⟩
    rw [daysBeforeYear, hbot, ← hlength, Nat.add_assoc]
    rw [daysBeforeYear] at hsum
    rw [hsum]
    exact Nat.add_sub_cancel' (Nat.le_of_not_lt hge)

/-- The loop stops in the month that the days fall into. -/
theorem monthGo_spec {lengths : List Nat} {days : Nat} (h : days < lengths.sum) (month : Nat) :
    ∃ k, ∃ hk : k < lengths.length, (monthGo lengths days month).1 = month + k ∧
      (monthGo lengths days month).2 < lengths[k] ∧
      (lengths.take k).sum + (monthGo lengths days month).2 = days := by
  induction lengths generalizing days month with
  | nil => exact absurd h (Nat.not_lt_zero _)
  | cons md rest ih =>
    rw [monthGo]
    by_cases hlt : days < md
    · rw [if_pos hlt]
      exact ⟨0, Nat.succ_pos _, rfl, hlt, Nat.zero_add _⟩
    · rw [if_neg hlt]
      rw [List.sum_cons] at h
      have hrest : days - md < rest.sum := by omega
      obtain ⟨k, hk, hmonth, hday, hsum⟩ := ih hrest (month + 1)
      refine ⟨k + 1, Nat.succ_lt_succ hk, by omega, hday, ?_⟩
      rw [List.take_succ_cons, List.sum_cons]
      omega

/-- The table is the lengths of the months. -/
theorem monthDays_eq (year : Nat) : monthDays year = (List.range' 1 12).map (monthLength year) := by
  unfold monthDays
  rw [isLeap_eq]
  by_cases hleap : IsLeap year
  · simp [hleap, List.range', monthLength]
  · simp [hleap, List.range', monthLength]

theorem sum_take_monthDays {k : Nat} (hk : k ≤ 12) (year : Nat) :
    ((monthDays year).take k).sum = daysBeforeMonth year (k + 1) := by
  rw [monthDays_eq, ← List.map_take, List.take_range'_of_length_ge hk]
  rfl

/-- **The date that is found** is one of the calendar, and the one of the day. -/
theorem exists_date (days : Nat) :
    ∃ date : Date, daysToYmd days = (date.year, date.month, date.day) ∧ 1970 ≤ date.year ∧
      date.dayNumber 1970 = days := by
  obtain ⟨hyear, hrest, hyears⟩ := yearGo_spec days 1970
  unfold daysToYmd
  generalize yearGo days 1970 = found at hyear hrest hyears
  obtain ⟨year, rest⟩ := found
  dsimp only at hyear hrest hyears
  have hsum : (monthDays year).sum = yearLength year := by
    rw [← sum_monthLength, ← List.take_length (l := monthDays year)]
    exact sum_take_monthDays le_rfl year
  have hlt : rest < (monthDays year).sum := by
    rw [hsum]
    exact hrest
  obtain ⟨k, hk, hmonth, hday, hmonths⟩ := monthGo_spec hlt 0
  rw [sum_take_monthDays (Nat.le_of_lt hk)] at hmonths
  have hlength : (monthDays year)[k] = monthLength year (k + 1) := by
    simp only [monthDays_eq, List.getElem_map, List.getElem_range', Nat.one_mul, Nat.add_comm 1]
  rw [hlength] at hday
  have hle : k + 1 ≤ 12 := hk
  refine ⟨⟨year, k + 1, (monthGo (monthDays year) rest 0).2 + 1, Nat.succ_pos _, hle, Nat.succ_pos _, hday⟩,
    ?_, hyear, ?_⟩
  · dsimp only
    rw [hmonth, Nat.zero_add]
  · rw [Date.dayNumber, Date.dayOfYear]
    dsimp only
    rw [Nat.add_sub_cancel, hmonths, hyears]

/-- The years that are counted are no more than the days allow. -/
theorem year_le {date : Date} (h : 1970 ≤ date.year) :
    date.year ≤ 1970 + date.dayNumber 1970 / 365 := by
  have hyears := le_daysBeforeYear 1970 date.year
  have hle : (date.year - 1970) * 365 ≤ date.dayNumber 1970 := hyears.trans (Nat.le_add_right _ _)
  omega

/-! ### The text -/

/-- `ms_to_iso` on the date and the seconds of the day. -/
theorem msToIso_eq {ms : Nat} {date : Date}
    (h : daysToYmd (ms / 1000 / 86400) = (date.year, date.month, date.day)) :
    msToIso ms = displayPad 4 date.year ++ '-' :: (displayPad 2 date.month ++ '-' ::
      (displayPad 2 date.day ++ 'T' :: (displayPad 2 (ms / 1000 / 3600 % 24) ++ ':' ::
        (displayPad 2 (ms / 1000 / 60 % 60) ++ ':' :: (displayPad 2 (ms / 1000 % 60) ++
          ".000000000Z".toList))))) := by
  rw [msToIso, h]

/-- Two numbers of one width and a separator: the numbers decide, then what follows. -/
theorem number_lt {w a b : Nat} {s t : Str} (ha : a < 10 ^ (w + 1)) (hb : b < 10 ^ (w + 1)) (c : Char)
    (h : a < b ∨ a = b ∧ s < t) : displayPad (w + 1) a ++ c :: s < displayPad (w + 1) b ++ c :: t :=
  displayPad_append_lt ha hb
    (h.imp_right (And.imp_right fun hst => List.cons_lt_cons_iff.mpr (Or.inr ⟨rfl, hst⟩)))

/-- A day that is no earlier is on a later date, or it is the same day. -/
theorem before_or_same_day {date date' : Date} (hepoch' : 1970 ≤ date'.year)
    (h : date.dayNumber 1970 ≤ date'.dayNumber 1970) :
    date.Before date' ∨ (date.year = date'.year ∧ date.month = date'.month ∧ date.day = date'.day) ∧
      date.dayNumber 1970 = date'.dayNumber 1970 := by
  rcases Date.before_trichotomy date date' with hbefore | ⟨hyear, hmonth, hday⟩ | hafter
  · exact Or.inl hbefore
  · refine Or.inr ⟨⟨hyear, hmonth, hday⟩, ?_⟩
    rw [Date.dayNumber, Date.dayNumber, Date.dayOfYear, Date.dayOfYear, hyear, hmonth, hday]
  · exact absurd (Date.dayNumber_lt hepoch' hafter) (Nat.not_lt.mpr h)

/-- **Later seconds** have later strings, as long as the years have four digits. -/
theorem msToIso_lt {ms ms' : Nat} (h : ms / 1000 < ms' / 1000)
    (hyear : (daysToYmd (ms' / 1000 / 86400)).1 ≤ 9999) : msToIso ms < msToIso ms' := by
  generalize hsecs : ms / 1000 = secs at h
  generalize hsecs' : ms' / 1000 = secs' at h hyear
  obtain ⟨date, hdate, hepoch, hnumber⟩ := exists_date (secs / 86400)
  obtain ⟨date', hdate', hepoch', hnumber'⟩ := exists_date (secs' / 86400)
  have hle : date.dayNumber 1970 ≤ date'.dayNumber 1970 := by
    rw [hnumber, hnumber']
    exact Nat.div_le_div_right h.le
  -- an earlier second is on an earlier day, or on the same one
  have horder := before_or_same_day hepoch' hle
  -- years of four digits, and the other fields of two, are compared as numbers
  have hyear' : date'.year < 10 ^ (3 + 1) := by
    rw [hdate'] at hyear
    exact Nat.lt_succ_of_le hyear
  have hyear : date.year < 10 ^ (3 + 1) := by
    rcases horder with (hlt | ⟨heq, -⟩) | ⟨⟨heq, -⟩, -⟩ <;> omega
  have hmonth : date.month < 10 ^ (1 + 1) := date.month_le.trans_lt (by decide)
  have hmonth' : date'.month < 10 ^ (1 + 1) := date'.month_le.trans_lt (by decide)
  have hday : date.day < 10 ^ (1 + 1) := (date.day_le.trans (monthLength_le _ _)).trans_lt (by decide)
  have hday' : date'.day < 10 ^ (1 + 1) := (date'.day_le.trans (monthLength_le _ _)).trans_lt (by decide)
  rw [msToIso_eq (hsecs ▸ hdate), msToIso_eq (hsecs' ▸ hdate'), hsecs, hsecs']
  rcases horder with (hlt | ⟨heq, hlt | ⟨heq', hlt⟩⟩) | ⟨⟨heq, heq', heq''⟩, hsame⟩
  · exact number_lt hyear hyear' '-' (Or.inl hlt)
  · exact number_lt hyear hyear' '-' (Or.inr ⟨heq, number_lt hmonth hmonth' '-' (Or.inl hlt)⟩)
  · exact number_lt hyear hyear' '-' (Or.inr ⟨heq, number_lt hmonth hmonth' '-' (Or.inr ⟨heq',
      number_lt hday hday' 'T' (Or.inl hlt)⟩)⟩)
  · -- within one day the hours, the minutes and the seconds decide
    rw [hnumber, hnumber'] at hsame
    refine number_lt hyear hyear' '-' (Or.inr ⟨heq, number_lt hmonth hmonth' '-' (Or.inr ⟨heq',
      number_lt hday hday' 'T' (Or.inr ⟨heq'', ?_⟩)⟩)⟩)
    have htime : secs / 3600 % 24 < secs' / 3600 % 24 ∨ secs / 3600 % 24 = secs' / 3600 % 24 ∧
        (secs / 60 % 60 < secs' / 60 % 60 ∨ secs / 60 % 60 = secs' / 60 % 60 ∧ secs % 60 < secs' % 60) := by
      omega
    have hhour (n : Nat) : n % 24 < 10 ^ (1 + 1) := (Nat.mod_lt n (by decide)).trans (by decide)
    have hsixty (n : Nat) : n % 60 < 10 ^ (1 + 1) := (Nat.mod_lt n (by decide)).trans (by decide)
    rcases htime with hlt | ⟨heq, hlt | ⟨heq', hlt⟩⟩
    · exact number_lt (hhour _) (hhour _) ':' (Or.inl hlt)
    · exact number_lt (hhour _) (hhour _) ':' (Or.inr ⟨heq, number_lt (hsixty _) (hsixty _) ':' (Or.inl hlt)⟩)
    · exact number_lt (hhour _) (hhour _) ':' (Or.inr ⟨heq, number_lt (hsixty _) (hsixty _) ':' (Or.inr ⟨heq',
        displayPad_append_lt (hsixty _) (hsixty _) (Or.inl hlt)⟩)⟩)

/-- **The date of a day** is a date of the calendar with as many days since 1970 began, in a year that 64 bits
hold where they hold the days; and within years of four digits the strings are in the order of the seconds. -/
theorem daysToYmd_spec :
    (∀ days : Nat, ∃ date : Date, daysToYmd days = (date.year, date.month, date.day) ∧ 1970 ≤ date.year ∧
      date.year ≤ 1970 + days / 365 ∧ date.dayNumber 1970 = days) ∧
    ∀ ms ms' : Nat, ms / 1000 < ms' / 1000 → (daysToYmd (ms' / 1000 / 86400)).1 ≤ 9999 →
      msToIso ms < msToIso ms' := by
  refine ⟨fun days => ?_, fun ms ms' h hyear => msToIso_lt h hyear⟩
  obtain ⟨date, hdate, hepoch, hnumber⟩ := exists_date days
  exact ⟨date, hdate, hepoch, hnumber ▸ year_le hepoch, hnumber⟩

end Reflex.App
