import Mathlib.Algebra.BigOperators.Intervals
import Mathlib.Tactic.IntervalCases
import PercentFormat.Calendar

/-! Dates and day counts. The date of the next day is the next date of the calendar, so a date stands
behind as many days as its years and months have. The closed form is taken apart into centuries,
groups of four years, and years that start in March. -/

namespace PercentFormat

/-- The leap years of the Gregorian calendar. -/
def IsLeapYear (year : Nat) : Prop := 4 ∣ year ∧ (¬ 100 ∣ year ∨ 400 ∣ year)

instance (year : Nat) : Decidable (IsLeapYear year) :=
  inferInstanceAs (Decidable (4 ∣ year ∧ (¬ 100 ∣ year ∨ 400 ∣ year)))

def daysOfYear (year : Nat) : Nat := if IsLeapYear year then 366 else 365

/-- The days of a month, January being one. Nothing is claimed of other numbers than those of months. -/
def daysOfMonth (year : Nat) : Nat → Nat
  | 2 => if IsLeapYear year then 29 else 28
  | 4 | 6 | 9 | 11 => 30
  | _ => 31

private theorem daysOfYear_cases (year : Nat) :
    IsLeapYear year ∧ daysOfYear year = 366 ∨ ¬ IsLeapYear year ∧ daysOfYear year = 365 := by
  by_cases h : IsLeapYear year <;> simp [daysOfYear, h]

private theorem daysOfYear_pos (year : Nat) : 0 < daysOfYear year := by
  rcases daysOfYear_cases year with ⟨-, h⟩ | ⟨-, h⟩ <;> omega

private theorem daysOfYear_le (year : Nat) : daysOfYear year ≤ 366 := by
  rcases daysOfYear_cases year with ⟨-, h⟩ | ⟨-, h⟩ <;> omega

private theorem sum_daysOfMonth (year : Nat) :
    ∑ month ∈ Finset.Ico 1 13, daysOfMonth year month = daysOfYear year := by
  by_cases h : IsLeapYear year <;> simp [Finset.sum_Ico_succ_top, daysOfMonth, daysOfYear, h]

namespace Date

/-- The month and the day are those of a date. -/
structure Valid (d : Date) : Prop where
  month : 1 ≤ d.month ∧ d.month ≤ 12
  day : 1 ≤ d.day ∧ d.day ≤ daysOfMonth d.year d.month

/-- The days from the first of January 1970 to a date that is not earlier. -/
def dayNumber (d : Date) : Nat :=
  ∑ year ∈ Finset.Ico 1970 d.year, daysOfYear year +
    ∑ month ∈ Finset.Ico 1 d.month, daysOfMonth d.year month + (d.day - 1)

/-- The next date of the calendar. -/
def next (d : Date) : Date :=
  if d.day < daysOfMonth d.year d.month then { d with day := d.day + 1 }
  else if d.month < 12 then ⟨d.year, d.month + 1, 1⟩
  else ⟨d.year + 1, 1, 1⟩

section
variable {d : Date}

theorem next_cases (h : d.Valid) :
    d.day < daysOfMonth d.year d.month ∧ d.next = ⟨d.year, d.month, d.day + 1⟩ ∨
    d.day = daysOfMonth d.year d.month ∧ d.month < 12 ∧ d.next = ⟨d.year, d.month + 1, 1⟩ ∨
    d.day = daysOfMonth d.year d.month ∧ d.month = 12 ∧ d.next = ⟨d.year + 1, 1, 1⟩ := by
  obtain ⟨⟨-, hmonth⟩, -, hday⟩ := h
  by_cases hlast : d.day < daysOfMonth d.year d.month
  · exact .inl ⟨hlast, if_pos hlast⟩
  · have hfull : d.day = daysOfMonth d.year d.month := by omega
    by_cases hyear : d.month < 12
    · exact .inr (.inl ⟨hfull, hyear, by rw [next, if_neg hlast, if_pos hyear]⟩)
    · exact .inr (.inr ⟨hfull, by omega, by rw [next, if_neg hlast, if_neg hyear]⟩)

private theorem daysOfMonth_pos (year month : Nat) : 1 ≤ daysOfMonth year month := by
  unfold daysOfMonth
  repeat' split
  all_goals decide

theorem Valid.next (h : d.Valid) : d.next.Valid := by
  obtain ⟨hmonth, hday⟩ := h
  rcases next_cases ⟨hmonth, hday⟩ with ⟨hlast, heq⟩ | ⟨-, hyear, heq⟩ | ⟨-, -, heq⟩
  · rw [heq]
    exact ⟨hmonth, Nat.le_add_left .., hlast⟩
  · rw [heq]
    exact ⟨⟨Nat.le_add_left .., hyear⟩, Nat.le_refl _, daysOfMonth_pos ..⟩
  · rw [heq]
    exact ⟨⟨Nat.le_refl 1, Nat.le_add_left 1 11⟩, Nat.le_refl _, daysOfMonth_pos ..⟩

/-- The next date stands behind one more day. -/
theorem dayNumber_next (h : d.Valid) (hyear : 1970 ≤ d.year) :
    d.next.dayNumber = d.dayNumber + 1 := by
  have hday := h.day.1
  rcases next_cases h with ⟨-, heq⟩ | ⟨hlast, -, heq⟩ | ⟨hlast, hmonth, heq⟩
  · rw [heq]
    simp only [dayNumber]
    omega
  · rw [heq]
    simp only [dayNumber, Finset.sum_Ico_succ_top h.month.1]
    omega
  · have hmonths := sum_daysOfMonth d.year
    rw [Finset.sum_Ico_succ_top (by decide), ← hmonth] at hmonths
    rw [heq]
    simp only [dayNumber, Finset.sum_Ico_succ_top hyear, Finset.Ico_self, Finset.sum_empty]
    omega

theorem year_le_next (d : Date) : d.year ≤ d.next.year := by
  unfold next
  repeat' split
  all_goals simp

end

/-- The days from March of the year zero to March of a year. -/
def daysToMarch (year : Nat) : Nat := 365 * year + year / 4 - year / 100 + year / 400

/-- From March to March there is the February of the next year. -/
theorem daysToMarch_succ (year : Nat) :
    daysToMarch (year + 1) = daysToMarch year + daysOfYear (year + 1) := by
  have hfewer : year / 100 ≤ 365 * year := by omega
  rw [daysToMarch, daysToMarch, daysOfYear, Nat.succ_div, Nat.succ_div, Nat.succ_div]
  by_cases h4 : 4 ∣ year + 1
  · by_cases h100 : 100 ∣ year + 1
    · by_cases h400 : 400 ∣ year + 1
      · have hleap : IsLeapYear (year + 1) := ⟨h4, .inr h400⟩
        rw [if_pos h4, if_pos h100, if_pos h400, if_pos hleap]
        omega
      · have hleap : ¬ IsLeapYear (year + 1) := fun h => h.2.elim (· h100) h400
        rw [if_pos h4, if_pos h100, if_neg h400, if_neg hleap]
        omega
    · have h400 : ¬ 400 ∣ year + 1 := mt (Nat.dvd_trans (by decide)) h100
      have hleap : IsLeapYear (year + 1) := ⟨h4, .inl h100⟩
      rw [if_pos h4, if_neg h100, if_neg h400, if_pos hleap]
      omega
  · have h100 : ¬ 100 ∣ year + 1 := mt (Nat.dvd_trans (by decide)) h4
    have h400 : ¬ 400 ∣ year + 1 := mt (Nat.dvd_trans (by decide)) h4
    have hleap : ¬ IsLeapYear (year + 1) := fun h => h4 h.1
    rw [if_neg h4, if_neg h100, if_neg h400, if_neg hleap]
    omega

theorem exists_daysToMarch (n : Nat) :
    ∃ year day, day < daysOfYear (year + 1) ∧ n = daysToMarch year + day := by
  induction n with
  | zero => exact ⟨0, 0, by decide, rfl⟩
  | succ n ih =>
    obtain ⟨year, day, hday, rfl⟩ := ih
    by_cases hlast : day + 1 < daysOfYear (year + 1)
    · exact ⟨year, day + 1, hlast, Nat.add_assoc ..⟩
    · refine ⟨year + 1, 0, daysOfYear_pos _, ?_⟩
      rw [daysToMarch_succ]
      omega

/-- A day of a cycle by its century, its group of four years, its year and its day, all from zero. -/
structure CycleDay where
  century : Nat
  group : Nat
  year : Nat
  day : Nat
  century_le : century ≤ 3
  group_le : group ≤ 24
  year_le : year ≤ 3
  day_le : day ≤ 365
  /-- Only the last year of a group has a day 365, and not in the last group of a century, except in
  the last century. -/
  leap : day = 365 → year = 3 ∧ (group = 24 → century = 3)

namespace CycleDay

def dayOfCycle (p : CycleDay) : Nat := 36524 * p.century + 1461 * p.group + 365 * p.year + p.day

def yearOfCycle (p : CycleDay) : Nat := 100 * p.century + 4 * p.group + p.year

private theorem dayOfCycle_lt (p : CycleDay) : p.dayOfCycle < daysOfCycle := by
  obtain ⟨c, g, y, d, hc, hg, hy, hd, -⟩ := p
  simp only [dayOfCycle, daysOfCycle]
  omega

private theorem yearOfCycle_lt (p : CycleDay) : p.yearOfCycle < 400 := by
  obtain ⟨c, g, y, d, hc, hg, hy, -, -⟩ := p
  simp only [yearOfCycle]
  omega

end CycleDay

theorem yearOfCycle_dayOfCycle (p : CycleDay) : yearOfCycle p.dayOfCycle = p.yearOfCycle := by
  obtain ⟨c, g, y, d, hc, hg, hy, hd, hleap⟩ := p
  simp only [CycleDay.dayOfCycle, CycleDay.yearOfCycle]
  by_cases hcentury : 1461 * g + 365 * y + d < 36524
  · replace hleap := fun h => (hleap h).1
    have h100 : (36524 * c + 1461 * g + 365 * y + d) / 36524 = c := by omega
    have h400 : (36524 * c + 1461 * g + 365 * y + d) / 146096 = 0 := by omega
    -- one day is taken for each leap year, and for the current one before its day 365
    obtain ⟨taken, h4, htaken⟩ : ∃ taken,
        (36524 * c + 1461 * g + 365 * y + d) / 1460 = 25 * c + g + taken ∧
          taken ≤ d ∧ d < taken + 365 :=
      ⟨(24 * c + g + 365 * y + d) / 1460, by omega⟩
    rw [yearOfCycle, h4, h100, h400]
    omega
  · -- only the last day of the cycle is left
    obtain ⟨rfl, rfl⟩ : g = 24 ∧ d = 365 := by omega
    obtain ⟨rfl, hc⟩ := hleap rfl
    obtain rfl := hc rfl
    rfl

theorem dayOfYear_dayOfCycle (p : CycleDay) : dayOfYear p.dayOfCycle = p.day := by
  simp only [dayOfYear, yearOfCycle_dayOfCycle]
  obtain ⟨c, g, y, d, hc, hg, hy, -, -⟩ := p
  simp only [CycleDay.dayOfCycle, CycleDay.yearOfCycle]
  omega

/-- Every day of every year has its place in a cycle. -/
theorem exists_cycleDay {year day : Nat} (hday : day < daysOfYear (year + 1)) :
    ∃ (cycle : Nat) (p : CycleDay), p.day = day ∧ year = p.yearOfCycle + cycle * 400 ∧
      daysToMarch year + day = daysOfCycle * cycle + p.dayOfCycle := by
  obtain ⟨cycle, c, g, y, hc, hg, hy, rfl⟩ : ∃ cycle c g y, c ≤ 3 ∧ g ≤ 24 ∧ y ≤ 3 ∧
      year = 100 * c + 4 * g + y + cycle * 400 :=
    ⟨year / 400, year % 400 / 100, year % 100 / 4, year % 4, by omega⟩
  have hleap : day = 365 → y = 3 ∧ (g = 24 → c = 3) := by
    rintro rfl
    rcases daysOfYear_cases (100 * c + 4 * g + y + cycle * 400 + 1) with ⟨h, -⟩ | ⟨-, h⟩
    · unfold IsLeapYear at h
      omega
    · omega
  have hle : day ≤ 365 := Nat.le_of_lt_succ (Nat.lt_of_lt_of_le hday (daysOfYear_le _))
  refine ⟨cycle, ⟨c, g, y, day, hc, hg, hy, hle, hleap⟩, rfl, rfl, ?_⟩
  simp only [daysToMarch, daysOfCycle, CycleDay.dayOfCycle]
  omega

/-- The date of a day of a year that starts in March. -/
def ofMarch (year dayOfYear : Nat) : Date :=
  let fromMarch := monthOfYear dayOfYear
  let month := if fromMarch < 10 then fromMarch + 3 else fromMarch - 9
  { year := year + if month ≤ 2 then 1 else 0
    month
    day := dayOfYear - (153 * fromMarch + 2) / 5 + 1 }

theorem ofDays_place {days year day : Nat} (hday : day < daysOfYear (year + 1))
    (hdays : days + 719468 = daysToMarch year + day) :
    ∃ p : CycleDay, p.day = day ∧ (days + 719468) % daysOfCycle = p.dayOfCycle ∧
      year = p.yearOfCycle + (days + 719468) / daysOfCycle * 400 := by
  obtain ⟨cycle, p, hp, rfl, hplace⟩ := exists_cycleDay hday
  refine ⟨p, hp, ?_, ?_⟩
  · rw [hdays, hplace, Nat.mul_add_mod, Nat.mod_eq_of_lt p.dayOfCycle_lt]
  · rw [hdays, hplace, Nat.mul_add_div (by decide), Nat.div_eq_of_lt p.dayOfCycle_lt, Nat.add_zero]

/-- The closed form finds the year and its day. -/
theorem ofDays_eq_ofMarch {days year day : Nat} (hday : day < daysOfYear (year + 1))
    (hdays : days + 719468 = daysToMarch year + day) : ofDays days = ofMarch year day := by
  obtain ⟨p, rfl, hmod, hyear⟩ := ofDays_place hday hdays
  simp only [ofDays, hmod, dayOfYear_dayOfCycle, yearOfCycle_dayOfCycle, ofMarch, hyear]

theorem monthOfYear_eq_iff {day k : Nat} :
    monthOfYear day = k ↔ (153 * k + 2) / 5 ≤ day ∧ day < (153 * (k + 1) + 2) / 5 := by
  unfold monthOfYear
  omega

/-- January and February are the last months from March on, and belong to the next year. -/
theorem ofMarch_eq (year : Nat) {day k : Nat} (hk : monthOfYear day = k) (hlast : k ≤ 11) :
    ofMarch year day = ⟨if k < 10 then year else year + 1, if k < 10 then k + 3 else k - 9,
      day - (153 * k + 2) / 5 + 1⟩ := by
  simp only [ofMarch, hk, Date.mk.injEq, and_true]
  split <;> split <;> omega

/-- The lengths of the months from March on. The last one takes what is left of the year. -/
theorem daysOfMonth_fromMarch (year : Nat) {k : Nat} (hk : k ≤ 11) :
    daysOfMonth (if k < 10 then year else year + 1) (if k < 10 then k + 3 else k - 9) =
      min ((153 * (k + 1) + 2) / 5) (daysOfYear (year + 1)) - (153 * k + 2) / 5 := by
  rcases daysOfYear_cases (year + 1) with ⟨hleap, hd⟩ | ⟨hleap, hd⟩ <;> rw [hd] <;>
    interval_cases k <;> simp [daysOfMonth, hleap]

/-- Within a year from March on, the date of the next day is the next date. -/
theorem ofMarch_succ {year day : Nat} (h : day + 1 < daysOfYear (year + 1)) :
    ofMarch year (day + 1) = (ofMarch year day).next := by
  have hyear := daysOfYear_le (year + 1)
  obtain ⟨k, hk⟩ : ∃ k, monthOfYear day = k := ⟨_, rfl⟩
  obtain ⟨hfirst, hlast⟩ := monthOfYear_eq_iff.mp hk
  rw [ofMarch_eq year hk (by omega), next]
  simp only [daysOfMonth_fromMarch year (show k ≤ 11 by omega)]
  by_cases hmonth : day + 1 < (153 * (k + 1) + 2) / 5
  · rw [if_pos (by omega), ofMarch_eq year (monthOfYear_eq_iff.mpr ⟨by omega, hmonth⟩) (by omega)]
    congr 1
    omega
  · -- the first day of a month
    have hnext : monthOfYear (day + 1) = k + 1 := monthOfYear_eq_iff.mpr (by omega)
    have hone : day + 1 - (153 * (k + 1) + 2) / 5 + 1 = 1 := by omega
    rw [if_neg (by omega), ofMarch_eq year hnext (by omega), hone]
    obtain hk | rfl | rfl : k < 9 ∨ k = 9 ∨ k = 10 := by omega
    · have hsame : k < 10 := by omega
      have hlater : k + 1 < 10 := by omega
      simp only [hsame, hlater, if_true]
      rw [if_pos (by omega)]
    · rfl
    · rfl

/-- The year that starts in March follows the last of February. -/
theorem ofMarch_last {year day : Nat} (h : day + 1 = daysOfYear (year + 1)) :
    ofMarch (year + 1) 0 = (ofMarch year day).next := by
  have hk : monthOfYear day = 11 := by
    rw [monthOfYear_eq_iff]
    rcases daysOfYear_cases (year + 1) with ⟨-, hd⟩ | ⟨-, hd⟩ <;> omega
  rw [ofMarch_eq year hk (Nat.le_refl _), next]
  simp only [daysOfMonth_fromMarch year (Nat.le_refl 11)]
  rw [if_neg (by omega)]
  rfl

/-- From one day to the next, the date moves as the calendar does. -/
theorem ofDays_succ (days : Nat) : ofDays (days + 1) = (ofDays days).next := by
  obtain ⟨year, day, hday, hdays⟩ := exists_daysToMarch (days + 719468)
  rw [ofDays_eq_ofMarch hday hdays]
  by_cases hlast : day + 1 < daysOfYear (year + 1)
  · rw [← ofMarch_succ hlast]
    exact ofDays_eq_ofMarch hlast (by omega)
  · rw [← ofMarch_last (by omega)]
    refine ofDays_eq_ofMarch (daysOfYear_pos _) ?_
    rw [daysToMarch_succ]
    omega

/-- All days: the date is one of the calendar, and stands behind as many days as were asked for. -/
theorem ofDays_dayNumber (days : Nat) :
    (ofDays days).Valid ∧ 1970 ≤ (ofDays days).year ∧ (ofDays days).dayNumber = days := by
  induction days with
  | zero => exact ⟨⟨by decide, by decide⟩, by decide, by decide⟩
  | succ days ih =>
    obtain ⟨hvalid, hyear, hnumber⟩ := ih
    rw [ofDays_succ]
    refine ⟨hvalid.next, Nat.le_trans hyear (year_le_next _), ?_⟩
    rw [dayNumber_next hvalid hyear, hnumber]

end Date

private theorem bind_of_eq_some {α β : Type} {x : Option α} {a : α} (h : x = some a) (f : α → Option β) :
    (x >>= f) = f a := by
  rw [h]
  rfl

namespace Date

/-- Nothing that is computed from a day of a cycle comes near to what 64 bits can hold. -/
private theorem le_maxSize {n : Nat} (h : n ≤ 1000000) : n ≤ maxSize := Nat.le_trans h (by decide)

section
variable (p : CycleDay)

theorem yearOfCycle?_dayOfCycle : yearOfCycle? p.dayOfCycle = some p.yearOfCycle := by
  have hlt := p.dayOfCycle_lt
  rw [← yearOfCycle_dayOfCycle]
  unfold daysOfCycle at hlt
  rw [yearOfCycle?, bind_of_eq_some (difference?_of_le (by omega)),
    bind_of_eq_some (sized?_of_le (le_maxSize (by omega))),
    bind_of_eq_some (difference?_of_le (by omega))]
  rfl

theorem dayOfYear?_dayOfCycle : dayOfYear? p.dayOfCycle p.yearOfCycle = some p.day := by
  obtain ⟨c, g, y, d, hc, hg, hy, -, -⟩ := p
  simp only [CycleDay.dayOfCycle, CycleDay.yearOfCycle]
  rw [dayOfYear?, bind_of_eq_some (sized?_of_le (le_maxSize (by omega))),
    bind_of_eq_some (sized?_of_le (le_maxSize (by omega))),
    bind_of_eq_some (difference?_of_le (by omega)), difference?_of_le (by omega), Option.some.injEq]
  omega

theorem monthOfYear?_day : monthOfYear? p.day = some (monthOfYear p.day) := by
  have hday := p.day_le
  rw [monthOfYear?, bind_of_eq_some (sized?_of_le (le_maxSize (by omega))),
    bind_of_eq_some (sized?_of_le (le_maxSize (by omega)))]
  rfl

private theorem monthOfYear_day_le : monthOfYear p.day ≤ 11 := by
  have hday := p.day_le
  unfold monthOfYear
  omega

theorem dayOfMonth?_day :
    dayOfMonth? p.day (monthOfYear p.day) =
      some (p.day - (153 * monthOfYear p.day + 2) / 5 + 1) := by
  have hday := p.day_le
  have hmonth := monthOfYear_day_le p
  obtain ⟨hfirst, -⟩ := monthOfYear_eq_iff.mp (rfl : monthOfYear p.day = _)
  rw [dayOfMonth?, bind_of_eq_some (sized?_of_le (le_maxSize (by omega))),
    bind_of_eq_some (sized?_of_le (le_maxSize (by omega))),
    bind_of_eq_some (difference?_of_le hfirst), sized?_of_le (le_maxSize (by omega))]

theorem monthNumber?_monthOfYear :
    monthNumber? (monthOfYear p.day) =
      some (if monthOfYear p.day < 10 then monthOfYear p.day + 3 else monthOfYear p.day - 9) := by
  have hmonth := monthOfYear_day_le p
  unfold monthNumber?
  split
  · exact sized?_of_le (le_maxSize (by omega))
  · exact difference?_of_le (by omega)

end

/-- Only the first step can leave 64 bits: it adds the days before 1970. -/
theorem ofDays?_eq {days : Nat} (h : days + 719468 ≤ maxSize) :
    ofDays? days = some (ofDays days) := by
  obtain ⟨year, day, hday, hdays⟩ := exists_daysToMarch (days + 719468)
  obtain ⟨p, rfl, hmod, rfl⟩ := ofDays_place hday hdays
  have hyear : p.yearOfCycle + (days + 719468) / daysOfCycle * 400 + 1 ≤ maxSize := by
    have hlt := p.yearOfCycle_lt
    unfold daysOfCycle
    omega
  rw [ofDays_eq_ofMarch hday hdays, ofDays?, bind_of_eq_some (sized?_of_le h), hmod,
    bind_of_eq_some (yearOfCycle?_dayOfCycle p), bind_of_eq_some (dayOfYear?_dayOfCycle p),
    bind_of_eq_some (monthOfYear?_day p), bind_of_eq_some (dayOfMonth?_day p),
    bind_of_eq_some (monthNumber?_monthOfYear p), bind_of_eq_some (sized?_of_le (by omega)),
    bind_of_eq_some (sized?_of_le (by omega)),
    bind_of_eq_some (sized?_of_le (by split <;> split <;> omega))]
  rfl

/-- The date of a day is a date of the Gregorian calendar, and the years, months and days from 1970 to
it add up to the day. For every day that 64 bits of seconds can reach, it is computed within 64 bits.
So dates start with the first of January 1970, and go on as the calendar does. -/
theorem ofDays_follows_calendar (days : Nat) (h : days ≤ maxSize / 86400) :
    ofDays? days = some (ofDays days) ∧
    (ofDays days).Valid ∧ 1970 ≤ (ofDays days).year ∧ (ofDays days).dayNumber = days ∧
    ofDays 0 = ⟨1970, 1, 1⟩ ∧ ofDays (days + 1) = (ofDays days).next := by
  obtain ⟨hvalid, hyear, hnumber⟩ := ofDays_dayNumber days
  have hroom : maxSize / 86400 + 719468 ≤ maxSize := by decide
  exact ⟨ofDays?_eq (Nat.le_trans (Nat.add_le_add_right h _) hroom), hvalid, hyear, hnumber, rfl,
    ofDays_succ days⟩

/-- The last day that 64 bits of seconds can reach, and a leap day at the end of a century. -/
theorem ofDays_follows_calendar_extremes :
    213503982334601 = maxSize / 86400 ∧
    ofDays? 213503982334601 = some ⟨584554051223, 11, 9⟩ ∧
    dayNumber ⟨584554051223, 11, 9⟩ = 213503982334601 ∧
    ofDays? 11016 = some ⟨2000, 2, 29⟩ ∧ ofDays 11017 = next ⟨2000, 2, 29⟩ := by
  have hlast : ofDays 213503982334601 = ⟨584554051223, 11, 9⟩ := by decide +kernel
  have hleap : ofDays 11016 = ⟨2000, 2, 29⟩ := by decide +kernel
  obtain ⟨hlast?, -, -, hnumber, -⟩ := ofDays_follows_calendar 213503982334601 (by decide)
  obtain ⟨hleap?, -, -, -, -, hnext⟩ := ofDays_follows_calendar 11016 (by decide)
  rw [hlast] at hlast? hnumber
  rw [hleap] at hleap? hnext
  exact ⟨by decide, hlast?, hnumber, hleap?, hnext⟩

end Date

end PercentFormat
