import Mathlib.Tactic.Basic

/-!
# The Civil Calendar

The proleptic Gregorian calendar.  Days are counted from 1 January of the year 1, which is day 0;
`civil` finds the date of a day, and `dayNumber` the day of a date.

- `civil_spec`: the date of a day exists in the calendar, and both agree.
-/

namespace CivilTime

/-- A date; months and days count from 1. -/
structure Date where
  year : Int
  month : Nat
  day : Nat
  deriving DecidableEq, Repr

/-- Does the year have 29 February? -/
def isLeap (year : Int) : Bool := year % 4 == 0 && (year % 100 != 0 || year % 400 == 0)

/-- The days of a common year before a month. -/
def daysBefore : Nat → Nat
  | 0 | 1 => 0
  | 2 => 31
  | 3 => 59
  | 4 => 90
  | 5 => 120
  | 6 => 151
  | 7 => 181
  | 8 => 212
  | 9 => 243
  | 10 => 273
  | 11 => 304
  | 12 => 334
  | _ => 365

/-- The days of a month, in a leap year or in a common one. -/
def daysInMonth (leap : Bool) (month : Nat) : Nat :=
  if leap ∧ month = 2 then 29 else daysBefore (month + 1) - daysBefore month

/-- Is there such a date? -/
def Date.Valid (date : Date) : Prop :=
  (1 ≤ date.month ∧ date.month ≤ 12) ∧
    (1 ≤ date.day ∧ date.day ≤ daysInMonth (isLeap date.year) date.month)

instance (date : Date) : Decidable date.Valid := inferInstanceAs (Decidable (_ ∧ _))

theorem daysInMonth_le (leap : Bool) : ∀ month ≤ 12, daysInMonth leap month ≤ 31 := by
  cases leap <;> decide

/-! ## From dates to days -/

/-- The days before 1 January of a year. -/
def daysBeforeYear (year : Int) : Int :=
  365 * (year - 1) + (year - 1) / 4 - (year - 1) / 100 + (year - 1) / 400

/-- The place of a day in its year, from 0. -/
def yearDay (leap : Bool) (month day : Nat) : Nat :=
  daysBefore month + (if leap ∧ 2 < month then 1 else 0) + (day - 1)

/-- The day of a date. -/
def dayNumber (date : Date) : Int :=
  daysBeforeYear date.year + yearDay (isLeap date.year) date.month date.day

/-! ## From days to dates -/

/-- The year of a day and its place in the year: cycles of 400, of 100 and of 4 years are cut off,
    then single years.  The last cycle of 100 years, and the last year of four, may be one day
    longer than the others. -/
def splitYear (d : Int) : Int × Int :=
  let n400 := d / 146097
  let d := d % 146097
  let n100 := d / 36524 - d / 36524 / 4
  let d := d - 36524 * n100
  let n4 := d / 1461
  let d := d - 1461 * n4
  let n := d / 365 - d / 365 / 4
  (400 * n400 + 100 * n100 + 4 * n4 + n + 1, d - 365 * n)

/-- Month and day in a common year: the month is guessed, and at most one too small. -/
def splitDay (yday : Nat) : Nat × Nat :=
  let month := yday / 31 + 1
  if daysBefore (month + 1) ≤ yday then (month + 1, yday - daysBefore (month + 1) + 1)
  else (month, yday - daysBefore month + 1)

/-- Month and day in any year. -/
def monthDay (leap : Bool) (yday : Nat) : Nat × Nat :=
  if leap then
    if yday = 59 then (2, 29) else splitDay (if 59 < yday then yday - 1 else yday)
  else splitDay yday

/-- The date of a day. -/
def civil (d : Int) : Date :=
  let (year, yday) := splitYear d
  let (month, day) := monthDay (isLeap year) yday.toNat
  ⟨year, month, day⟩

/-! ## Both agree -/

/-- Cutting a cycle of four into its parts: the last part may be one day longer than the others. -/
theorem quarter_spec {k r : Int} (hk : 0 < k) (h0 : 0 ≤ r) (h4 : r ≤ 4 * k) :
    0 ≤ r / k - r / k / 4 ∧ r / k - r / k / 4 ≤ 3 ∧ 0 ≤ r - k * (r / k - r / k / 4) ∧
      (r - k * (r / k - r / k / 4) < k ∨ r / k - r / k / 4 = 3 ∧ r = 4 * k) := by
  have hle : k * (r / k) ≤ r := Int.mul_ediv_self_le (by omega)
  have hlt : r < k * (r / k) + k := Int.lt_mul_ediv_self_add hk
  have hq0 : 0 ≤ r / k := Int.ediv_nonneg h0 (by omega)
  have hq4 : r / k ≤ 4 := Int.ediv_le_of_le_mul hk h4
  generalize r / k = q at *
  have hparts : q = 0 ∨ q = 1 ∨ q = 2 ∨ q = 3 ∨ q = 4 := by omega
  -- the fourth part takes the day that is left over
  rcases hparts with rfl | rfl | rfl | rfl | rfl <;> omega

/-- The year that has been split off has as many days before it as are missing. -/
theorem splitYear_spec (d : Int) :
    daysBeforeYear (splitYear d).1 + (splitYear d).2 = d ∧ 0 ≤ (splitYear d).2 ∧
      ((splitYear d).2 < 365 ∨ (splitYear d).2 = 365 ∧ isLeap (splitYear d).1 = true) := by
  simp only [splitYear]
  -- what is left of the day after each cut, and how often the cycle went in
  have hd : 146097 * (d / 146097) + d % 146097 = d := Int.mul_ediv_add_emod d 146097
  have hr : 0 ≤ d % 146097 ∧ d % 146097 < 146097 := by omega
  generalize d / 146097 = a at *
  generalize d % 146097 = r at *
  have hb := quarter_spec (by decide : (0 : Int) < 36524) hr.1 (by omega)
  generalize r / 36524 - r / 36524 / 4 = b at *
  have hu : r = 36524 * b + (r - 36524 * b) := by omega
  generalize r - 36524 * b = u at *
  have hc : 0 ≤ u / 1461 ∧ u / 1461 ≤ 24 ∧ 0 ≤ u - 1461 * (u / 1461) ∧
      u - 1461 * (u / 1461) < 1461 := by omega
  generalize u / 1461 = c at *
  have hv : u = 1461 * c + (u - 1461 * c) := by omega
  generalize u - 1461 * c = v at *
  have he := quarter_spec (by decide : (0 : Int) < 365) hc.2.2.1 (by omega)
  generalize v / 365 - v / 365 / 4 = e at *
  have hcycles : (400 * a + 100 * b + 4 * c + e) / 4 = 100 * a + 25 * b + c ∧
      (400 * a + 100 * b + 4 * c + e) / 100 = 4 * a + b ∧
      (400 * a + 100 * b + 4 * c + e) / 400 = a := by omega
  refine ⟨?_, by omega, ?_⟩
  · simp only [daysBeforeYear, Int.add_sub_cancel, hcycles]
    omega
  · rcases he.2.2.2 with hlt | ⟨h3, hlast⟩
    · exact .inl hlt
    · -- the last of four years, and not the last of a hundred unless of four hundred
      refine .inr ⟨by omega, ?_⟩
      simp only [isLeap, Bool.and_eq_true, Bool.or_eq_true, beq_iff_eq, bne_iff_ne]
      omega

/-- The same for the days of a year, of which there are few. -/
theorem monthDay_spec (leap : Bool) : ∀ yday < 366, (yday < 365 ∨ leap = true) →
    (1 ≤ (monthDay leap yday).1 ∧ (monthDay leap yday).1 ≤ 12) ∧
    (1 ≤ (monthDay leap yday).2 ∧
      (monthDay leap yday).2 ≤ daysInMonth leap (monthDay leap yday).1) ∧
    yearDay leap (monthDay leap yday).1 (monthDay leap yday).2 = yday := by
  cases leap <;> decide +kernel

/-- **The date of a day** is one of the calendar, and its day is that day. -/
theorem civil_spec (d : Int) : (civil d).Valid ∧ dayNumber (civil d) = d := by
  obtain ⟨hdays, hnonneg, hlast⟩ := splitYear_spec d
  obtain ⟨hmonth, hday, hyday⟩ :=
    monthDay_spec (isLeap (splitYear d).1) (splitYear d).2.toNat (by omega) (by
      rcases hlast with hlt | ⟨-, hleap⟩
      · left
        omega
      · exact .inr hleap)
  refine ⟨⟨hmonth, hday⟩, ?_⟩
  simp only [dayNumber, civil, hyday]
  omega

example : civil 738944 = ⟨2024, 2, 29⟩ := by decide +kernel

end CivilTime
