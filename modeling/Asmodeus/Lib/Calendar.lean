import Mathlib.Logic.Function.Iterate
import Mathlib.Order.Basic
import Mathlib.Tactic.SplitIfs

namespace Calendar

/-- The leap years of the Gregorian calendar. -/
def isLeap (year : Nat) : Bool := (year % 4 == 0 && year % 100 != 0) || year % 400 == 0

def yearLength (year : Nat) : Nat := if isLeap year then 366 else 365

def monthLength (year month : Nat) : Nat :=
  if month = 2 then if isLeap year then 29 else 28
  else if month = 4 ∨ month = 6 ∨ month = 9 ∨ month = 11 then 30
  else 31

/-- The leap years come round every 400 years. -/
theorem isLeap_cycle (year cycles : Nat) : isLeap (year + 400 * cycles) = isLeap year := by
  have hfour : (year + 400 * cycles) % 4 = year % 4 := by omega
  have hhundred : (year + 400 * cycles) % 100 = year % 100 := by omega
  have hcycle : (year + 400 * cycles) % 400 = year % 400 := by omega
  rw [isLeap, isLeap, hfour, hhundred, hcycle]

/-- A day of the Gregorian calendar. -/
@[ext] structure Date where
  year : Nat
  month : Nat
  day : Nat
  month_valid : 1 ≤ month ∧ month ≤ 12
  day_valid : 1 ≤ day ∧ day ≤ monthLength year month

theorem monthLength_pos (year month : Nat) : 1 ≤ monthLength year month := by
  unfold monthLength
  split_ifs <;> omega

/-- The day after. -/
def Date.next (d : Date) : Date :=
  if h : d.day < monthLength d.year d.month then
    ⟨d.year, d.month, d.day + 1, d.month_valid, Nat.le_add_left 1 d.day, h⟩
  else if h : d.month < 12 then
    ⟨d.year, d.month + 1, 1, ⟨Nat.le_add_left 1 d.month, h⟩, Nat.le_refl 1, monthLength_pos _ _⟩
  else ⟨d.year + 1, 1, 1, by decide, Nat.le_refl 1, monthLength_pos _ _⟩

def daysBeforeYear : Nat → Nat
  | 0 => 0
  | year + 1 => daysBeforeYear year + yearLength year

/-- The days of a year before the first of a month. -/
def daysBeforeMonth (year : Nat) : Nat → Nat
  | 0 | 1 => 0
  | month + 2 => daysBeforeMonth year (month + 1) + monthLength year (month + 1)

/-- The days from the first of January of the year 0. -/
def Date.ordinal (d : Date) : Nat := daysBeforeYear d.year + daysBeforeMonth d.year d.month + (d.day - 1)

theorem daysBeforeMonth_next (year : Nat) {month : Nat} (h : 1 ≤ month) :
    daysBeforeMonth year (month + 1) = daysBeforeMonth year month + monthLength year month := by
  cases month with
  | zero => omega
  | succ month => rfl

/-- The months make up the year. -/
theorem daysBeforeMonth_end (year : Nat) :
    daysBeforeMonth year 12 + monthLength year 12 = yearLength year := by
  simp only [daysBeforeMonth, monthLength, yearLength]
  cases isLeap year <;> rfl

theorem Date.ordinal_next (d : Date) : d.next.ordinal = d.ordinal + 1 := by
  have hday := d.day_valid
  have hmonth := d.month_valid
  unfold Date.next
  split_ifs with hshort hbefore
  · simp only [Date.ordinal]
    omega
  · simp only [Date.ordinal, daysBeforeMonth_next d.year hmonth.1]
    omega
  · have hlast : d.month = 12 := by omega
    have hend := daysBeforeMonth_end d.year
    rw [hlast] at hshort hday
    simp only [Date.ordinal, daysBeforeYear, hlast, daysBeforeMonth]
    simp only [daysBeforeMonth] at hend
    omega

theorem daysBeforeYear_mono {first second : Nat} (h : first ≤ second) :
    daysBeforeYear first ≤ daysBeforeYear second := by
  induction h with
  | refl => exact Nat.le_refl _
  | step _ ih => exact Nat.le_trans ih (Nat.le_add_right _ _)

theorem daysBeforeMonth_mono (year : Nat) {first second : Nat} (h : first ≤ second) :
    daysBeforeMonth year first ≤ daysBeforeMonth year second := by
  induction h with
  | refl => exact Nat.le_refl _
  | @step month _ ih =>
    refine Nat.le_trans ih ?_
    cases month with
    | zero => exact Nat.le_refl _
    | succ month => exact Nat.le_add_right _ _

theorem Date.day_in_year (d : Date) : daysBeforeMonth d.year d.month + (d.day - 1) < yearLength d.year := by
  have hday := d.day_valid
  have hmonth := d.month_valid
  have hnext := daysBeforeMonth_next d.year hmonth.1
  have hend : daysBeforeMonth d.year 13 = yearLength d.year := daysBeforeMonth_end d.year
  have hmono : daysBeforeMonth d.year (d.month + 1) ≤ daysBeforeMonth d.year 13 :=
    daysBeforeMonth_mono d.year (by omega)
  omega

/-- Two days of one ordinal are the same day. -/
theorem Date.ordinal_injective {d e : Date} (h : d.ordinal = e.ordinal) : d = e := by
  have hyear : d.year = e.year := by
    have hd := d.day_in_year
    have he := e.day_in_year
    simp only [Date.ordinal] at h
    by_contra hne
    obtain hlt | hlt := Nat.lt_or_gt_of_ne hne
    · have hmono : daysBeforeYear d.year + yearLength d.year ≤ daysBeforeYear e.year := daysBeforeYear_mono hlt
      omega
    · have hmono : daysBeforeYear e.year + yearLength e.year ≤ daysBeforeYear d.year := daysBeforeYear_mono hlt
      omega
  have hmonth : d.month = e.month := by
    have hd := d.day_valid
    have he := e.day_valid
    have hdnext := daysBeforeMonth_next d.year d.month_valid.1
    have henext := daysBeforeMonth_next e.year e.month_valid.1
    simp only [Date.ordinal, hyear] at h hdnext hd
    by_contra hne
    obtain hlt | hlt := Nat.lt_or_gt_of_ne hne
    · have hmono := daysBeforeMonth_mono e.year (show d.month + 1 ≤ e.month from hlt)
      omega
    · have hmono := daysBeforeMonth_mono e.year (show e.month + 1 ≤ d.month from hlt)
      omega
  have hday : d.day = e.day := by
    have hd := d.day_valid
    have he := e.day_valid
    simp only [Date.ordinal, hyear, hmonth] at h
    omega
  exact Date.ext hyear hmonth hday

/-- The leap days before a year. -/
theorem daysBeforeYear_eq (year : Nat) :
    daysBeforeYear year + (year + 99) / 100 = 365 * year + (year + 3) / 4 + (year + 399) / 400 := by
  induction year with
  | zero => rfl
  | succ year ih =>
    rw [daysBeforeYear, yearLength]
    by_cases hleap : isLeap year = true
    · rw [if_pos hleap]
      simp only [isLeap, Bool.or_eq_true, Bool.and_eq_true, beq_iff_eq, bne_iff_ne] at hleap
      omega
    · rw [if_neg hleap]
      simp only [isLeap, Bool.or_eq_true, Bool.and_eq_true, beq_iff_eq, bne_iff_ne] at hleap
      omega

/-- The days before the first of January of the year after. -/
theorem january_start (year : Nat) :
    daysBeforeYear (year + 1) + year / 100 = 365 * year + year / 4 + year / 400 + 366 := by
  have hyear := daysBeforeYear_eq (year + 1)
  omega

/-- The days before the first of March. -/
theorem march_start (year : Nat) :
    daysBeforeYear year + daysBeforeMonth year 3 + year / 100 = 365 * year + year / 4 + year / 400 + 60 := by
  have hyear := daysBeforeYear_eq year
  simp only [daysBeforeMonth, monthLength]
  by_cases hleap : isLeap year = true
  · simp only [hleap]
    simp only [isLeap, Bool.or_eq_true, Bool.and_eq_true, beq_iff_eq, bne_iff_ne] at hleap
    simp
    omega
  · simp only [hleap]
    simp only [isLeap, Bool.or_eq_true, Bool.and_eq_true, beq_iff_eq, bne_iff_ne] at hleap
    simp
    omega

/-- The day some days later. -/
def Date.after (d : Date) (days : Nat) : Date := Date.next^[days] d

theorem Date.after_succ (d : Date) (days : Nat) : d.after (days + 1) = (d.after days).next :=
  Function.iterate_succ_apply' Date.next days d

theorem Date.ordinal_after (d : Date) (days : Nat) : (d.after days).ordinal = d.ordinal + days := by
  induction days with
  | zero => rfl
  | succ days ih => rw [Date.after_succ, Date.ordinal_next, ih, Nat.add_assoc]

/-- A date is reached in as many days as its ordinal lies ahead. -/
theorem Date.eq_after {d e : Date} {days : Nat} (h : e.ordinal = d.ordinal + days) : e = d.after days :=
  Date.ordinal_injective (h.trans (d.ordinal_after days).symm)

end Calendar
