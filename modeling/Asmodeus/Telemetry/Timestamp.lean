import Asmodeus.Lib.Calendar
import Mathlib.Tactic.IntervalCases

open Calendar

namespace asmodeus.telemetry

/-- A number in at least `width` digits. -/
def zero_padded (width n : Nat) : String :=
  String.ofList (List.replicate (width - (Nat.toDigits 10 n).length) '0' ++ Nat.toDigits 10 n)

/-- A signed number in at least `width` characters, its sign among them. -/
def zero_padded_int (width : Nat) (n : Int) : String :=
  if n < 0 then "-" ++ zero_padded (width - 1) n.natAbs else zero_padded width n.natAbs

/-- The year of a cycle of 400 years that starts in March. -/
def year_of_era (doe : Nat) : Nat := (doe - doe / 1460 + doe / 36524 - doe / 146096) / 365

def day_of_year (doe yoe : Nat) : Nat := doe - (365 * yoe + yoe / 4 - yoe / 100)

/-- The month and the day of a year that starts in March. -/
def month_and_day (doy : Nat) : Nat × Nat :=
  let mp := (5 * doy + 2) / 153
  let d := doy - (153 * mp + 2) / 5 + 1
  (if mp < 10 then mp + 3 else mp - 9, d)

/-- The date `format_civil_timestamp` prints. The casts are `as i64` and `as u32`. -/
def civil_date (days : Nat) : Int × Nat × Nat :=
  let z := (days : Int).bmod (2 ^ 64) + 719468
  let era := (if 0 ≤ z then z else z - 146096).tdiv 146097
  let doe := ((z - era * 146097) % 2 ^ 32).toNat
  let yoe := year_of_era doe
  let y := (yoe : Int) + era * 400
  let doy := day_of_year doe yoe
  let (m, d) := month_and_day doy
  (if m ≤ 2 then y + 1 else y, m, d)

def format_civil_timestamp (secs : UInt64) (millis : UInt32) : String :=
  let days := secs.toNat / 86400
  let day_secs := secs.toNat % 86400
  let hours := day_secs / 3600
  let minutes := day_secs % 3600 / 60
  let seconds := day_secs % 60
  let (year, m, d) := civil_date days
  zero_padded_int 4 year ++ "-" ++ zero_padded 2 m ++ "-" ++ zero_padded 2 d ++ "T" ++
    zero_padded 2 hours ++ ":" ++ zero_padded 2 minutes ++ ":" ++ zero_padded 2 seconds ++
    "." ++ zero_padded 3 millis.toNat ++ "Z"

def is_leap_year (year : Nat) : Bool := (year % 4 == 0 && !(year % 100 == 0)) || year % 400 == 0

def days_in_year (year : Nat) : Nat := if is_leap_year year then 366 else 365

theorem days_in_year_pos (year : Nat) : 0 < days_in_year year := by
  unfold days_in_year
  split <;> decide

/-- The loop over the years: the days left in the year it stops at. -/
def year_loop (d year : Nat) : Nat × Nat :=
  if d < days_in_year year then (d, year) else year_loop (d - days_in_year year) (year + 1)
termination_by d
decreasing_by
  have hpos := days_in_year_pos year
  omega

def days_in_months (leap : Bool) : List Nat :=
  [31, if leap then 29 else 28, 31, 30, 31, 30, 31, 31, 30, 31, 30, 31]

/-- The loop over the months: the days left in the month it stops at. -/
def month_loop : List Nat → Nat → Nat → Nat × Nat
  | [], d, month => (d, month)
  | dim :: rest, d, month => if d < dim then (d, month) else month_loop rest (d - dim) (month + 1)

def days_to_ymd (days_since_epoch : Nat) : Nat × Nat × Nat :=
  let (d, year) := year_loop days_since_epoch 1970
  let (d, month) := month_loop (days_in_months (is_leap_year year)) d 1
  (year, month, d + 1)

/-- The timestamp of a reading of the clock. -/
def chrono_free_timestamp (total_secs : UInt64) : String :=
  let days := total_secs.toNat / 86400
  let rem_secs := total_secs.toNat % 86400
  let hours := rem_secs / 3600
  let minutes := rem_secs % 3600 / 60
  let seconds := rem_secs % 60
  let (year, month, day) := days_to_ymd days
  zero_padded 4 year ++ "-" ++ zero_padded 2 month ++ "-" ++ zero_padded 2 day ++ "T" ++
    zero_padded 2 hours ++ ":" ++ zero_padded 2 minutes ++ ":" ++ zero_padded 2 seconds ++ "Z"

theorem january_valid : 1 ≤ 1 ∧ 1 ≤ 12 := by decide

theorem new_year_valid : 1 ≤ 1 ∧ 1 ≤ monthLength 1970 1 := by decide

def unix_epoch : Date := ⟨1970, 1, 1, january_valid, new_year_valid⟩

theorem unix_epoch_ordinal : unix_epoch.ordinal = 719528 := by
  have hyears := daysBeforeYear_eq 1970
  simp only [Date.ordinal, unix_epoch, daysBeforeMonth]
  omega

theorem is_leap_year_eq (year : Nat) : is_leap_year year = isLeap year := rfl

theorem days_in_year_eq (year : Nat) : days_in_year year = yearLength year := rfl

/-- The loop over the years keeps the day it counts from, and stops in its year. -/
theorem year_loop_spec (d year : Nat) :
    (year_loop d year).1 + daysBeforeYear (year_loop d year).2 = d + daysBeforeYear year ∧
      (year_loop d year).1 < yearLength (year_loop d year).2 := by
  fun_induction year_loop d year with
  | case1 d year hlt => exact ⟨rfl, hlt⟩
  | case2 d year hle ih =>
    refine ⟨?_, ih.2⟩
    rw [ih.1, daysBeforeYear]
    rw [days_in_year_eq] at hle ⊢
    omega

theorem days_in_months_eq (year : Nat) :
    days_in_months (is_leap_year year) = (List.range' 1 12).map (monthLength year) := by
  simp only [days_in_months, is_leap_year_eq, List.range', List.map_cons, List.map_nil, monthLength]
  rfl

/-- The loop over the months keeps the day it counts from, and stops in its month. -/
theorem month_loop_spec (year count d month : Nat) (hmonth : 1 ≤ month)
    (hd : d + daysBeforeMonth year month < daysBeforeMonth year (month + count)) :
    ∃ left stop, month_loop ((List.range' month count).map (monthLength year)) d month = (left, stop) ∧
      month ≤ stop ∧ stop < month + count ∧ left < monthLength year stop ∧
      left + daysBeforeMonth year stop = d + daysBeforeMonth year month := by
  induction count generalizing d month with
  | zero =>
    rw [Nat.add_zero] at hd
    omega
  | succ count ih =>
    rw [List.range'_succ, List.map_cons, month_loop]
    have hnext := daysBeforeMonth_next year hmonth
    by_cases hlt : d < monthLength year month
    · rw [if_pos hlt]
      exact ⟨d, month, rfl, Nat.le_refl _, by omega, hlt, rfl⟩
    · rw [if_neg hlt]
      have hcount : month + 1 + count = month + (count + 1) := by omega
      obtain ⟨left, stop, hloop, hfrom, hto, hleft, hdays⟩ :=
        ih (d - monthLength year month) (month + 1) (by omega) (by rw [hcount]; omega)
      exact ⟨left, stop, hloop, by omega, by omega, hleft, by omega⟩

/-- The loops find the day that many days after the epoch. -/
theorem days_to_ymd_eq (days : Nat) :
    days_to_ymd days =
      ((unix_epoch.after days).year, (unix_epoch.after days).month, (unix_epoch.after days).day) := by
  obtain ⟨hyears, hinyear⟩ := year_loop_spec days 1970
  rw [days_to_ymd]
  cases hyear : year_loop days 1970 with
  | mk d year =>
    rw [hyear] at hyears hinyear
    dsimp only at hyears hinyear ⊢
    have hend : daysBeforeMonth year 13 = yearLength year := daysBeforeMonth_end year
    have hd : d + daysBeforeMonth year 1 < daysBeforeMonth year (1 + 12) := hinyear.trans_eq hend.symm
    obtain ⟨left, stop, hloop, hfrom, hto, hleft, hdays⟩ := month_loop_spec year 12 d 1 (Nat.le_refl _) hd
    rw [days_in_months_eq, hloop]
    have hepoch : daysBeforeYear 1970 = 719528 := by
      have hclosed := daysBeforeYear_eq 1970
      omega
    have hdate : (⟨year, stop, left + 1, ⟨hfrom, by omega⟩, ⟨by omega, hleft⟩⟩ : Date) = unix_epoch.after days := by
      refine Date.eq_after ?_
      rw [unix_epoch_ordinal]
      simp only [Date.ordinal, daysBeforeMonth] at hdays ⊢
      omega
    rw [← hdate]

/-- A day of the cycle: its century, its cycle of four years, its year there and its day. -/
theorem era_day {doe : Nat} (h : doe < 146097) :
    ∃ c q r d, c < 4 ∧ q < 25 ∧ r < 4 ∧ (d ≤ 364 ∨ d = 365 ∧ r = 3 ∧ (q = 24 → c = 3)) ∧
      doe = 36524 * c + 1461 * q + 365 * r + d := by
  refine ⟨min (doe / 36524) 3, (doe - 36524 * min (doe / 36524) 3) / 1461,
    min ((doe - 36524 * min (doe / 36524) 3) % 1461 / 365) 3,
    (doe - 36524 * min (doe / 36524) 3) % 1461 -
      365 * min ((doe - 36524 * min (doe / 36524) 3) % 1461 / 365) 3, ?_⟩
  omega

/-- The correction by the quotients takes away the leap days before the year. -/
theorem year_of_era_eq {c q r d doe : Nat} (hc : c < 4) (hq : q < 25) (hr : r < 4)
    (hd : d ≤ 364 ∨ d = 365 ∧ r = 3 ∧ (q = 24 → c = 3)) (hdoe : doe = 36524 * c + 1461 * q + 365 * r + d) :
    year_of_era doe = 100 * c + 4 * q + r := by
  have hquad : 1460 * (25 * c + q) + (24 * c + q + 365 * r + d) = doe := by omega
  have hcarry : doe / 1460 = 25 * c + q + (24 * c + q + 365 * r + d) / 1460 := by omega
  have hcentury : doe / 36524 = c + doe / 146096 := by
    have hday : 1461 * q + 365 * r + d < 36524 ∨ c = 3 ∧ doe = 146096 := by omega
    obtain hday | ⟨rfl, rfl⟩ := hday
    · have hquotient : doe / 36524 = c := by omega
      have hbefore : doe < 146096 := by omega
      rw [hquotient, Nat.div_eq_of_lt hbefore, Nat.add_zero]
    · rfl
  have hleft : (24 * c + q + 365 * r + d) / 1460 ≤ d ∧ d - (24 * c + q + 365 * r + d) / 1460 < 365 := by omega
  have hdays : doe - doe / 1460 + doe / 36524 - doe / 146096 =
      365 * (100 * c + 4 * q + r) + (d - (24 * c + q + 365 * r + d) / 1460) := by omega
  rw [year_of_era, hdays]
  omega

/-- The day of the year, and how long the year can be. -/
theorem day_of_year_spec {doe : Nat} (h : doe < 146097) :
    365 * year_of_era doe + year_of_era doe / 4 - year_of_era doe / 100 + day_of_year doe (year_of_era doe) = doe ∧
      day_of_year doe (year_of_era doe) < yearLength (year_of_era doe + 1) ∧ year_of_era doe < 400 := by
  obtain ⟨c, q, r, d, hc, hq, hr, hd, hdoe⟩ := era_day h
  have hyear := year_of_era_eq hc hq hr hd hdoe
  have hquads : (100 * c + 4 * q + r) / 4 = 25 * c + q := by omega
  have hcenturies : (100 * c + 4 * q + r) / 100 = c := by omega
  have hdays : doe - (365 * (100 * c + 4 * q + r) + (25 * c + q) - c) = d := by omega
  rw [day_of_year, hyear, hquads, hcenturies, hdays]
  refine ⟨by omega, ?_, by omega⟩
  obtain hshort | ⟨rfl, rfl, hlast⟩ := hd
  · unfold yearLength
    split <;> omega
  · have hleap : isLeap (100 * c + 4 * q + 3 + 1) = true := by
      simp only [isLeap, Bool.or_eq_true, Bool.and_eq_true, beq_iff_eq, bne_iff_ne]
      omega
    rw [yearLength, if_pos hleap]
    decide

/-- March to December lie in the year in which the count starts. -/
theorem month_and_day_before (year : Nat) {doy : Nat} (h : doy < 306) :
    ∃ m d, month_and_day doy = (m, d) ∧ 3 ≤ m ∧ m ≤ 12 ∧ 1 ≤ d ∧ d ≤ monthLength year m ∧
      daysBeforeMonth year m + (d - 1) = daysBeforeMonth year 3 + doy := by
  refine ⟨_, _, rfl, ?_⟩
  obtain ⟨mp, hmp⟩ : ∃ mp, (5 * doy + 2) / 153 = mp := ⟨_, rfl⟩
  have hbound : mp < 10 := by omega
  rw [hmp, if_pos hbound]
  interval_cases mp <;> simp [daysBeforeMonth, monthLength] <;> omega

/-- January and February lie in the next one. -/
theorem month_and_day_after (year : Nat) {doy : Nat} (hfrom : 306 ≤ doy) (hto : doy < yearLength year) :
    ∃ m d, month_and_day doy = (m, d) ∧ 1 ≤ m ∧ m ≤ 2 ∧ 1 ≤ d ∧ d ≤ monthLength year m ∧
      306 + (daysBeforeMonth year m + (d - 1)) = doy := by
  refine ⟨_, _, rfl, ?_⟩
  obtain ⟨mp, hmp⟩ : ∃ mp, (5 * doy + 2) / 153 = mp := ⟨_, rfl⟩
  have hyear : yearLength year ≤ 366 := by
    unfold yearLength
    split <;> omega
  have hmonth : mp = 10 ∨ mp = 11 := by omega
  obtain rfl | rfl := hmonth
  · rw [hmp]
    simp [daysBeforeMonth, monthLength]
    omega
  · rw [hmp]
    unfold yearLength at hto
    simp [daysBeforeMonth, monthLength]
    split_ifs at hto ⊢ <;> omega

/-- The casts lose nothing while the days fit the signed type. -/
theorem civil_date_cycle {days era doe : Nat} (hdays : days + 719468 = 146097 * era + doe) (hdoe : doe < 146097)
    (hfits : days + 719468 < 2 ^ 63) {m d : Nat}
    (hmonth : month_and_day (day_of_year doe (year_of_era doe)) = (m, d)) :
    civil_date days = (if m ≤ 2 then ((year_of_era doe + 400 * era + 1 : Nat) : Int)
      else ((year_of_era doe + 400 * era : Nat) : Int), m, d) := by
  have hcast : (days : Int).bmod (2 ^ 64) = days := Int.bmod_eq_of_le (by omega) (by omega)
  have hera : ((days : Int) + 719468).tdiv 146097 = era := by
    rw [Int.tdiv_eq_ediv_of_nonneg (by omega)]
    omega
  have hrest : (((days : Int) + 719468 - era * 146097) % 2 ^ 32).toNat = doe := by omega
  have hpos : (0 : Int) ≤ days + 719468 := by omega
  simp only [civil_date, hcast, if_pos hpos, hera, hrest, hmonth]
  split <;> simp <;> omega

/-- The era arithmetic finds the day that many days after the epoch. -/
theorem civil_date_eq {days : Nat} (hfits : days + 719468 < 2 ^ 63) :
    civil_date days =
      (((unix_epoch.after days).year : Int), (unix_epoch.after days).month, (unix_epoch.after days).day) := by
  obtain ⟨era, doe, hdays, hdoe⟩ : ∃ era doe, days + 719468 = 146097 * era + doe ∧ doe < 146097 :=
    ⟨(days + 719468) / 146097, (days + 719468) % 146097, by omega, by omega⟩
  obtain ⟨hday, hinyear, hyear⟩ := day_of_year_spec hdoe
  have hlength : yearLength (year_of_era doe + 400 * era + 1) = yearLength (year_of_era doe + 1) := by
    rw [yearLength, yearLength, Nat.add_right_comm, isLeap_cycle]
  have hquads : (year_of_era doe + 400 * era) / 4 = year_of_era doe / 4 + 100 * era := by omega
  have hcenturies : (year_of_era doe + 400 * era) / 100 = year_of_era doe / 100 + 4 * era := by omega
  have hcycles : (year_of_era doe + 400 * era) / 400 = era := by omega
  have hleaps : year_of_era doe / 100 ≤ 365 * year_of_era doe + year_of_era doe / 4 := by omega
  by_cases hbefore : day_of_year doe (year_of_era doe) < 306
  · obtain ⟨m, d, hmonth, hfrom, hto, hone, hd, hcount⟩ :=
      month_and_day_before (year_of_era doe + 400 * era) hbefore
    have hdate : (⟨year_of_era doe + 400 * era, m, d, ⟨by omega, hto⟩, hone, hd⟩ : Date) = unix_epoch.after days := by
      refine Date.eq_after ?_
      rw [unix_epoch_ordinal]
      have hmarch := march_start (year_of_era doe + 400 * era)
      rw [hquads, hcenturies, hcycles] at hmarch
      simp only [Date.ordinal]
      omega
    rw [civil_date_cycle hdays hdoe hfits hmonth, if_neg (by omega), ← hdate]
  · obtain ⟨m, d, hmonth, hfrom, hto, hone, hd, hcount⟩ :=
      month_and_day_after (year_of_era doe + 400 * era + 1) (by omega) (hlength ▸ hinyear)
    have hdate : (⟨year_of_era doe + 400 * era + 1, m, d, ⟨hfrom, by omega⟩, hone, hd⟩ : Date) =
        unix_epoch.after days := by
      refine Date.eq_after ?_
      rw [unix_epoch_ordinal]
      have hjanuary := january_start (year_of_era doe + 400 * era)
      rw [hquads, hcenturies, hcycles] at hjanuary
      simp only [Date.ordinal]
      omega
    rw [civil_date_cycle hdays hdoe hfits hmonth, if_pos hto, ← hdate]

theorem zero_padded_int_natCast (width n : Nat) : zero_padded_int width n = zero_padded width n := by
  rw [zero_padded_int, if_neg (by omega), Int.natAbs_natCast]

/-- Both conversions name the day that many days after the epoch, each day the one after the
day before, and print it with the same time of day. -/
theorem timestamps_agree :
    (∀ days, unix_epoch.after (days + 1) = (unix_epoch.after days).next) ∧
    (∀ days, days_to_ymd days =
      ((unix_epoch.after days).year, (unix_epoch.after days).month, (unix_epoch.after days).day)) ∧
    (∀ days, days + 719468 < 2 ^ 63 → civil_date days =
      (((unix_epoch.after days).year : Int), (unix_epoch.after days).month, (unix_epoch.after days).day)) ∧
    ∀ (secs : UInt64) (millis : UInt32), secs.toNat / 86400 + 719468 < 2 ^ 63 ∧
      ∃ stamp : String, format_civil_timestamp secs millis = stamp ++ "." ++ zero_padded 3 millis.toNat ++ "Z" ∧
        chrono_free_timestamp secs = stamp ++ "Z" := by
  refine ⟨unix_epoch.after_succ, days_to_ymd_eq, fun days hfits => civil_date_eq hfits, fun secs millis => ?_⟩
  have hsecs := secs.toNat_lt
  have hfits : secs.toNat / 86400 + 719468 < 2 ^ 63 := by omega
  refine ⟨hfits, ?_⟩
  simp only [format_civil_timestamp, chrono_free_timestamp, civil_date_eq hfits, days_to_ymd_eq,
    zero_padded_int_natCast]
  exact ⟨_, rfl, rfl⟩

end asmodeus.telemetry
