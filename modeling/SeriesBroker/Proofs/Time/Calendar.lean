import SeriesBroker.Time.Instant

/-! # Days and dates

    A day is a number and a date is a year, a month and a place in the month. Both name the same
    thing: the date of a day exists (`valid_ofDay`) and counting its days gives the day back
    (`toDay_ofDay`).

    Key idea: a year starts where the year before it ends (`daysBeforeYear_succ`), and so does a
    month. The search for the year guesses by the mean length of a year and is off by one at
    most; the search for the month walks through the months and keeps the sum of the days before
    the month and the days that are left.
-/

namespace SeriesBroker

namespace Calendar

/-! ### Years -/

def daysInYear (year : Int) : Nat := if isLeap year then 366 else 365

theorem isLeap_iff (year : Int) :
    isLeap year = true ↔ year % 4 = 0 ∧ (year % 100 ≠ 0 ∨ year % 400 = 0) := by
  simp [isLeap]

/-- A year starts where the year before it ends. -/
theorem daysBeforeYear_succ (year : Int) :
    daysBeforeYear (year + 1) = daysBeforeYear year + daysInYear year := by
  have hleap := isLeap_iff year
  unfold daysBeforeYear daysInYear
  by_cases h : isLeap year = true
  · have hyear := hleap.1 h
    rw [if_pos h]
    omega
  · have hyear : ¬ (year % 4 = 0 ∧ (year % 100 ≠ 0 ∨ year % 400 = 0)) := fun hy => h (hleap.2 hy)
    rw [if_neg h]
    omega

/-- A day lies in its year. -/
theorem daysBeforeYear_yearOfDay (day : Int) :
    daysBeforeYear (yearOfDay day) ≤ day ∧ day < daysBeforeYear (yearOfDay day + 1) := by
  unfold yearOfDay
  -- The mean year has 146097 / 400 days, and no year starts two days away from its multiple.
  have hnear : ∀ year : Int,
      146097 * year - 400 ≤ 400 * daysBeforeYear year ∧
        400 * daysBeforeYear year ≤ 146097 * year + 800 := by
    intro year
    unfold daysBeforeYear
    omega
  have hbefore := hnear (day * 400 / 146097 - 1)
  have hguess := hnear (day * 400 / 146097)
  have hafter := hnear (day * 400 / 146097 + 1)
  have hlast := hnear (day * 400 / 146097 + 1 + 1)
  dsimp only
  split
  · omega
  · split
    · rw [show day * 400 / 146097 - 1 + 1 = day * 400 / 146097 by omega]
      omega
    · omega

/-! ### Months -/

/-- The months of a year have all its days. -/
theorem daysBeforeMonth_end (year : Int) :
    daysBeforeMonth (isLeap year) 13 = daysInYear year := by
  unfold daysInYear
  cases isLeap year
  · rfl
  · rfl

/-- The search for a month finds one that has the day, if the day lies in the months that are
    left to search. It loses no days on its way. -/
theorem monthOfDay_spec (leap : Bool) (remaining month day : Nat)
    (hday : daysBeforeMonth leap month + day < daysBeforeMonth leap (month + remaining + 1)) :
    let (m, place) := monthOfDay leap remaining month day
    month ≤ m ∧ m ≤ month + remaining ∧ 1 ≤ place ∧ place ≤ daysInMonth leap m ∧
      daysBeforeMonth leap m + place = daysBeforeMonth leap month + day + 1 := by
  induction remaining generalizing month day with
  | zero =>
    rw [Nat.add_zero, daysBeforeMonth] at hday
    exact ⟨Nat.le_refl month, Nat.le_refl month, by omega, by omega, by omega⟩
  | succ remaining ih =>
    have hnext : daysBeforeMonth leap (month + 1) =
        daysBeforeMonth leap month + daysInMonth leap month := rfl
    unfold monthOfDay
    by_cases hlt : day < daysInMonth leap month
    · rw [if_pos hlt]
      exact ⟨Nat.le_refl month, by omega, by omega, by omega, by omega⟩
    · -- The days of the month are taken off and counted as days before the next one.
      rw [if_neg hlt]
      have hrest := ih (month + 1) (day - daysInMonth leap month) (by
        rw [show month + 1 + remaining + 1 = month + (remaining + 1) + 1 by omega]
        omega)
      generalize monthOfDay leap remaining (month + 1) (day - daysInMonth leap month) = found at *
      obtain ⟨m, place⟩ := found
      obtain ⟨hlow, hhigh, hfirst, hlast, hsum⟩ := hrest
      exact ⟨by omega, by omega, hfirst, hlast, by omega⟩

/-! ### Dates -/

/-- The date of a day is in the year of the day. -/
theorem year_ofDay (day : Int) : (Date.ofDay day).year = yearOfDay day := rfl

/-- What the date of a day is made of. -/
theorem ofDay_spec (day : Int) :
    1 ≤ (Date.ofDay day).month ∧ (Date.ofDay day).month ≤ 12 ∧ 1 ≤ (Date.ofDay day).day ∧
      (Date.ofDay day).day ≤ daysInMonth (isLeap (yearOfDay day)) (Date.ofDay day).month ∧
      daysBeforeYear (yearOfDay day) +
          daysBeforeMonth (isLeap (yearOfDay day)) (Date.ofDay day).month +
          (Date.ofDay day).day = day + 1 := by
  obtain ⟨hstart, hend⟩ := daysBeforeYear_yearOfDay day
  have hlength := daysBeforeYear_succ (yearOfDay day)
  have hmonths := daysBeforeMonth_end (yearOfDay day)
  have hzero : daysBeforeMonth (isLeap (yearOfDay day)) 1 = 0 := rfl
  -- The day is one of its year, so the twelve months are enough to find it.
  have hmonth := monthOfDay_spec (isLeap (yearOfDay day)) 11 1
    (day - daysBeforeYear (yearOfDay day)).toNat (by
      show _ < daysBeforeMonth (isLeap (yearOfDay day)) 13
      omega)
  unfold Date.ofDay
  dsimp only
  generalize monthOfDay (isLeap (yearOfDay day)) 11 1
    (day - daysBeforeYear (yearOfDay day)).toNat = found at *
  obtain ⟨m, place⟩ := found
  obtain ⟨hlow, hhigh, hfirst, hlast, hsum⟩ := hmonth
  exact ⟨hlow, hhigh, hfirst, hlast, by dsimp only; omega⟩

/-- The date of a day exists. -/
theorem valid_ofDay (day : Int) : (Date.ofDay day).valid = true := by
  obtain ⟨-, -, hfirst, hlast, -⟩ := ofDay_spec day
  unfold Date.valid
  rw [year_ofDay]
  simp [hfirst, hlast]

/-- Counting the days to the date of a day gives the day. -/
theorem toDay_ofDay (day : Int) : (Date.ofDay day).toDay = day := by
  obtain ⟨-, -, -, -, hsum⟩ := ofDay_spec day
  unfold Date.toDay
  rw [year_ofDay]
  omega

/-- No month has more than 31 days. -/
theorem daysInMonth_le (leap : Bool) (month : Nat) : daysInMonth leap month ≤ 31 := by
  unfold daysInMonth
  cases leap
  · split <;> simp
  · split <;> simp

end Calendar

end SeriesBroker
