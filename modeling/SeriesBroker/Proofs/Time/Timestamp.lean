import Mathlib.Data.Option.Basic
import SeriesBroker.Proofs.Time.Calendar
import SeriesBroker.Proofs.Time.Digits
import SeriesBroker.Proofs.Time.Order

/-! # Timestamps that are read back

    A written timestamp is in universal time and has the shortest fraction. It is read back as
    the instant it was written for if the year of the instant has four digits, and is no
    timestamp for the reader otherwise, since the reader takes no sign before a year
    (`ofText?_toText`).

    An instant past the last nanosecond of its second is written with the next number of seconds.
    This shows as the second 60, and is read as a leap second, only at the end of a minute. But
    there are no other leap seconds among the instants that are read (`regular_of_ofText?`).
-/

namespace SeriesBroker

def Instant.year (i : Instant) : Int := Calendar.yearOfDay i.day

/-- The year of an instant is one of 0 to 9999. -/
def Instant.HasFourDigitYear (i : Instant) : Prop := 0 ≤ i.year ∧ i.year ≤ 9999

instance (i : Instant) : Decidable i.HasFourDigitYear := by
  unfold Instant.HasFourDigitYear
  infer_instance

/-- A leap second only follows the last second of a minute. -/
def Instant.Regular (i : Instant) : Prop := 1000000000 ≤ i.nano → i.second % 60 = 59

namespace Timestamp

open Calendar (Date)

/-! ### Instants and clocks -/

/-- A date and a clock give back the instant they were read off. -/
theorem ofSeconds_clock (i : Instant) :
    Instant.ofSeconds ((Date.ofDay i.day).toDay * 86400 + (i.second / 3600 : Nat) * 3600 +
      (i.second / 60 % 60 : Nat) * 60 + (i.second % 60 : Nat) - 0) i.nano i.nano_lt = i := by
  have hsecond := i.second_lt
  rw [Calendar.toDay_ofDay]
  apply Instant.eq_of_parts
  · show (_ : Int) / 86400 = i.day
    omega
  · show ((_ : Int) % 86400).toNat = i.second
    omega
  · rfl

/-- What the clock shows is in range. A leap second shows as the second 60. -/
theorem instant?_clock {i : Instant} (hregular : i.Regular) :
    instant? (Date.ofDay i.day) (i.second / 3600) (i.second / 60 % 60)
        (if 1000000000 ≤ i.nano then i.second % 60 + 1 else i.second % 60)
        (if 1000000000 ≤ i.nano then i.nano - 1000000000 else i.nano) 0 = some i := by
  have hsecond := i.second_lt
  have hnano := i.nano_lt
  have hclock := ofSeconds_clock i
  unfold instant?
  by_cases hleap : 1000000000 ≤ i.nano
  · have hlast : i.second % 60 = 59 := hregular hleap
    rw [hlast] at hclock
    have hback : i.nano - 1000000000 + 1000000000 = i.nano := by omega
    simp only [hleap, if_true, hlast]
    rw [if_pos ⟨Calendar.valid_ofDay i.day, by omega, by omega, by omega⟩]
    simp only [hback]
    rw [dif_pos hnano]
    exact congrArg some hclock
  · have hno : i.second % 60 ≠ 60 := by omega
    simp only [hleap, if_false, hno]
    rw [if_pos ⟨Calendar.valid_ofDay i.day, by omega, by omega, by omega⟩, dif_pos hnano]
    exact congrArg some hclock

/-! ### Reading what was written -/

/-- A year of four digits has no sign. -/
theorem yearText_eq {year : Int} (h : 0 ≤ year ∧ year ≤ 9999) :
    yearText year = padded 4 year.natAbs := by
  unfold yearText
  rw [if_neg (by omega), if_pos h.2]

/-- Every other year has one. -/
theorem yearText_signed {year : Int} (h : ¬ (0 ≤ year ∧ year ≤ 9999)) :
    ∃ sign : Char, sign.isDigit = false ∧ yearText year = sign :: padded 4 year.natAbs := by
  unfold yearText
  by_cases hneg : year < 0
  · exact ⟨'-', by decide, if_pos hneg⟩
  · refine ⟨'+', by decide, ?_⟩
    rw [if_neg hneg, if_neg (by omega)]

/-- Fields of the right width are read one after the other, and what they say is checked last. -/
theorem read_fields {year month day hour minute second nano : Nat} (hyear : year < 10000)
    (hmonth : month < 100) (hday : day < 100) (hhour : hour < 100) (hminute : minute < 100)
    (hsecond : second < 100) (hnano : nano < 1000000000) :
    read (padded 4 year ++ '-' :: padded 2 month ++ '-' :: padded 2 day ++
        'T' :: padded 2 hour ++ ':' :: padded 2 minute ++ ':' :: padded 2 second ++
        fractionText nano ++ ['Z']) =
      instant? ⟨year, month, day⟩ hour minute second nano 0 := by
  have hyears := readNumber_padded (show 0 < 4 by decide) hyear
  have hmonths := readNumber_padded (show 0 < 2 by decide) hmonth
  have hdays := readNumber_padded (show 0 < 2 by decide) hday
  have hhours := readNumber_padded (show 0 < 2 by decide) hhour
  have hminutes := readNumber_padded (show 0 < 2 by decide) hminute
  have hseconds := readNumber_padded (show 0 < 2 by decide) hsecond
  have hfraction := readFraction_fractionText hnano (show 'Z'.isDigit = false by decide)
    (by decide) []
  have hdash : ∀ rest, readOneOf ['-'] ('-' :: rest) = some rest := readOneOf_cons (by decide)
  have hcolon : ∀ rest, readOneOf [':'] (':' :: rest) = some rest := readOneOf_cons (by decide)
  have htime : ∀ rest, readOneOf ['T', 't', ' '] ('T' :: rest) = some rest :=
    readOneOf_cons (by decide)
  have hzone : readOffset ['Z'] = some (0, []) := rfl
  unfold read
  simp only [List.append_assoc, List.cons_append, bind, Option.bind, hyears, hmonths, hdays,
    hhours, hminutes, hseconds, hfraction, hdash, hcolon, htime, hzone]
  rfl

/-- The timestamp of an instant in a year of four digits is read back. -/
theorem read_render {i : Instant} (hregular : i.Regular) (hyear : i.HasFourDigitYear) :
    read (render i) = some i := by
  obtain ⟨-, hmonth, -, hday, -⟩ := Calendar.ofDay_spec i.day
  have hdays := Calendar.daysInMonth_le (Calendar.isLeap (Calendar.yearOfDay i.day))
    (Date.ofDay i.day).month
  have hsecond := i.second_lt
  have hnano := i.nano_lt
  have hdigits : 0 ≤ (Date.ofDay i.day).year ∧ (Date.ofDay i.day).year ≤ 9999 := hyear
  have hdate : (⟨((Date.ofDay i.day).year.natAbs : Int), (Date.ofDay i.day).month,
      (Date.ofDay i.day).day⟩ : Date) = Date.ofDay i.day := by
    rw [Int.natAbs_of_nonneg hdigits.1]
  unfold render
  dsimp only
  rw [yearText_eq hdigits, read_fields (by omega) (by omega) (by omega) (by omega) (by omega)
    (by split <;> omega) (by split <;> omega), hdate]
  exact instant?_clock hregular

/-- The timestamp of an instant in any other year is no timestamp for the reader. -/
theorem read_render_of_signed {i : Instant} (hyear : ¬ i.HasFourDigitYear) :
    read (render i) = none := by
  have hdigits : ¬ (0 ≤ (Date.ofDay i.day).year ∧ (Date.ofDay i.day).year ≤ 9999) := hyear
  obtain ⟨sign, hsign, htext⟩ := yearText_signed hdigits
  unfold render
  dsimp only
  rw [htext]
  simp only [List.append_assoc, List.cons_append]
  unfold read
  rw [readNumber_of_not_isDigit (by decide) hsign]
  rfl

/-- A written timestamp is read back as its instant exactly if the year has four digits. -/
theorem ofText?_toText {i : Instant} (hregular : i.Regular) :
    ofText? (toText i) = if i.HasFourDigitYear then some i else none := by
  unfold ofText? toText
  rw [String.toList_ofList]
  by_cases hyear : i.HasFourDigitYear
  · rw [if_pos hyear, read_render hregular hyear]
  · rw [if_neg hyear, read_render_of_signed hyear]

/-! ### What is read -/

/-- Offsets are whole minutes. -/
theorem readOffset_minutes {text rest : List Char} {offset : Int}
    (h : readOffset text = some (offset, rest)) : offset % 60 = 0 := by
  unfold readOffset at h
  split at h
  · cases h
    rfl
  · cases h
    rfl
  · obtain ⟨⟨negative, _⟩, -, h⟩ := Option.bind_eq_some_iff.1 h
    obtain ⟨⟨hours, _⟩, -, h⟩ := Option.bind_eq_some_iff.1 h
    obtain ⟨_, -, h⟩ := Option.bind_eq_some_iff.1 h
    obtain ⟨⟨minutes, _⟩, -, h⟩ := Option.bind_eq_some_iff.1 h
    obtain ⟨_, -, hseconds⟩ := Option.bind_eq_some_iff.1 h
    cases hseconds
    split <;> omega

/-- An instant of a clock is regular if the offset is whole minutes. -/
theorem regular_of_instant? {date : Date} {hour minute second nano : Nat} {offset : Int}
    {i : Instant} (hnano : nano < 1000000000) (hoffset : offset % 60 = 0)
    (h : instant? date hour minute second nano offset = some i) : i.Regular := by
  unfold instant? at h
  split at h
  · intro hleap
    by_cases hsecond : second = 60
    · simp only [hsecond, if_true] at h
      rw [dif_pos (by omega)] at h
      rw [← Option.some.inj h]
      show ((_ : Int) % 86400).toNat % 60 = 59
      omega
    · -- Without the second 60 there are no nanoseconds past the end of the second.
      simp only [hsecond, if_false] at h
      rw [dif_pos (by omega)] at h
      rw [← Option.some.inj h] at hleap
      have hnone : 1000000000 ≤ nano := hleap
      omega
  · cases h

/-- Every instant that is read is regular. -/
theorem regular_of_ofText? {text : String} {i : Instant} (h : ofText? text = some i) :
    i.Regular := by
  unfold ofText? read at h
  -- Five numbers have a mark after them. Like the seconds they have no part in the offset.
  iterate 5
    obtain ⟨⟨_, _⟩, -, h⟩ := Option.bind_eq_some_iff.1 h
    obtain ⟨_, -, h⟩ := Option.bind_eq_some_iff.1 h
  obtain ⟨⟨second, _⟩, -, h⟩ := Option.bind_eq_some_iff.1 h
  obtain ⟨⟨nano, _⟩, hfraction, h⟩ := Option.bind_eq_some_iff.1 h
  obtain ⟨⟨offset, _⟩, hoffset, h⟩ := Option.bind_eq_some_iff.1 h
  obtain ⟨_, -, hinstant⟩ := Option.bind_eq_some_iff.1 h
  exact regular_of_instant? (readFraction_lt hfraction) (readOffset_minutes hoffset) hinstant

end Timestamp

end SeriesBroker
