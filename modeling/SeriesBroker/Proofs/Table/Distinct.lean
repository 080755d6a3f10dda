import SeriesBroker.Proofs.Statement.Cancel
import SeriesBroker.Proofs.Table.Timestamps

/-! # Timestamps of different instants

    Whoever gets a table tells its rows apart by the text in their first cell. A text that is
    written for an instant is not always read back, since a year can have a sign. But no other
    instant is written as the same text, so rows of different instants never look the same
    (`toText_eq_iff_eq`).

    Key idea: every number in a timestamp ends where a character that is no digit follows, whatever
    its width is. So the numbers can be got back from the text one after the other
    (`padded_cancel`), and they are enough to know the instant (`eq_of_clock`). A leap second shows
    as the second 60 and nothing else does.
-/

namespace SeriesBroker.Timestamp

open Calendar (Date)
open Statement (Stops span_cancel)

/-! ### Numbers, one after the other -/

/-- What follows a number in a timestamp. -/
abbrev NoDigit (rest : List Char) : Prop := Stops (fun c => c.isDigit = true) rest

theorem noDigit_cons {c : Char} (h : c.isDigit = false) (rest : List Char) :
    NoDigit (c :: rest) :=
  Stops.cons (by simp [h]) rest

/-- A number ends where no digit follows, and its zeros at the start do not count. -/
theorem padded_cancel {width m n : Nat} {r s : List Char} (hr : NoDigit r) (hs : NoDigit s)
    (h : padded width m ++ r = padded width n ++ s) : m = n ∧ r = s := by
  obtain ⟨hdigits, hrest⟩ := span_cancel (p := fun c => c.isDigit = true)
    (fun c hc => isDigit_of_mem_padded hc) (fun c hc => isDigit_of_mem_padded hc) hr hs h
  have hvalue := congrArg (fun digits => Nat.ofDigitChars 10 digits 0) hdigits
  simp only [ofDigitChars_padded] at hvalue
  exact ⟨hvalue, hrest⟩

/-- A number and the mark behind it. -/
theorem padded_cons_cancel {width m n : Nat} {mark : Char} (hmark : mark.isDigit = false)
    {r s : List Char} (h : padded width m ++ mark :: r = padded width n ++ mark :: s) :
    m = n ∧ r = s := by
  obtain ⟨hvalue, hrest⟩ := padded_cancel (noDigit_cons hmark r) (noDigit_cons hmark s) h
  exact ⟨hvalue, (List.cons.inj hrest).2⟩

/-- No number starts with the sign of a year. -/
theorem padded_ne_cons {width n : Nat} (hwidth : 0 < width) {sign : Char}
    (hsign : sign.isDigit = false) (r s : List Char) : padded width n ++ r ≠ sign :: s := by
  intro h
  cases hdigits : padded width n with
  | nil =>
    have hlength := congrArg List.length hdigits
    rw [padded, List.length_leftpad, List.length_nil] at hlength
    omega
  | cons c digits =>
    have hc : c.isDigit = true := isDigit_of_mem_padded (by rw [hdigits]; exact List.mem_cons_self)
    rw [hdigits, List.cons_append, List.cons.injEq] at h
    rw [h.1, hsign] at hc
    cases hc

/-- The three ways to write a year. -/
theorem yearText_cases (year : Int) :
    (year < 0 ∧ yearText year = '-' :: padded 4 year.natAbs) ∨
      ((0 ≤ year ∧ year ≤ 9999) ∧ yearText year = padded 4 year.natAbs) ∨
      (9999 < year ∧ yearText year = '+' :: padded 4 year.natAbs) := by
  unfold yearText
  by_cases hneg : year < 0
  · exact .inl ⟨hneg, if_pos hneg⟩
  · by_cases hfour : year ≤ 9999
    · exact .inr (.inl ⟨⟨by omega, hfour⟩, by rw [if_neg hneg, if_pos hfour]⟩)
    · exact .inr (.inr ⟨by omega, by rw [if_neg hneg, if_neg hfour]⟩)

/-- A year is known from its text, with or without a sign. -/
theorem yearText_cancel {m n : Int} {r s : List Char}
    (h : yearText m ++ '-' :: r = yearText n ++ '-' :: s) : m = n ∧ r = s := by
  have hplus : '+'.isDigit = false := by decide
  have hminus : '-'.isDigit = false := by decide
  obtain ⟨hm, htextm⟩ | ⟨hm, htextm⟩ | ⟨hm, htextm⟩ := yearText_cases m
  all_goals obtain ⟨hn, htextn⟩ | ⟨hn, htextn⟩ | ⟨hn, htextn⟩ := yearText_cases n
  all_goals rw [htextm, htextn] at h
  -- Nine cases. Years of the same kind are compared by their digits, the others start differently.
  · obtain ⟨habs, hrest⟩ := padded_cons_cancel hminus (List.cons.inj h).2
    exact ⟨by omega, hrest⟩
  · exact absurd h.symm (padded_ne_cons (by decide) hminus _ _)
  · exact absurd (List.cons.inj h).1 (by decide)
  · exact absurd h (padded_ne_cons (by decide) hminus _ _)
  · obtain ⟨habs, hrest⟩ := padded_cons_cancel hminus h
    exact ⟨by omega, hrest⟩
  · exact absurd h (padded_ne_cons (by decide) hplus _ _)
  · exact absurd (List.cons.inj h).1 (by decide)
  · exact absurd h.symm (padded_ne_cons (by decide) hplus _ _)
  · obtain ⟨habs, hrest⟩ := padded_cons_cancel hminus (List.cons.inj h).2
    exact ⟨by omega, hrest⟩

/-! ### Fractions -/

/-- What follows the seconds is no digit. -/
theorem noDigit_fractionText (nano : Nat) : NoDigit (fractionText nano ++ ['Z']) := by
  unfold fractionText
  by_cases hzero : nano = 0
  · rw [if_pos hzero]
    exact noDigit_cons (by decide) []
  · rw [if_neg hzero]
    exact noDigit_cons (by decide) _

/-- A fraction is known from its text. -/
theorem fractionText_cancel {m n : Nat} (hm : m < 1000000000) (hn : n < 1000000000)
    (h : fractionText m ++ ['Z'] = fractionText n ++ ['Z']) : m = n := by
  have hread := congrArg readFraction h
  rw [readFraction_fractionText hm (by decide) (by decide) [],
    readFraction_fractionText hn (by decide) (by decide) [], Option.some.injEq,
    Prod.mk.injEq] at hread
  exact hread.1

/-- The last of the digits that are left is not zero. -/
theorem getLast?_trimmed (digits : List Char) : (trimmed digits).getLast? ≠ some '0' := by
  intro h
  rw [trimmed, List.getLast?_reverse] at h
  have hhead := List.head?_dropWhile_not (· == '0') digits.reverse
  rw [h] at hhead
  simp at hhead

/-- A fraction of a second without needless zeros. -/
def IsFraction (text : List Char) : Prop :=
  text = [] ∨ ∃ digits, text = '.' :: digits ∧ 1 ≤ digits.length ∧ digits.length ≤ 9 ∧
    (∀ c ∈ digits, c.isDigit = true) ∧ digits.getLast? ≠ some '0'

theorem isFraction_fractionText {nano : Nat} (h : nano < 1000000000) :
    IsFraction (fractionText nano) := by
  unfold fractionText
  by_cases hzero : nano = 0
  · rw [if_pos hzero]
    exact .inl rfl
  · rw [if_neg hzero]
    refine .inr ⟨trimmed (padded 9 nano), rfl, ?_, ?_, ?_, getLast?_trimmed _⟩
    · exact List.length_pos_of_ne_nil (trimmed_padded_ne_nil hzero)
    · have hle := length_trimmed_le (padded 9 nano)
      rwa [length_padded (by decide) h] at hle
    · intro c hc
      exact isDigit_of_mem_padded (mem_of_mem_trimmed hc)

/-! ### Clocks -/

/-- The second that a clock shows. It shows 60 in a leap second. -/
def shownSecond (i : Instant) : Nat :=
  if 1000000000 ≤ i.nano then i.second % 60 + 1 else i.second % 60

/-- The nanoseconds since the start of the second that a clock shows. -/
def shownNano (i : Instant) : Nat :=
  if 1000000000 ≤ i.nano then i.nano - 1000000000 else i.nano

theorem shownNano_lt (i : Instant) : shownNano i < 1000000000 := by
  have hnano := i.nano_lt
  unfold shownNano
  split
  · omega
  · omega

/-- The date and the clock, up to the second. -/
def frontText (i : Instant) : List Char :=
  yearText (Date.ofDay i.day).year ++ '-' :: padded 2 (Date.ofDay i.day).month ++
    '-' :: padded 2 (Date.ofDay i.day).day ++ 'T' :: padded 2 (i.second / 3600) ++
    ':' :: padded 2 (i.second / 60 % 60) ++ ':' :: padded 2 (shownSecond i)

/-- A timestamp is a front, a fraction and the mark of universal time. -/
theorem render_eq (i : Instant) : render i = frontText i ++ fractionText (shownNano i) ++ ['Z'] :=
  rfl

/-- An instant is known from the date and the clock, if leap seconds only follow the last second
    of a minute. -/
theorem eq_of_clock {a b : Instant} (ha : a.Regular) (hb : b.Regular)
    (hdate : Date.ofDay a.day = Date.ofDay b.day) (hhour : a.second / 3600 = b.second / 3600)
    (hminute : a.second / 60 % 60 = b.second / 60 % 60) (hsecond : shownSecond a = shownSecond b)
    (hnano : shownNano a = shownNano b) : a = b := by
  have hday : a.day = b.day := by
    rw [← Calendar.toDay_ofDay a.day, hdate, Calendar.toDay_ofDay]
  have hanano := a.nano_lt
  have hbnano := b.nano_lt
  -- The clock shows 60 in a leap second only, so both are leap seconds or neither is.
  have hleap : 1000000000 ≤ a.nano ↔ 1000000000 ≤ b.nano := by
    unfold shownSecond at hsecond
    constructor
    · intro h
      have hlast := ha h
      by_cases hother : 1000000000 ≤ b.nano
      · exact hother
      · rw [if_pos h, if_neg hother] at hsecond
        omega
    · intro h
      have hlast := hb h
      by_cases hother : 1000000000 ≤ a.nano
      · exact hother
      · rw [if_neg hother, if_pos h] at hsecond
        omega
  unfold shownSecond at hsecond
  unfold shownNano at hnano
  by_cases h : 1000000000 ≤ a.nano
  · rw [if_pos h, if_pos (hleap.1 h)] at hsecond hnano
    have := hleap.1 h
    exact Instant.eq_of_parts hday (by omega) (by omega)
  · rw [if_neg h, if_neg (fun hother => h (hleap.2 hother))] at hsecond hnano
    exact Instant.eq_of_parts hday (by omega) hnano

/-- The front has no point, so the fraction is all that is behind one. -/
theorem point_not_mem_frontText (i : Instant) : '.' ∉ frontText i := by
  have hpadded : ∀ width n, '.' ∉ padded width n := by
    intro width n hmem
    exact absurd (isDigit_of_mem_padded hmem) (by decide)
  have hyear : ∀ year, '.' ∉ yearText year := by
    intro year
    obtain ⟨-, htext⟩ | ⟨-, htext⟩ | ⟨-, htext⟩ := yearText_cases year
    all_goals simp [htext, hpadded]
  simp [frontText, hpadded, hyear]

/-! ### Whole timestamps -/

/-- Different instants are written as different texts. -/
theorem eq_of_render_eq {a b : Instant} (ha : a.Regular) (hb : b.Regular)
    (h : render a = render b) : a = b := by
  rw [render_eq, render_eq] at h
  unfold frontText at h
  simp only [List.append_assoc, List.cons_append] at h
  obtain ⟨hyear, h⟩ := yearText_cancel h
  obtain ⟨hmonth, h⟩ := padded_cons_cancel (by decide) h
  obtain ⟨hday, h⟩ := padded_cons_cancel (by decide) h
  obtain ⟨hhour, h⟩ := padded_cons_cancel (by decide) h
  obtain ⟨hminute, h⟩ := padded_cons_cancel (by decide) h
  obtain ⟨hsecond, h⟩ := padded_cancel (noDigit_fractionText _) (noDigit_fractionText _) h
  have hnano := fractionText_cancel (shownNano_lt a) (shownNano_lt b) h
  have hdate : Date.ofDay a.day = Date.ofDay b.day := by
    cases hda : Date.ofDay a.day
    cases hdb : Date.ofDay b.day
    rw [hda, hdb] at hyear hmonth hday
    simp only at hyear hmonth hday
    rw [hyear, hmonth, hday]
  exact eq_of_clock ha hb hdate hhour hminute hsecond hnano

/-- The form of every timestamp that is written: it ends in the mark of universal time, and there
    is nothing but a fraction behind a point. -/
def IsWritten (text : String) : Prop :=
  ∃ front fraction, text.toList = front ++ fraction ++ ['Z'] ∧ '.' ∉ front ∧ IsFraction fraction

theorem isWritten_toText (i : Instant) : IsWritten (toText i) :=
  ⟨frontText i, fractionText (shownNano i), by rw [toText, String.toList_ofList, render_eq],
    point_not_mem_frontText i, isFraction_fractionText (shownNano_lt i)⟩

end SeriesBroker.Timestamp

namespace SeriesBroker.Table

/-- An instant that a row of some series has. -/
def Occurs (t : Instant) : Prop :=
  ∃ statement rows series, timedSeries statement rows = .ok series ∧
    ∃ row ∈ series.toList, row.instant = t

/-- The instants that occur are those that are read from a text. -/
theorem occurs_iff {t : Instant} : Occurs t ↔ ∃ text, Timestamp.ofText? text = some t := by
  constructor
  · intro h
    obtain ⟨statement, rows, series, hseries, row, hrow, hinstant⟩ := h
    unfold timedSeries at hseries
    obtain ⟨timed, htimed, hsorted⟩ := exists_of_bind_eq_ok hseries
    -- Each row was read, so the rows that are sorted are the rows with their timestamps read.
    rw [mapM_timedRow (stamp_of_mapM htimed), Except.ok.injEq] at htimed
    rw [← Except.ok.inj hsorted, List.mem_mergeSort, ← htimed] at hrow
    obtain ⟨first, -, hfirst⟩ := List.mem_filterMap.1 hrow
    obtain ⟨u, hstamp, hu⟩ := Option.map_eq_some_iff.1 hfirst
    rw [← hinstant, ← hu]
    unfold stamp? at hstamp
    split at hstamp
    · next text _ => exact ⟨text, hstamp⟩
    · cases hstamp
  · intro h
    obtain ⟨text, htext⟩ := h
    have hstamp : stamp? [.string text] = some t := htext
    have hseries : timedSeries 0 [[.string text]] = .ok #[⟨t, []⟩] := by
      rw [timedSeries, List.mapM_cons, timedRow_of_stamp hstamp]
      simp [pure, Except.pure, bind, Except.bind]
    exact ⟨0, [[.string text]], #[⟨t, []⟩], hseries, ⟨t, []⟩, List.mem_singleton.2 rfl, rfl⟩

/-- **Different instants look different.** The timestamps of two instants that occur in series are
    the same text only if the instants are the same. Every timestamp ends in the mark of
    universal time and has no fraction, or one of one to nine digits of which the last is not
    zero. -/
theorem toText_eq_iff_eq {a b : Instant} (ha : Occurs a) (hb : Occurs b) :
    (Timestamp.toText a = Timestamp.toText b ↔ a = b) ∧
      Timestamp.IsWritten (Timestamp.toText a) ∧ Timestamp.IsWritten (Timestamp.toText b) := by
  refine ⟨?_, Timestamp.isWritten_toText a, Timestamp.isWritten_toText b⟩
  constructor
  · intro h
    obtain ⟨texta, hreada⟩ := occurs_iff.1 ha
    obtain ⟨textb, hreadb⟩ := occurs_iff.1 hb
    have hrender : Timestamp.render a = Timestamp.render b := by
      simpa [Timestamp.toText] using congrArg String.toList h
    exact Timestamp.eq_of_render_eq (Timestamp.regular_of_ofText? hreada)
      (Timestamp.regular_of_ofText? hreadb) hrender
  · intro h
    rw [h]

/-- A leap second in the year before year 0, and the second after it. -/
theorem toText_eq_iff_eq_leapSecond :
    let a : Instant := ⟨-1, 86399, 1250000000, by decide, by decide⟩
    let b : Instant := ⟨0, 0, 250000000, by decide, by decide⟩
    (Occurs a ∧ Occurs b) ∧ Timestamp.toText a = "-0001-12-31T23:59:60.25Z" ∧
      Timestamp.toText b = "0000-01-01T00:00:00.25Z" ∧
      (Timestamp.toText a = Timestamp.toText b ↔ a = b) ∧
      Timestamp.IsWritten (Timestamp.toText a) ∧ Timestamp.IsWritten (Timestamp.toText b) := by
  intro a b
  have ha : Occurs a := occurs_iff.2 ⟨"0000-01-01T00:59:60.250+01:00", by decide +kernel⟩
  have hb : Occurs b := occurs_iff.2 ⟨"0000-01-01t01:00:00.25+01:00", by decide +kernel⟩
  exact ⟨⟨ha, hb⟩, by decide +kernel, by decide +kernel, toText_eq_iff_eq ha hb⟩

end SeriesBroker.Table
