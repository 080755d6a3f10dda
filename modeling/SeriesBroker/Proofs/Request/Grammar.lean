import Mathlib.Logic.ExistsUnique
import SeriesBroker.Proofs.Text.Pattern
import SeriesBroker.Request.Grammar

/-! # How arithmetic and durations are written

    Arithmetic and durations are accepted by patterns. Here the two forms are said by what they
    are written as, sign by sign. The texts that are accepted are those of the forms and no others
    (`accepts_iff_written`), and a duration can be read in one way only, although some units begin
    or end like others.
-/

namespace SeriesBroker

open Text (Pattern)

/-! ### The forms -/

/-- The digits. Those of other scripts do not count. -/
def decimalDigits : List Char := ['0', '1', '2', '3', '4', '5', '6', '7', '8', '9']

/-- One or more digits. -/
structure Digits (text : List Char) : Prop where
  nonempty : text ≠ []
  decimal : ∀ c ∈ text, c ∈ decimalDigits

/-- A number as arithmetic has it, without a sign and without a power of ten. -/
inductive PlainNumber : List Char → Prop where
  | whole {digits : List Char} (h : Digits digits) : PlainNumber digits
  | fractional {digits fraction : List Char} (h : Digits digits) (hfraction : Digits fraction) :
    PlainNumber (digits ++ '.' :: fraction)

/-- A step of arithmetic: one of four operators and a number. -/
inductive Arithmetic.Written (text : String) : Prop where
  | intro (operator : Char) (number : List Char) (hoperator : operator ∈ ['+', '-', '*', '/'])
    (hnumber : PlainNumber number) (h : text.toList = operator :: number)

/-- A duration: an amount and one of nine units. -/
structure Duration.Written (text : String) (amount : List Char) (unit : String) : Prop where
  counted : Digits amount
  known : unit ∈ ["ns", "u", "\u00b5", "ms", "s", "m", "h", "d", "w"]
  joined : text.toList = amount ++ unit.toList

/-! ### Cutting a text after its first digits -/

theorem isDigit_iff {c : Char} : c.isDigit = true ↔ c ∈ decimalDigits := by
  constructor
  · intro h
    have hbounds : 48 ≤ c.toNat ∧ c.toNat ≤ 57 := by
      simpa [Char.isDigit, UInt32.le_iff_toNat_le] using h
    obtain ⟨hlow, hhigh⟩ := hbounds
    rw [← Char.ofNat_toNat c]
    generalize c.toNat = n at hlow hhigh
    have hcases : n = 48 ∨ n = 49 ∨ n = 50 ∨ n = 51 ∨ n = 52 ∨ n = 53 ∨ n = 54 ∨ n = 55 ∨
        n = 56 ∨ n = 57 := by omega
    rcases hcases with rfl | rfl | rfl | rfl | rfl | rfl | rfl | rfl | rfl | rfl <;> decide
  · intro h
    have hall : decimalDigits.all Char.isDigit = true := by decide
    exact List.all_eq_true.1 hall c h

theorem digits_iff {text : List Char} :
    Digits text ↔ text ≠ [] ∧ ∀ c ∈ text, c.isDigit = true := by
  constructor
  · intro h
    exact ⟨h.nonempty, fun c hc => isDigit_iff.2 (h.decimal c hc)⟩
  · intro h
    exact ⟨h.1, fun c hc => isDigit_iff.1 (h.2 c hc)⟩

/-- The first digits of a text are all its digits before anything else. -/
theorem Digits.cut {digits : List Char} (h : Digits digits) (rest : List Char)
    (hrest : rest.head?.any Char.isDigit = false) :
    (digits ++ rest).takeWhile Char.isDigit = digits ∧
      (digits ++ rest).dropWhile Char.isDigit = rest := by
  have hdigits := (digits_iff.1 h).2
  have hstop : rest.takeWhile Char.isDigit = [] ∧ rest.dropWhile Char.isDigit = rest := by
    cases rest with
    | nil => simp
    | cons c rest =>
      have hc : c.isDigit = false := hrest
      simp [hc]
  rw [List.takeWhile_append_of_pos hdigits, List.dropWhile_append_of_pos hdigits, hstop.1,
    hstop.2, List.append_nil]
  exact ⟨rfl, rfl⟩

/-! ### Patterns -/

/-- The texts of the pattern for digits. -/
theorem mem_digits {text : List Char} : text ∈ Pattern.digits.language ↔ Digits text := by
  rw [Pattern.digits, Pattern.mem_atLeastOne_oneOf]
  constructor
  · intro h
    exact ⟨h.1, h.2⟩
  · intro h
    exact ⟨h.nonempty, h.decimal⟩

/-! ### Arithmetic -/

namespace Arithmetic

/-- The texts of the pattern for a number. -/
theorem mem_number {text : List Char} :
    text ∈ (Pattern.seq .digits (.optional (.seq (.oneOf ['.']) .digits))).language ↔
      PlainNumber text := by
  rw [Pattern.mem_seq]
  constructor
  · intro h
    obtain ⟨whole, hwhole, rest, hrest, rfl⟩ := h
    obtain rfl | hrest := Pattern.mem_optional.1 hrest
    · rw [List.append_nil]
      exact .whole (mem_digits.1 hwhole)
    · obtain ⟨point, hpoint, fraction, hfraction, rfl⟩ := Pattern.mem_seq_oneOf.1 hrest
      rw [List.mem_singleton.1 hpoint]
      exact .fractional (mem_digits.1 hwhole) (mem_digits.1 hfraction)
  · intro h
    cases h with
    | whole h => exact ⟨_, mem_digits.2 h, [], Pattern.mem_optional.2 (.inl rfl), List.append_nil _⟩
    | fractional h hfraction =>
      refine ⟨_, mem_digits.2 h, _, Pattern.mem_optional.2 (.inr ?_), rfl⟩
      exact Pattern.mem_seq_oneOf.2
        ⟨'.', List.mem_singleton_self _, _, mem_digits.2 hfraction, rfl⟩

/-- The accepted texts are steps of arithmetic. -/
theorem accepts_iff {text : String} : accepts text = true ↔ Written text := by
  rw [accepts, Pattern.accepts_iff, pattern, Pattern.mem_seq_oneOf]
  constructor
  · intro h
    obtain ⟨operator, hoperator, number, hnumber, htext⟩ := h
    exact ⟨operator, number, hoperator, mem_number.1 hnumber, htext⟩
  · intro h
    obtain ⟨operator, number, hoperator, hnumber, htext⟩ := h
    exact ⟨operator, hoperator, number, mem_number.2 hnumber, htext⟩

end Arithmetic

/-! ### Durations -/

namespace Duration

/-- No unit begins with a digit, so the amount ends where the unit begins. -/
theorem Written.cut {text : String} {amount : List Char} {unit : String}
    (h : Written text amount unit) :
    text.toList.takeWhile Char.isDigit = amount ∧
      text.toList.dropWhile Char.isDigit = unit.toList := by
  have hunits : ∀ u ∈ ["ns", "u", "\u00b5", "ms", "s", "m", "h", "d", "w"],
      u.toList.head?.any Char.isDigit = false := by decide
  rw [h.joined]
  exact h.counted.cut unit.toList (hunits unit h.known)

/-- A duration is read in one way. -/
theorem Written.unique {text : String} {amount amount' : List Char} {unit unit' : String}
    (h : Written text amount unit) (h' : Written text amount' unit') :
    amount = amount' ∧ unit = unit' := by
  have hunit : unit.toList = unit'.toList := h.cut.2.symm.trans h'.cut.2
  exact ⟨h.cut.1.symm.trans h'.cut.1, String.toList_injective hunit⟩

/-- The texts of the patterns for the units. -/
theorem mem_units {text : List Char} :
    text ∈ (Pattern.anyOf (units.map Pattern.word)).language ↔
      ∃ unit ∈ units, text = unit.toList := by
  rw [Pattern.mem_anyOf]
  constructor
  · intro h
    obtain ⟨p, hp, htext⟩ := h
    obtain ⟨unit, hunit, rfl⟩ := List.mem_map.1 hp
    exact ⟨unit, hunit, Pattern.mem_word.1 htext⟩
  · intro h
    obtain ⟨unit, hunit, htext⟩ := h
    exact ⟨.word unit, List.mem_map_of_mem hunit, Pattern.mem_word.2 htext⟩

/-- The accepted texts are durations. -/
theorem accepts_iff {text : String} :
    accepts text = true ↔ ∃ amount unit, Written text amount unit := by
  rw [accepts, Pattern.accepts_iff, pattern, Pattern.mem_seq]
  constructor
  · intro h
    obtain ⟨amount, hamount, rest, hrest, htext⟩ := h
    obtain ⟨unit, hunit, rfl⟩ := mem_units.1 hrest
    exact ⟨amount, unit, mem_digits.1 hamount, hunit, htext.symm⟩
  · intro h
    obtain ⟨amount, unit, h⟩ := h
    exact ⟨amount, mem_digits.2 h.counted, unit.toList, mem_units.2 ⟨unit, h.known, rfl⟩,
      h.joined.symm⟩

end Duration

/-- **What goes into a query as it is has one of two forms.** Arithmetic is an operator and a
    number, which has digits and maybe a point with more digits after it. A duration is digits and
    one unit, and it is read in exactly one way. Nothing may stand before or after them. -/
theorem accepts_iff_written (text : String) :
    (Arithmetic.accepts text = true ↔ Arithmetic.Written text) ∧
      (Duration.accepts text = true ↔
        ∃! parts : List Char × String, Duration.Written text parts.1 parts.2) := by
  refine ⟨Arithmetic.accepts_iff, ?_⟩
  rw [Duration.accepts_iff]
  constructor
  · intro h
    obtain ⟨amount, unit, h⟩ := h
    refine ⟨(amount, unit), h, fun parts hparts => ?_⟩
    obtain ⟨hamount, hunit⟩ := hparts.unique h
    exact Prod.ext hamount hunit
  · intro h
    obtain ⟨parts, hparts, -⟩ := h
    exact ⟨parts.1, parts.2, hparts⟩

/-- A digit of another script, a comma and a line feed at the end are refused. -/
example : Arithmetic.accepts "*\u0662" = false ∧ Arithmetic.accepts "+1,5" = false ∧
    Duration.accepts "5m\n" = false ∧ Duration.accepts "5ms" = true := by decide

end SeriesBroker
