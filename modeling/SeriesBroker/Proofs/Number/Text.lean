import Mathlib.Data.Bool.AllAny
import SeriesBroker.Json.Number
import SeriesBroker.Proofs.Request.Grammar

/-! # The form of numbers in a text

    Numbers, steps of arithmetic and durations go into a query without quotation marks, so it
    matters which characters they can have. They are all made around a run of digits and points
    (`NumericRun`):

    - a number has at most a minus sign before it, and an `e` with a sign and another run after
      it (`Json.Number.decimal_text`);
    - arithmetic has one operator before it (`Arithmetic.run_of_accepts`);
    - a duration has one of the known units after it (`Duration.run_of_accepts`).
-/

namespace SeriesBroker

/-! ### Runs of digits -/

def Numeric (c : Char) : Prop := c.isDigit ∨ c = '.'

instance (c : Char) : Decidable (Numeric c) := by
  unfold Numeric; infer_instance

/-- Whatever is no digit and no point is another character. -/
theorem Numeric.ne {c d : Char} (hc : Numeric c) (hd : ¬ Numeric d) : c ≠ d := by
  rintro rfl
  exact hd hc

/-- One or more digits and points. -/
structure NumericRun (text : List Char) : Prop where
  nonempty : text ≠ []
  numeric : ∀ c ∈ text, Numeric c

/-- Digits are a run. -/
theorem NumericRun.of_digits {text : List Char} (hne : text ≠ [])
    (h : ∀ c ∈ text, c.isDigit) : NumericRun text :=
  ⟨hne, fun c hc => .inl (h c hc)⟩

/-- The digits of a natural number are a run. -/
theorem NumericRun.toDigits (n : Nat) : NumericRun (Nat.toDigits 10 n) :=
  .of_digits Nat.toDigits_ne_nil fun _ hc => Nat.isDigit_of_mem_toDigits (by decide) (by decide) hc

/-! ### Numbers -/

/-- A number without a minus sign. -/
inductive UnsignedText : List Char → Prop where
  | plain {mantissa : List Char} (h : NumericRun mantissa) : UnsignedText mantissa
  /-- With a power of ten, whose sign is always written. -/
  | scaled {mantissa power : List Char} {sign : Char} (h : NumericRun mantissa)
      (hsign : sign = '+' ∨ sign = '-') (hpower : NumericRun power) :
      UnsignedText (mantissa ++ 'e' :: sign :: power)

inductive DecimalText : List Char → Prop where
  | unsigned {text : List Char} (h : UnsignedText text) : DecimalText text
  | negative {text : List Char} (h : UnsignedText text) : DecimalText ('-' :: text)

/-- A number has no other characters than digits, the point, `e` and the two signs. -/
theorem DecimalText.mem {text : List Char} (h : DecimalText text) {c : Char} (hc : c ∈ text) :
    Numeric c ∨ c ∈ ['e', '+', '-'] := by
  have hunsigned : ∀ {text : List Char}, UnsignedText text → c ∈ text →
      Numeric c ∨ c ∈ ['e', '+', '-'] := by
    intro text h hc
    cases h with
    | plain h => exact .inl (h.numeric c hc)
    | scaled h hsign hpower =>
      rcases List.mem_append.1 hc with hc | hc
      · exact .inl (h.numeric c hc)
      · rcases List.mem_cons.1 hc with rfl | hc
        · exact .inr (by decide)
        · rcases List.mem_cons.1 hc with rfl | hc
          · rcases hsign with rfl | rfl
            · exact .inr (by decide)
            · exact .inr (by decide)
          · exact .inl (hpower.numeric c hc)
  cases h with
  | unsigned h => exact hunsigned h hc
  | negative h =>
    rcases List.mem_cons.1 hc with rfl | hc
    · exact .inr (by decide)
    · exact hunsigned h hc

namespace Json

theorem decimal_intText (value : Int) : DecimalText (intText value) := by
  unfold intText
  split
  · exact .negative (.plain (.toDigits _))
  · exact .unsigned (.plain (.toDigits _))

end Json

namespace Binary64

/-- A positional layout adds zeros and a point to the digits. -/
theorem unsigned_layoutPositional {digits : List Char} (h : NumericRun digits) (exponent : Int) :
    UnsignedText (layoutPositional digits exponent) := by
  have hpoint : Numeric '.' := .inr rfl
  have hzero : Numeric '0' := .inl (by decide)
  have hzeros : ∀ n, ∀ c ∈ List.replicate n '0', Numeric c := by
    intro n c hc
    rw [List.eq_of_mem_replicate hc]
    exact hzero
  apply UnsignedText.plain
  unfold layoutPositional
  dsimp only
  split
  · -- Zeros and an empty fraction after the digits.
    refine ⟨by simp, fun c hc => ?_⟩
    rcases List.mem_append.1 hc with hc | hc
    · rcases List.mem_append.1 hc with hc | hc
      · exact h.numeric c hc
      · exact hzeros _ c hc
    · rcases List.mem_cons.1 hc with rfl | hc
      · exact hpoint
      · rw [List.mem_singleton.1 hc]
        exact hzero
  · split
    · -- A point between the digits.
      refine ⟨by simp, fun c hc => ?_⟩
      rcases List.mem_append.1 hc with hc | hc
      · exact h.numeric c (List.mem_of_mem_take hc)
      · rcases List.mem_cons.1 hc with rfl | hc
        · exact hpoint
        · exact h.numeric c (List.mem_of_mem_drop hc)
    · -- Zeros with a point before the digits.
      refine ⟨by simp, fun c hc => ?_⟩
      rcases List.mem_cons.1 hc with rfl | hc
      · exact hzero
      · rcases List.mem_cons.1 hc with rfl | hc
        · exact hpoint
        · rcases List.mem_append.1 hc with hc | hc
          · exact hzeros _ c hc
          · exact h.numeric c hc

/-- A scientific layout has at most a point after the first digit. -/
theorem unsigned_layoutScientific {digits : List Char} (h : NumericRun digits)
    (exponent : Int) : UnsignedText (layoutScientific digits exponent) := by
  have hsign : ∀ power : Int, (if power < 0 then '-' else '+') = '+' ∨
      (if power < 0 then '-' else '+') = '-' := by
    intro power
    split
    · exact .inr rfl
    · exact .inl rfl
  cases digits with
  | nil => exact absurd rfl h.nonempty
  | cons d rest =>
    cases rest with
    | nil => exact .scaled h (hsign _) (.toDigits _)
    | cons e rest =>
      have hmantissa : NumericRun (d :: '.' :: e :: rest) := by
        refine ⟨by simp, fun c hc => ?_⟩
        rcases List.mem_cons.1 hc with rfl | hc
        · exact h.numeric _ List.mem_cons_self
        · rcases List.mem_cons.1 hc with rfl | hc
          · exact .inr rfl
          · exact h.numeric c (List.mem_cons_of_mem _ hc)
      exact .scaled hmantissa (hsign _) (.toDigits _)

theorem decimal_text (x : Binary64) : DecimalText x.text := by
  have hunsigned : ∀ (digits : Nat) (exponent : Int), UnsignedText
      (if x.significand = 0 then ['0', '.', '0']
      else if positional ((Nat.toDigits 10 digits).length + exponent - 1) then
        layoutPositional (Nat.toDigits 10 digits) exponent
      else layoutScientific (Nat.toDigits 10 digits) exponent) := by
    intro digits exponent
    split
    · exact .plain ⟨by decide, List.all_iff_forall_prop.1 (by decide)⟩
    · split
      · exact unsigned_layoutPositional (.toDigits _) _
      · exact unsigned_layoutScientific (.toDigits _) _
  unfold text
  dsimp only
  split
  · exact .negative (hunsigned _ _)
  · exact .unsigned (hunsigned _ _)

end Binary64

/-- The text of a number has the form of one. -/
theorem Json.Number.decimal_text (n : Json.Number) : DecimalText n.text := by
  cases n with
  | integer value fits => exact Json.decimal_intText value
  | float value => exact value.decimal_text

/-! ### Arithmetic and durations -/

theorem Digits.run {text : List Char} (h : Digits text) : NumericRun text :=
  .of_digits h.nonempty (digits_iff.1 h).2

theorem PlainNumber.run {text : List Char} (h : PlainNumber text) : NumericRun text := by
  cases h with
  | whole h => exact h.run
  | fractional h hfraction =>
    refine ⟨by simp, fun c hc => ?_⟩
    rcases List.mem_append.1 hc with hc | hc
    · exact h.run.numeric c hc
    · rcases List.mem_cons.1 hc with rfl | hc
      · exact .inr rfl
      · exact hfraction.run.numeric c hc

/-- A step of arithmetic is an operator with a run. -/
theorem Arithmetic.run_of_accepts {text : String} (h : Arithmetic.accepts text) :
    ∃ operator run, text.toList = operator :: run ∧ operator ∈ operators ∧ NumericRun run := by
  obtain ⟨operator, number, hoperator, hnumber, htext⟩ := accepts_iff.1 h
  exact ⟨operator, number, htext, hoperator, hnumber.run⟩

/-- A duration is a run with a unit. -/
theorem Duration.run_of_accepts {text : String} (h : Duration.accepts text) :
    ∃ run, ∃ unit ∈ units, text.toList = run ++ unit.toList ∧ NumericRun run := by
  obtain ⟨amount, unit, hwritten⟩ := accepts_iff.1 h
  exact ⟨amount, unit, hwritten.known, hwritten.joined, hwritten.counted.run⟩

end SeriesBroker
