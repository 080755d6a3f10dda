import SeriesBroker.Json.Token
import SeriesBroker.Proofs.Number.Shortest
import SeriesBroker.Proofs.Time.Digits

/-! # Numbers are read back

    The text of a number is a literal (`Number.exists_literal`), and a reader that meets a literal
    finds its parts again (`readNumber_chars`). For an integer the digits are its own. For a float
    they are the shortest decimal in one of four layouts, and however the point and the exponent
    are set, the parts denote that decimal. So every number is read back from its text
    (`readNumber_text`), floats bit by bit, if the reader finds the floats again that are written
    (`LawfulFloatReader`). The one that finds the nearest float does.
-/

namespace SeriesBroker

open Text (Symbol)

/-! ### Digits -/

/-- A positive number does not start with a zero. -/
theorem toDigits_ne_zero_cons {n : ℕ} (hn : 0 < n) (rest : List Char) :
    Nat.toDigits 10 n ≠ '0' :: rest := by
  intro h
  have hvalue : Nat.ofDigitChars 10 (Nat.toDigits 10 n) 0 = n := Nat.ofDigitChars_ten_toDigits
  have hdigits : ∀ c ∈ Nat.toDigits 10 n, c.isDigit = true :=
    fun c hc => Nat.isDigit_of_mem_toDigits (by decide) (by decide) hc
  rw [h] at hvalue hdigits
  have hrest : Nat.ofDigitChars 10 rest 0 = n := hvalue
  have hlt := Timestamp.ofDigitChars_lt fun c hc => hdigits c (List.mem_cons_of_mem _ hc)
  rw [hrest] at hlt
  by_cases hempty : rest.length = 0
  · rw [hempty] at hlt
    omega
  · have hle := (Nat.length_toDigits_le_iff (by decide) (by omega)).2 hlt
    rw [h, List.length_cons] at hle
    omega

namespace Json

/-! ### Literals -/

/-- The text of a fraction with its point. -/
def fractionChars : Option (List Char) → List Char
  | none => []
  | some digits => '.' :: digits

/-- The text of an exponent. It always has a sign. -/
def exponentChars : Option ℤ → List Char
  | none => []
  | some power => 'e' :: (if power < 0 then '-' else '+') :: Nat.toDigits 10 power.natAbs

def Literal.chars (l : Literal) : List Char :=
  (if l.negative then ['-'] else []) ++
    (l.whole ++ (fractionChars l.fraction ++ exponentChars l.power))

/-- The signs of an exponent. A missing one is positive. -/
inductive SignText : Bool → List Char → Prop where
  | missing : SignText false []
  | plus : SignText false ['+']
  | minus : SignText true ['-']

/-- All texts of an exponent: an `e` in either case, a sign and digits, which may start with
    zeros. -/
inductive ExponentText : Option ℤ → List Char → Prop where
  | missing : ExponentText none []
  | written {letter : Char} {negative : Bool} {sign digits : List Char}
      (hletter : letter = 'e' ∨ letter = 'E') (hsign : SignText negative sign)
      (hne : digits ≠ []) (hdigits : ∀ c ∈ digits, c.isDigit = true) :
      ExponentText
        (some (if negative then -(Nat.ofDigitChars 10 digits 0 : ℤ)
          else Nat.ofDigitChars 10 digits 0))
        (letter :: (sign ++ digits))

/-- A literal with another text of its exponent. -/
def Literal.charsWith (l : Literal) (exponent : List Char) : List Char :=
  (if l.negative then ['-'] else []) ++ (l.whole ++ (fractionChars l.fraction ++ exponent))

/-- The parts of a literal have digits, and a zero stands alone before the point. -/
structure Literal.WellFormed (l : Literal) : Prop where
  whole_ne : l.whole ≠ []
  whole : ∀ c ∈ l.whole, c.isDigit = true
  alone : ∀ rest, l.whole = '0' :: rest → rest = []
  fraction_ne : l.fraction ≠ some []
  fraction : ∀ digits ∈ l.fraction, ∀ c ∈ digits, c.isDigit = true

/-- A text that does not continue a number. -/
def Apart (rest : List Symbol) : Prop :=
  ∀ c, rest.head? = some (some c) → c.isDigit = false ∧ c ∉ ['.', 'e', 'E']

def NoDigit (rest : List Symbol) : Prop := ∀ s ∈ rest.head?, isDigitSymbol s = false

theorem Apart.noDigit {rest : List Symbol} (h : Apart rest) : NoDigit rest := by
  intro s hs
  cases s with
  | none => rfl
  | some c => exact (h c hs).1

theorem readDigits_append {digits : List Char} (hdigits : ∀ c ∈ digits, c.isDigit = true)
    {rest : List Symbol} (hrest : NoDigit rest) :
    readDigits (digits.map some ++ rest) = (digits, rest) := by
  have hall : ∀ s ∈ digits.map some, isDigitSymbol s = true := by
    intro s hs
    obtain ⟨c, hc, rfl⟩ := List.mem_map.1 hs
    exact hdigits c hc
  have hstop : rest.takeWhile isDigitSymbol = [] ∧ rest.dropWhile isDigitSymbol = rest := by
    cases rest with
    | nil => exact ⟨rfl, rfl⟩
    | cons s rest =>
      have hs := hrest s rfl
      rw [List.takeWhile_cons, List.dropWhile_cons, hs]
      exact ⟨rfl, rfl⟩
  unfold readDigits
  rw [List.takeWhile_append_of_pos hall, List.dropWhile_append_of_pos hall, hstop.1, hstop.2,
    List.append_nil, List.filterMap_map]
  simp

/-- The fraction of a literal is read back if what follows continues neither it nor the whole
    part. -/
theorem readFraction_append {l : Literal} (h : l.WellFormed) {rest : List Symbol}
    (hdigit : NoDigit rest) (hpoint : rest.head? ≠ some (some '.')) :
    readFraction ((fractionChars l.fraction).map some ++ rest) = some (l.fraction, rest) := by
  cases hfraction : l.fraction with
  | none =>
    show readFraction rest = some (none, rest)
    unfold readFraction
    split
    · exact absurd rfl hpoint
    · rfl
  | some digits =>
    have hread := readDigits_append (h.fraction digits hfraction) hdigit
    show readFraction (some '.' :: (digits.map some ++ rest)) = some (some digits, rest)
    unfold readFraction
    simp only
    rw [hread]
    split
    · next heq =>
      have hnil : digits = [] := congrArg Prod.fst heq
      rw [hnil] at hfraction
      exact absurd hfraction h.fraction_ne
    · next heq =>
      cases heq
      rfl

/-- The exponent that is written is one of its texts. -/
theorem exponentText_chars (power : Option ℤ) : ExponentText power (exponentChars power) := by
  cases power with
  | none => exact .missing
  | some power =>
    have hdigits : ∀ c ∈ Nat.toDigits 10 power.natAbs, c.isDigit = true :=
      fun c hc => Nat.isDigit_of_mem_toDigits (by decide) (by decide) hc
    have hvalue : Nat.ofDigitChars 10 (Nat.toDigits 10 power.natAbs) 0 = power.natAbs :=
      Nat.ofDigitChars_ten_toDigits
    by_cases hpower : power < 0
    · have htext := ExponentText.written (.inl rfl) .minus Nat.toDigits_ne_nil hdigits
      have hsame : -(power.natAbs : ℤ) = power := by omega
      rw [hvalue, if_pos rfl, hsame] at htext
      simpa [exponentChars, hpower] using htext
    · have htext := ExponentText.written (.inl rfl) .plus Nat.toDigits_ne_nil hdigits
      have hsame : (power.natAbs : ℤ) = power := by omega
      rw [hvalue, if_neg Bool.false_ne_true, hsame] at htext
      simpa [exponentChars, hpower] using htext

/-- A sign is read up to the digits behind it. -/
theorem readSign_append {negative : Bool} {sign : List Char} (h : SignText negative sign)
    {digits : List Char} (hne : digits ≠ []) (hdigits : ∀ c ∈ digits, c.isDigit = true)
    (rest : List Symbol) :
    readSign (sign.map some ++ (digits.map some ++ rest)) =
      (negative, digits.map some ++ rest) := by
  cases h with
  | plus => rfl
  | minus => rfl
  | missing =>
    -- A digit is no sign.
    obtain ⟨d, digits, rfl⟩ := List.exists_cons_of_ne_nil hne
    have hd := hdigits d List.mem_cons_self
    show readSign (some d :: (digits.map some ++ rest)) = _
    unfold readSign
    split
    · next heq =>
      obtain rfl := Option.some.inj (List.cons.inj heq).1
      exact absurd hd (by decide)
    · next heq =>
      obtain rfl := Option.some.inj (List.cons.inj heq).1
      exact absurd hd (by decide)
    · rfl

/-- An exponent is read back, however it is written. -/
theorem readExponent_append {power : Option ℤ} {exponent : List Char}
    (h : ExponentText power exponent) {rest : List Symbol} (hrest : Apart rest) :
    readExponent (exponent.map some ++ rest) = some (power, rest) := by
  cases h with
  | missing =>
    -- What comes after a number has no letter with which an exponent starts.
    show readExponent rest = some (none, rest)
    unfold readExponent
    split
    · next c after =>
      have hc := (hrest c rfl).2
      rw [if_neg]
      intro heq
      apply hc
      rcases heq with rfl | rfl
      · decide
      · decide
    · rfl
  | @written letter negative sign digits hletter hsign hne hdigits =>
    have hread := readDigits_append hdigits hrest.noDigit
    rw [List.map_cons, List.map_append, List.cons_append, List.append_assoc]
    unfold readExponent
    simp only [hletter, if_true]
    rw [readSign_append hsign hne hdigits]
    simp only
    rw [hread]
    split
    · next heq => exact absurd (congrArg Prod.fst heq) hne
    · next heq =>
      cases heq
      rfl

theorem noDigit_exponentText {power : Option ℤ} {exponent : List Char}
    (h : ExponentText power exponent) {rest : List Symbol} (hrest : Apart rest) :
    NoDigit (exponent.map some ++ rest) := by
  intro s hs
  cases h with
  | missing => exact hrest.noDigit s hs
  | written hletter hsign hne hdigits =>
    obtain rfl := Option.some.inj hs
    rcases hletter with rfl | rfl
    · rfl
    · rfl

theorem noDigit_fractionChars (fraction : Option (List Char)) {rest : List Symbol}
    (h : NoDigit rest) : NoDigit ((fractionChars fraction).map some ++ rest) := by
  intro s hs
  cases fraction with
  | none => exact h s hs
  | some digits =>
    cases hs
    rfl

theorem head?_exponentText {power : Option ℤ} {exponent : List Char}
    (h : ExponentText power exponent) {rest : List Symbol} (hrest : Apart rest) :
    (exponent.map some ++ rest).head? ≠ some (some '.') := by
  intro hpoint
  cases h with
  | missing => exact (hrest '.' hpoint).2 (by decide)
  | written hletter hsign hne hdigits =>
    obtain rfl := Option.some.inj (Option.some.inj hpoint)
    exact absurd hletter (by decide)

/-- The parts of a literal after its sign. -/
theorem readUnsigned_append {l : Literal} (h : l.WellFormed) {exponent : List Char}
    (hexponent : ExponentText l.power exponent) {rest : List Symbol} (hrest : Apart rest) :
    readUnsigned l.negative (l.whole.map some ++ ((fractionChars l.fraction).map some ++
      (exponent.map some ++ rest))) = some (l, rest) := by
  have hstop := noDigit_exponentText hexponent hrest
  have hwhole := readDigits_append h.whole (noDigit_fractionChars l.fraction hstop)
  have hfraction := readFraction_append h hstop (head?_exponentText hexponent hrest)
  have hpower := readExponent_append hexponent hrest
  unfold readUnsigned
  rw [hwhole]
  split
  · next heq => exact absurd (congrArg Prod.fst heq) h.whole_ne
  · next heq => exact absurd (h.alone _ (congrArg Prod.fst heq)) (by simp)
  · next heq =>
    cases heq
    rw [hfraction]
    show (readExponent _ >>= fun r => _) = _
    rw [hpower]
    rfl

/-- **A literal is read back**, however its exponent is written. -/
theorem readNumber_charsWith [FloatReader] {l : Literal} (h : l.WellFormed) {exponent : List Char}
    (hexponent : ExponentText l.power exponent) {rest : List Symbol} (hrest : Apart rest) :
    readNumber ((l.charsWith exponent).map some ++ rest) = some (.number l.number?, rest) := by
  have hunsigned := readUnsigned_append h hexponent hrest
  unfold readNumber Literal.charsWith
  cases hnegative : l.negative with
  | true =>
    rw [hnegative] at hunsigned
    simp only [if_true, List.cons_append, List.nil_append, List.map_cons, List.map_append,
      List.append_assoc]
    rw [hunsigned]
    rfl
  | false =>
    rw [hnegative] at hunsigned
    simp only [Bool.false_eq_true, if_false, List.nil_append, List.map_append,
      List.append_assoc]
    -- The text starts with a digit, so it has no sign.
    split
    · next heq =>
      obtain ⟨c, whole, hwhole⟩ := List.exists_cons_of_ne_nil h.whole_ne
      have hc := h.whole c (by rw [hwhole]; exact List.mem_cons_self)
      rw [hwhole] at heq
      cases heq
      exact absurd hc (by decide)
    · rw [hunsigned]
      rfl

theorem readNumber_chars [FloatReader] {l : Literal} (h : l.WellFormed) {rest : List Symbol}
    (hrest : Apart rest) :
    readNumber (l.chars.map some ++ rest) = some (.number l.number?, rest) :=
  readNumber_charsWith h (exponentText_chars l.power) hrest

/-- A literal starts with a digit or its sign. -/
theorem Literal.WellFormed.charsWith_eq_cons {l : Literal} (h : l.WellFormed)
    (exponent : List Char) :
    ∃ c rest, l.charsWith exponent = c :: rest ∧ (c.isDigit = true ∨ c = '-') := by
  obtain ⟨c, whole, hwhole⟩ := List.exists_cons_of_ne_nil h.whole_ne
  have hc := h.whole c (by rw [hwhole]; exact List.mem_cons_self)
  unfold Literal.charsWith
  rw [hwhole]
  cases l.negative with
  | true => exact ⟨'-', _, rfl, .inr rfl⟩
  | false => exact ⟨c, _, rfl, .inl hc⟩

/-! ### Integers -/

def integerLiteral (value : ℤ) : Literal :=
  ⟨decide (value < 0), Nat.toDigits 10 value.natAbs, none, none⟩

theorem chars_integerLiteral (value : ℤ) : (integerLiteral value).chars = intText value := by
  unfold Literal.chars integerLiteral intText
  by_cases h : value < 0
  · simp [h, fractionChars, exponentChars]
  · simp [h, fractionChars, exponentChars]

theorem wellFormed_integerLiteral (value : ℤ) : (integerLiteral value).WellFormed where
  whole_ne := Nat.toDigits_ne_nil
  whole := fun _ hc => Nat.isDigit_of_mem_toDigits (by decide) (by decide) hc
  alone := by
    intro rest h
    by_cases hzero : value.natAbs = 0
    · unfold integerLiteral at h
      rw [hzero] at h
      exact (List.cons.inj h).2.symm
    · exact absurd h (toDigits_ne_zero_cons (by omega) rest)
  fraction_ne := by simp [integerLiteral]
  fraction := by simp [integerLiteral]

theorem integer?_integerLiteral (value : ℤ) :
    (integerLiteral value).integer? = Number.ofInt? value := by
  have hdigits : Nat.ofDigitChars 10 (Nat.toDigits 10 value.natAbs) 0 = value.natAbs :=
    Nat.ofDigitChars_ten_toDigits
  have hvalue : (if value < 0 then -(value.natAbs : ℤ) else value.natAbs) = value := by
    split
    · omega
    · omega
  -- The literal of zero has no sign.
  have hzero : ¬ (decide (value < 0) && value.natAbs == 0) = true := by
    simp only [Bool.and_eq_true, decide_eq_true_eq, beq_iff_eq]
    omega
  unfold integerLiteral Literal.integer?
  simp only
  rw [hdigits, if_neg hzero]
  simp only [decide_eq_true_eq]
  rw [hvalue]

/-- An integer that fits 64 bits is read exactly. -/
theorem number?_integerLiteral [FloatReader] {value : ℤ}
    (fits : leastInteger ≤ value ∧ value < integerBound) :
    (integerLiteral value).number? = some (.integer value fits) := by
  rw [Literal.number?, integer?_integerLiteral, Number.ofInt?, dif_pos fits, Option.some_or]

/-- An integer of more than 64 bits is read as a float, if it is a number at all. -/
theorem number?_integerLiteral_ne [FloatReader] {value : ℤ}
    (h : ¬ (leastInteger ≤ value ∧ value < integerBound)) {n : ℤ}
    (fits : leastInteger ≤ n ∧ n < integerBound) :
    (integerLiteral value).number? ≠ some (.integer n fits) := by
  rw [Literal.number?, integer?_integerLiteral, Number.ofInt?, dif_neg h, Option.none_or]
  intro hnumber
  obtain ⟨x, -, hx⟩ := Option.map_eq_some_iff.1 hnumber
  cases hx

/-! ### Floats -/

/-- A literal below one has a single zero before the point. -/
theorem wellFormed_belowOne (negative : Bool) {fraction : List Char} (hne : fraction ≠ [])
    (hdigits : ∀ c ∈ fraction, c.isDigit = true) :
    (⟨negative, ['0'], some fraction, none⟩ : Literal).WellFormed where
  whole_ne := by simp
  whole := fun _ hc => Timestamp.isDigit_of_mem_zeros (n := 1) hc
  alone := fun _ heq => (List.cons.inj heq).2.symm
  fraction_ne := by simpa using hne
  fraction := by
    intro digits heq
    cases heq
    exact hdigits

/-- The number that a literal stands for, before it is rounded. -/
def Literal.decimal (l : Literal) : ℚ :=
  Nat.ofDigitChars 10 (l.whole ++ l.fraction.getD []) 0 *
    10 ^ (l.power.getD 0 - (l.fraction.getD []).length)

/-- The nearest float of a decimal is the one that encloses it. -/
theorem nearestFloat_of_encloses {x : Binary64} (hm : 0 < x.significand) {l : Literal}
    (hsign : l.negative = x.negative) (h : x.Encloses l.decimal) :
    nearestFloat.float? l = some x := by
  have hread := Binary64.ofDecimal_of_encloses hm h
  rw [← hsign] at hread
  exact hread

/-- A literal with a fraction or an exponent is no integer. -/
theorem Literal.integer?_eq_none {l : Literal} (h : l.fraction.isSome ∨ l.power.isSome) :
    l.integer? = none := by
  unfold Literal.integer?
  split
  · next hfraction hpower =>
    rw [hfraction, hpower] at h
    simp at h
  · rfl

/-- Digits of a positive number, from its first one on. -/
structure Leading (digits : List Char) : Prop where
  ne : digits ≠ []
  digit : ∀ c ∈ digits, c.isDigit = true
  positive : ∀ rest, digits ≠ '0' :: rest

theorem Leading.toDigits {n : ℕ} (hn : 0 < n) : Leading (Nat.toDigits 10 n) where
  ne := Nat.toDigits_ne_nil
  digit := fun _ hc => Nat.isDigit_of_mem_toDigits (by decide) (by decide) hc
  positive := toDigits_ne_zero_cons hn

section layouts

variable (negative : Bool) (digits : List Char) (exponent : ℤ)

/-- The literal of a positional layout. -/
def positionalLiteral : Literal :=
  if 0 ≤ exponent then
    ⟨negative, digits ++ List.replicate exponent.toNat '0', some ['0'], none⟩
  else if 0 < digits.length + exponent then
    ⟨negative, digits.take (digits.length + exponent).toNat,
      some (digits.drop (digits.length + exponent).toNat), none⟩
  else
    ⟨negative, ['0'], some (List.replicate (-(digits.length + exponent)).toNat '0' ++ digits),
      none⟩

/-- The literal of a scientific layout. -/
def scientificLiteral : Literal :=
  ⟨negative, digits.take 1, if digits.length ≤ 1 then none else some (digits.drop 1),
    some (digits.length + exponent - 1)⟩

theorem chars_positionalLiteral :
    (positionalLiteral negative digits exponent).chars =
      (if negative then ['-'] else []) ++ Binary64.layoutPositional digits exponent := by
  unfold positionalLiteral Binary64.layoutPositional Literal.chars
  simp only
  split
  · simp [fractionChars, exponentChars]
  · split
    · simp [fractionChars, exponentChars]
    · simp [fractionChars, exponentChars]

/-- A positional literal keeps the sign and always has a fraction. -/
theorem parts_positionalLiteral :
    (positionalLiteral negative digits exponent).negative = negative ∧
      (positionalLiteral negative digits exponent).fraction.isSome := by
  unfold positionalLiteral
  split
  · exact ⟨rfl, rfl⟩
  · split
    · exact ⟨rfl, rfl⟩
    · exact ⟨rfl, rfl⟩

theorem chars_scientificLiteral (h : digits ≠ []) :
    (scientificLiteral negative digits exponent).chars =
      (if negative then ['-'] else []) ++ Binary64.layoutScientific digits exponent := by
  unfold scientificLiteral Binary64.layoutScientific Literal.chars
  cases digits with
  | nil => exact absurd rfl h
  | cons d rest =>
    cases rest with
    | nil => simp [fractionChars, exponentChars]
    | cons e rest => simp [fractionChars, exponentChars]

variable {digits} (h : Leading digits)

include h

theorem wellFormed_positionalLiteral :
    (positionalLiteral negative digits exponent).WellFormed := by
  have hzeros : ∀ n, ∀ c ∈ List.replicate n '0', c.isDigit = true :=
    fun n c hc => Timestamp.isDigit_of_mem_zeros hc
  obtain ⟨d, rest, rfl⟩ := List.exists_cons_of_ne_nil h.ne
  have hd : d ≠ '0' := fun heq => h.positive rest (by rw [heq])
  have hlength : (d :: rest).length = rest.length + 1 := rfl
  unfold positionalLiteral
  split
  · -- Zeros after the digits, and a fraction of one more zero.
    refine ⟨by simp, fun c hc => ?_, fun _ heq => absurd (List.cons.inj heq).1 hd, by simp, ?_⟩
    · rcases List.mem_append.1 hc with hc | hc
      · exact h.digit c hc
      · exact hzeros _ c hc
    · intro fraction hfraction
      cases hfraction
      exact fun _ hc => Timestamp.isDigit_of_mem_zeros (n := 1) hc
  · split
    · next hsign hpoint =>
      -- The point stands after the first digit or a later one, and before the last.
      obtain ⟨n, hn⟩ : ∃ n, ((d :: rest).length + exponent).toNat = n + 1 :=
        ⟨_, (Nat.succ_pred_eq_of_pos (by omega)).symm⟩
      have hmore : n < rest.length := by omega
      rw [hn, List.take_succ_cons, List.drop_succ_cons]
      refine ⟨by simp, fun c hc => ?_, fun _ heq => absurd (List.cons.inj heq).1 hd, ?_, ?_⟩
      · rcases List.mem_cons.1 hc with rfl | hc
        · exact h.digit c List.mem_cons_self
        · exact h.digit c (List.mem_cons_of_mem _ (List.mem_of_mem_take hc))
      · intro heq
        have hnil := congrArg List.length (Option.some.inj heq)
        rw [List.length_drop, List.length_nil] at hnil
        omega
      · intro fraction hfraction c hc
        cases hfraction
        exact h.digit c (List.mem_cons_of_mem _ (List.mem_of_mem_drop hc))
    · -- Only zeros before the digits.
      refine wellFormed_belowOne negative (by simp) fun c hc => ?_
      rcases List.mem_append.1 hc with hc | hc
      · exact hzeros _ c hc
      · exact h.digit c hc

theorem wellFormed_scientificLiteral :
    (scientificLiteral negative digits exponent).WellFormed := by
  obtain ⟨d, rest, rfl⟩ := List.exists_cons_of_ne_nil h.ne
  have hd := h.digit d List.mem_cons_self
  refine ⟨by simp [scientificLiteral], ?_, fun _ heq => (List.cons.inj heq).2.symm, ?_, ?_⟩
  · intro c hc
    rw [List.mem_singleton.1 hc]
    exact hd
  · unfold scientificLiteral
    split
    · simp
    · next hlong =>
      intro heq
      have hnil : rest = [] := Option.some.inj heq
      rw [hnil] at hlong
      exact hlong (le_refl 1)
  · intro fraction hfraction c hc
    unfold scientificLiteral at hfraction
    split at hfraction
    · cases hfraction
    · cases hfraction
      exact h.digit c (List.mem_cons_of_mem _ hc)

omit h

theorem decimal_positionalLiteral :
    (positionalLiteral negative digits exponent).decimal =
      Nat.ofDigitChars 10 digits 0 * 10 ^ exponent := by
  unfold positionalLiteral Literal.decimal
  split
  · next hsign =>
    -- The zeros multiply by ten, the last of them for the fraction.
    have hpower : (10 : ℚ) ^ exponent = 10 ^ exponent.toNat := by
      rw [← zpow_natCast, Int.toNat_of_nonneg hsign]
    simp only [Option.getD_some, Option.getD_none]
    rw [List.append_assoc, Nat.ofDigitChars_append, ← List.replicate_succ', hpower,
      Nat.ofDigitChars_replicate_zero]
    push_cast
    rw [List.length_singleton, zero_sub, Nat.cast_one, zpow_neg_one]
    ring
  · split
    · next hsign hpoint =>
      simp only [Option.getD_some, Option.getD_none]
      rw [List.take_append_drop, List.length_drop]
      congr 2
      omega
    · next hsign hpoint =>
      -- Zeros before the digits do not count.
      simp only [Option.getD_some, Option.getD_none]
      rw [List.length_append, List.length_replicate, Nat.ofDigitChars_append,
        Nat.ofDigitChars_append, Nat.ofDigitChars_replicate_zero]
      have hzero : Nat.ofDigitChars 10 ['0'] 0 = 0 := rfl
      rw [hzero, Nat.mul_zero]
      congr 2
      omega

theorem decimal_scientificLiteral (h : digits ≠ []) :
    (scientificLiteral negative digits exponent).decimal =
      Nat.ofDigitChars 10 digits 0 * 10 ^ exponent := by
  have hlength := List.length_pos_of_ne_nil h
  unfold scientificLiteral Literal.decimal
  simp only [Option.getD_some]
  -- The power counts from the first digit, the fraction takes the others back.
  split
  · next hshort =>
    rw [List.take_of_length_le hshort, Option.getD_none, List.append_nil, List.length_nil]
    congr 2
    omega
  · rw [Option.getD_some, List.take_append_drop, List.length_drop]
    congr 2
    omega

end layouts

section float

variable (x : Binary64)

def floatLiteral : Literal :=
  if x.significand = 0 then ⟨x.negative, ['0'], some ['0'], none⟩
  else
    let digits := Nat.toDigits 10 x.shortest.1
    if Binary64.positional (digits.length + x.shortest.2 - 1) then
      positionalLiteral x.negative digits x.shortest.2
    else scientificLiteral x.negative digits x.shortest.2

theorem chars_floatLiteral : (floatLiteral x).chars = x.text := by
  have hsign : ∀ unsigned : List Char, (if x.negative then '-' :: unsigned else unsigned) =
      (if x.negative then ['-'] else []) ++ unsigned := by
    intro unsigned
    split
    · rfl
    · rfl
  unfold floatLiteral Binary64.text
  simp only
  rw [hsign]
  split
  · rfl
  · split
    · exact chars_positionalLiteral _ _ _
    · exact chars_scientificLiteral _ _ _ Nat.toDigits_ne_nil

theorem wellFormed_floatLiteral : (floatLiteral x).WellFormed := by
  unfold floatLiteral
  split
  · exact wellFormed_belowOne _ (by simp) fun _ hc => Timestamp.isDigit_of_mem_zeros (n := 1) hc
  · next hm =>
    have hleading := Leading.toDigits (Binary64.shortest_pos (Nat.pos_of_ne_zero hm))
    simp only
    split
    · exact wellFormed_positionalLiteral _ _ hleading
    · exact wellFormed_scientificLiteral _ _ hleading

/-- The literal of a float keeps the sign and is not written like an integer. -/
theorem parts_floatLiteral :
    (floatLiteral x).negative = x.negative ∧
      ((floatLiteral x).fraction.isSome ∨ (floatLiteral x).power.isSome) := by
  unfold floatLiteral
  split
  · exact ⟨rfl, .inl rfl⟩
  · simp only
    split
    · obtain ⟨hsign, hfraction⟩ :=
        parts_positionalLiteral x.negative (Nat.toDigits 10 x.shortest.1) x.shortest.2
      exact ⟨hsign, .inl hfraction⟩
    · exact ⟨rfl, .inr rfl⟩

theorem decimal_floatLiteral (hm : x.significand ≠ 0) :
    (floatLiteral x).decimal = x.shortest.1 * 10 ^ x.shortest.2 := by
  have hdigits : Nat.ofDigitChars 10 (Nat.toDigits 10 x.shortest.1) 0 = x.shortest.1 :=
    Nat.ofDigitChars_ten_toDigits
  unfold floatLiteral
  rw [if_neg hm]
  simp only
  split
  · rw [decimal_positionalLiteral, hdigits]
  · rw [decimal_scientificLiteral _ _ Nat.toDigits_ne_nil, hdigits]

/-- **The nearest float of the text of a float is this float.** -/
theorem nearestFloat_floatLiteral : nearestFloat.float? (floatLiteral x) = some x := by
  by_cases hm : x.significand = 0
  · -- Zero has only one exponent, and its sign is read.
    obtain ⟨negative, significand, exponent, canonical⟩ := x
    obtain rfl : significand = 0 := hm
    obtain rfl : exponent = -1074 := by
      unfold Binary64.Canonical at canonical
      omega
    rfl
  · have hpos := Nat.pos_of_ne_zero hm
    apply nearestFloat_of_encloses hpos (parts_floatLiteral x).1
    rw [decimal_floatLiteral x hm]
    exact Binary64.shortest_encloses hpos

end float

/-! ### All numbers -/

/-- A reader that finds every float again in the text that is written for it. -/
class LawfulFloatReader [FloatReader] : Prop where
  readNumber_float (x : Binary64) :
    readNumber (x.text.map some) = some (.number (some (.float x)), [])

/-- What a reader finds in the text of a float. -/
theorem readNumber_floatLiteral [FloatReader] (x : Binary64) :
    readNumber (x.text.map some) = some (.number (floatLiteral x).number?, []) := by
  have hend : Apart [] := fun c hc => by cases hc
  have hread := readNumber_chars (wellFormed_floatLiteral x) hend
  rwa [chars_floatLiteral, List.append_nil] at hread

instance : LawfulFloatReader where
  readNumber_float x := by
    rw [readNumber_floatLiteral, Literal.number?,
      Literal.integer?_eq_none (parts_floatLiteral x).2, Option.none_or,
      nearestFloat_floatLiteral]
    rfl

section lawful

variable [FloatReader] [LawfulFloatReader]

theorem number?_floatLiteral (x : Binary64) :
    (floatLiteral x).number? = some (.float x) := by
  have hread := readNumber_floatLiteral x
  rw [LawfulFloatReader.readNumber_float] at hread
  exact (Token.number.inj (Prod.mk.inj (Option.some.inj hread)).1).symm

/-- The text of each number is a literal that denotes it. -/
theorem Number.exists_literal (n : Number) :
    ∃ l : Literal, l.WellFormed ∧ l.chars = n.text ∧ l.number? = some n := by
  cases n with
  | integer value fits =>
    exact ⟨integerLiteral value, wellFormed_integerLiteral value, chars_integerLiteral value,
      number?_integerLiteral fits⟩
  | float x =>
    exact ⟨floatLiteral x, wellFormed_floatLiteral x, chars_floatLiteral x,
      number?_floatLiteral x⟩

/-- **Every number is read back from its text**, whatever follows it. -/
theorem readNumber_text (n : Number) {rest : List Symbol} (hrest : Apart rest) :
    readNumber (n.text.map some ++ rest) = some (.number (some n), rest) := by
  obtain ⟨l, hl, hchars, hnumber⟩ := n.exists_literal
  rw [← hchars, readNumber_chars hl hrest, hnumber]

end lawful

end Json

end SeriesBroker
