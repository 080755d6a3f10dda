import Mathlib.Algebra.Group.Nat.Defs
import Mathlib.Data.List.Induction
import Mathlib.Data.List.TakeWhile
import SeriesBroker.Time.Rfc3339

/-! # Numbers in timestamps

    The numbers of a timestamp have a fixed count of digits and are filled up with zeros at
    their start. So they are read back whatever follows (`readNumber_padded`).

    A fraction is written without the zeros at its end and read as if they were there. Reading
    stops at the first character that is no digit, so it is read back if something else follows
    (`readFraction_fractionText`).
-/

namespace SeriesBroker.Timestamp

/-! ### Numbers of a fixed width -/

theorem length_padded {width value : Nat} (hwidth : 0 < width) (h : value < 10 ^ width) :
    (padded width value).length = width := by
  have hle := (Nat.length_toDigits_le_iff (b := 10) (by decide) hwidth).2 h
  unfold padded
  rw [List.length_leftpad]
  omega

theorem isDigit_of_mem_zeros {n : Nat} {c : Char} (hc : c ∈ List.replicate n '0') :
    c.isDigit = true := by
  rw [List.eq_of_mem_replicate hc]
  decide

theorem isDigit_of_mem_padded {width value : Nat} {c : Char} (hc : c ∈ padded width value) :
    c.isDigit = true := by
  unfold padded List.leftpad at hc
  rcases List.mem_append.1 hc with hzero | hdigit
  · exact isDigit_of_mem_zeros hzero
  · exact Nat.isDigit_of_mem_toDigits (by decide) (by decide) hdigit

/-- The zeros at the start do not count. -/
theorem ofDigitChars_padded (width value : Nat) :
    Nat.ofDigitChars 10 (padded width value) 0 = value := by
  unfold padded List.leftpad
  rw [Nat.ofDigitChars_append, Nat.ofDigitChars_replicate_zero, Nat.mul_zero,
    Nat.ofDigitChars_ten_toDigits]

/-- Exactly the expected count of digits is read. -/
theorem readNumber_append {digits : List Char} (hdigits : ∀ c ∈ digits, c.isDigit = true)
    (rest : List Char) :
    readNumber digits.length (digits ++ rest) = some (Nat.ofDigitChars 10 digits 0, rest) := by
  unfold readNumber
  rw [List.take_left, List.drop_left]
  exact if_pos ⟨rfl, List.all_eq_true.2 hdigits⟩

/-- A number is read back. -/
theorem readNumber_padded {width value : Nat} (hwidth : 0 < width) (h : value < 10 ^ width)
    (rest : List Char) : readNumber width (padded width value ++ rest) = some (value, rest) := by
  have hread : readNumber (padded width value).length (padded width value ++ rest) = _ :=
    readNumber_append (fun c hc => isDigit_of_mem_padded hc) rest
  rwa [length_padded hwidth h, ofDigitChars_padded] at hread

/-- No number is read at a character that is no digit. -/
theorem readNumber_of_not_isDigit {width : Nat} {c : Char} (hwidth : 0 < width)
    (hc : c.isDigit = false) (rest : List Char) : readNumber width (c :: rest) = none := by
  obtain ⟨n, rfl⟩ := Nat.exists_eq_succ_of_ne_zero (Nat.ne_of_gt hwidth)
  unfold readNumber
  rw [List.take_succ_cons]
  simp [hc]

theorem readOneOf_cons {allowed : List Char} {c : Char} (h : c ∈ allowed) (rest : List Char) :
    readOneOf allowed (c :: rest) = some rest := by
  unfold readOneOf
  exact if_pos (List.contains_iff_mem.2 h)

/-! ### The size of a number -/

/-- A number is below the power of ten with one zero for each of its digits. -/
theorem ofDigitChars_lt {digits : List Char} (h : ∀ c ∈ digits, c.isDigit = true) :
    Nat.ofDigitChars 10 digits 0 < 10 ^ digits.length := by
  induction digits using List.reverseRecOn with
  | nil => decide
  | append_singleton digits c ih =>
    -- The number is read from the left, so the last digit is the one that is added to the rest.
    have hinit := ih fun d hd => h d (List.mem_append_left [c] hd)
    have hlast := h c (List.mem_append_right digits List.mem_cons_self)
    have hvalue : c.toNat - '0'.toNat < 10 := by
      have hrange : 48 ≤ c.toNat ∧ c.toNat ≤ 57 := Char.isDigit_iff_toNat.1 hlast
      show c.toNat - 48 < 10
      omega
    rw [Nat.ofDigitChars_append, Nat.ofDigitChars_cons, Nat.ofDigitChars_nil, List.length_append,
      List.length_singleton, Nat.pow_succ]
    omega

/-! ### Fractions -/

/-- Digits without the zeros at their end. -/
def trimmed (digits : List Char) : List Char := (digits.reverse.dropWhile (· == '0')).reverse

/-- The zeros at the end can be put back. -/
theorem trimmed_append (digits : List Char) :
    trimmed digits ++ List.replicate (digits.length - (trimmed digits).length) '0' = digits := by
  have hsplit := List.takeWhile_append_dropWhile (p := (· == '0')) (l := digits.reverse)
  have hzeros : digits.reverse.takeWhile (· == '0') =
      List.replicate (digits.reverse.takeWhile (· == '0')).length '0' := by
    apply List.eq_replicate_of_mem
    intro c hc
    simpa using List.mem_takeWhile_imp hc
  -- Read backwards, the zeros come first and the trimmed digits after them.
  have hback := congrArg List.reverse hsplit
  rw [List.reverse_append, List.reverse_reverse, hzeros, List.reverse_replicate] at hback
  have hlength := congrArg List.length hback
  rw [List.length_append, List.length_replicate] at hlength
  have hcount : digits.length - (trimmed digits).length =
      (digits.reverse.takeWhile (· == '0')).length := by
    unfold trimmed
    omega
  rw [hcount]
  exact hback

theorem length_trimmed_le (digits : List Char) : (trimmed digits).length ≤ digits.length := by
  have hlength := congrArg List.length (trimmed_append digits)
  rw [List.length_append] at hlength
  omega

theorem mem_of_mem_trimmed {digits : List Char} {c : Char} (hc : c ∈ trimmed digits) :
    c ∈ digits := by
  rw [← trimmed_append digits]
  exact List.mem_append_left _ hc

/-- A fraction that is not zero has a digit that is left. -/
theorem trimmed_padded_ne_nil {nano : Nat} (hne : nano ≠ 0) : trimmed (padded 9 nano) ≠ [] := by
  intro hnil
  apply hne
  have hzeros := trimmed_append (padded 9 nano)
  rw [hnil, List.nil_append] at hzeros
  rw [← ofDigitChars_padded 9 nano, ← hzeros, Nat.ofDigitChars_replicate_zero, Nat.mul_zero]

/-- Reading fills up with zeros again. -/
theorem nanoseconds_trimmed {nano : Nat} (h : nano < 1000000000) :
    nanoseconds (trimmed (padded 9 nano)) = nano := by
  have hlength : (padded 9 nano).length = 9 := length_padded (by decide) h
  have hle := length_trimmed_le (padded 9 nano)
  have hback := trimmed_append (padded 9 nano)
  rw [hlength] at hback hle
  unfold nanoseconds List.rightpad
  rw [List.take_of_length_le hle, hback, ofDigitChars_padded]

/-- The nanoseconds of a fraction are less than a second. -/
theorem nanoseconds_lt {digits : List Char} (h : ∀ c ∈ digits, c.isDigit = true) :
    nanoseconds digits < 1000000000 := by
  have hdigits : ∀ c ∈ List.rightpad 9 '0' (digits.take 9), c.isDigit = true := by
    intro c hc
    unfold List.rightpad at hc
    rcases List.mem_append.1 hc with hdigit | hzero
    · exact h c (List.mem_of_mem_take hdigit)
    · exact isDigit_of_mem_zeros hzero
  have hlt := ofDigitChars_lt hdigits
  have hlength : (List.rightpad 9 '0' (digits.take 9)).length = 9 := by
    rw [List.length_rightpad, List.length_take]
    omega
  rw [hlength] at hlt
  exact hlt

/-- A fraction is read back if neither a digit nor a point follows. -/
theorem readFraction_fractionText {nano : Nat} (h : nano < 1000000000) {c : Char}
    (hdigit : c.isDigit = false) (hpoint : c ≠ '.') (rest : List Char) :
    readFraction (fractionText nano ++ c :: rest) = some (nano, c :: rest) := by
  unfold fractionText
  by_cases hzero : nano = 0
  · subst hzero
    rw [if_pos rfl, List.nil_append]
    unfold readFraction
    split
    · next heq => exact absurd (List.cons.inj heq).1 hpoint
    · rfl
  · rw [if_neg hzero]
    show readFraction ('.' :: (trimmed (padded 9 nano) ++ c :: rest)) = _
    have hdigits : ∀ d ∈ trimmed (padded 9 nano), d.isDigit = true :=
      fun d hd => isDigit_of_mem_padded (mem_of_mem_trimmed hd)
    have htake : (trimmed (padded 9 nano) ++ c :: rest).takeWhile Char.isDigit =
        trimmed (padded 9 nano) := by
      rw [List.takeWhile_append_of_pos hdigits, List.takeWhile_cons_of_neg (by simp [hdigit]),
        List.append_nil]
    have hdrop : (trimmed (padded 9 nano) ++ c :: rest).dropWhile Char.isDigit = c :: rest := by
      rw [List.dropWhile_append_of_pos hdigits, List.dropWhile_cons_of_neg (by simp [hdigit])]
    unfold readFraction
    simp only [htake, hdrop, nanoseconds_trimmed h]
    rw [if_neg]
    simpa using trimmed_padded_ne_nil hzero

/-- What is read as a fraction is less than a second. -/
theorem readFraction_lt {text rest : List Char} {nano : Nat}
    (h : readFraction text = some (nano, rest)) : nano < 1000000000 := by
  unfold readFraction at h
  split at h
  · next digits =>
    dsimp only at h
    split at h
    · cases h
    · cases h
      exact nanoseconds_lt fun c hc => List.mem_takeWhile_imp hc
  · cases h
    decide

end SeriesBroker.Timestamp
