import SeriesBroker.Proofs.Json.Grammar

/-! # The texts of integers

    The decimal text of an integer spells one number. It denotes the integer as long as 64 bits
    are enough, signed or unsigned, and only then an integer at all. So a reader of integers
    between two limits accepts exactly the texts of those (`readInteger_number`).
-/

namespace SeriesBroker.Json

theorem toList_toString (n : ℤ) : (toString n).toList = intText n := by
  rw [Int.toString_eq_repr]
  unfold intText
  cases n with
  | ofNat m =>
    have hpos : ¬ Int.ofNat m < 0 := by simp
    rw [if_neg hpos]
    simp [Int.repr, Nat.repr]
  | negSucc m =>
    have hneg : Int.negSucc m < 0 := Int.negSucc_lt_zero m
    rw [if_pos hneg]
    simp [Int.repr, Nat.repr]

theorem ofList_intText (n : ℤ) : String.ofList (intText n) = toString n := by
  rw [← toList_toString, String.ofList_toList]

theorem natAbs_eq_of_toDigits {n m : ℤ}
    (h : Nat.toDigits 10 n.natAbs = Nat.toDigits 10 m.natAbs) : n.natAbs = m.natAbs :=
  calc
    n.natAbs = Nat.ofDigitChars 10 (Nat.toDigits 10 n.natAbs) 0 :=
      Nat.ofDigitChars_ten_toDigits.symm
    _ = Nat.ofDigitChars 10 (Nat.toDigits 10 m.natAbs) 0 := by rw [h]
    _ = m.natAbs := Nat.ofDigitChars_ten_toDigits

/-- Different integers have different texts. -/
theorem toString_injective {n m : ℤ} (h : toString n = toString m) : n = m := by
  -- A minus sign is no digit, so integers with the same text have the same sign.
  have hsign : ∀ a b : ℕ, '-' :: Nat.toDigits 10 a ≠ Nat.toDigits 10 b := by
    intro a b heq
    have hmem : '-' ∈ Nat.toDigits 10 b := heq ▸ List.mem_cons_self
    exact absurd (Nat.isDigit_of_mem_toDigits (by decide) (by decide) hmem) (by decide)
  have htext := congrArg String.toList h
  rw [toList_toString, toList_toString] at htext
  unfold intText at htext
  by_cases hn : n < 0
  · by_cases hm : m < 0
    · rw [if_pos hn, if_pos hm] at htext
      have habs := natAbs_eq_of_toDigits (List.cons.inj htext).2
      omega
    · rw [if_pos hn, if_neg hm] at htext
      exact absurd htext (hsign _ _)
  · by_cases hm : m < 0
    · rw [if_neg hn, if_pos hm] at htext
      exact absurd htext.symm (hsign _ _)
    · rw [if_neg hn, if_neg hm] at htext
      have habs := natAbs_eq_of_toDigits htext
      omega

/-- The decimal text of an integer spells one token. -/
theorem isText_integer [FloatReader] (n : ℤ) :
    IsText (.number (integerLiteral n).number?) (toString n) := by
  have hlexeme : Lexeme (.number (integerLiteral n).number?) (intText n) := by
    rw [← chars_integerLiteral]
    exact .number (wellFormed_integerLiteral n) (exponentText_chars _)
  have hnothing : IsSpaces [] := List.forall_mem_nil _
  have hlexed := Lexed.token hnothing hlexeme (.done hnothing)
  rw [List.nil_append, List.append_nil, ← toList_toString] at hlexed
  exact hlexed

/-- An integer is read between two limits exactly if it lies between them. -/
theorem readInteger_number [FloatReader] {n low high : ℤ} (hlow : leastInteger ≤ low)
    (hhigh : high < integerBound) (kind : String) (level : ℕ) {m : ℤ} :
    readInteger kind low high level (.number (integerLiteral n).number?) = .ok m ↔
      m = n ∧ low ≤ n ∧ n ≤ high := by
  by_cases hfits : leastInteger ≤ n ∧ n < integerBound
  · rw [number?_integerLiteral hfits]
    by_cases hrange : low ≤ n ∧ n ≤ high
    · have hread : readInteger kind low high level (.number (some (.integer n hfits))) = .ok n :=
        if_pos hrange
      rw [hread, Except.ok.injEq, eq_comm]
      exact (and_iff_left hrange).symm
    · have hread : readInteger kind low high level (.number (some (.integer n hfits))) =
          .error (.invalidValue (.number (.integer n hfits)) kind) := if_neg hrange
      rw [hread]
      exact iff_of_false (by simp) fun h => hrange h.2
  · have hnumber : ∀ m fits, (integerLiteral n).number? ≠ some (.integer m fits) :=
      fun _ fits => number?_integerLiteral_ne hfits fits
    refine iff_of_false ?_ fun h => hfits ⟨hlow.trans h.2.1, h.2.2.trans_lt hhigh⟩
    intro hread
    unfold readInteger at hread
    split at hread
    · next m fits heq => exact hnumber m fits (Tree.number.inj heq)
    · cases hread

end SeriesBroker.Json
