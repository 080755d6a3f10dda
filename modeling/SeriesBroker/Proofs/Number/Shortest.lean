import SeriesBroker.Proofs.Number.Rounding

/-! # The shortest decimal

    The decimal that stands for a number lies in the interval of everything that rounds to it
    (`shortest_encloses`). A grid finer than the interval has its floor point inside, so the
    search for a grid ends before its steps do.
-/

namespace SeriesBroker.Binary64

/-! ### The interval in the rationals -/

namespace Interval

variable {i : Interval} {c : ℕ} {k : ℤ}

/-- Comparing on the common denominator is comparing the rationals. -/
theorem end_le_point_iff (hden : 0 < i.den) (ends : ℕ) :
    ends * Nat.pow 10 (-k).toNat ≤ c * Nat.pow 10 k.toNat * i.den ↔
      (ends : ℚ) / i.den ≤ c * 10 ^ k := by
  have hpower := zpow_eq_div 10 (by decide) k
  rw [Nat.cast_ofNat] at hpower
  have hunit : (0 : ℚ) < (Nat.pow 10 (-k).toNat : ℕ) := by
    exact_mod_cast Nat.pow_pos (by decide)
  have hden' : (0 : ℚ) < i.den := by exact_mod_cast hden
  rw [hpower, ← mul_div_assoc, div_le_div_iff₀ hden' hunit]
  exact_mod_cast Iff.rfl

theorem point_le_end_iff (hden : 0 < i.den) (ends : ℕ) :
    c * Nat.pow 10 k.toNat * i.den ≤ ends * Nat.pow 10 (-k).toNat ↔
      (c : ℚ) * 10 ^ k ≤ (ends : ℚ) / i.den := by
  have hpower := zpow_eq_div 10 (by decide) k
  rw [Nat.cast_ofNat] at hpower
  have hunit : (0 : ℚ) < (Nat.pow 10 (-k).toNat : ℕ) := by
    exact_mod_cast Nat.pow_pos (by decide)
  have hden' : (0 : ℚ) < i.den := by exact_mod_cast hden
  rw [hpower, ← mul_div_assoc, div_le_div_iff₀ hunit hden']
  exact_mod_cast Iff.rfl

/-- A grid point is in the interval if it is strictly between the ends, or at one of them if the
    interval is closed. -/
theorem contains_iff (hden : 0 < i.den) :
    i.contains c k = true ↔
      (i.low : ℚ) / i.den ≤ c * 10 ^ k ∧ (c : ℚ) * 10 ^ k ≤ (i.high : ℚ) / i.den ∧
        ((c : ℚ) * 10 ^ k = (i.low : ℚ) / i.den ∨
          (c : ℚ) * 10 ^ k = (i.high : ℚ) / i.den → i.closed = true) := by
  have hlow := end_le_point_iff (c := c) (k := k) hden i.low
  have hlow' := point_le_end_iff (c := c) (k := k) hden i.low
  have hhigh := end_le_point_iff (c := c) (k := k) hden i.high
  have hhigh' := point_le_end_iff (c := c) (k := k) hden i.high
  unfold contains
  dsimp only
  by_cases hclosed : i.closed = true
  · rw [if_pos hclosed, Bool.and_eq_true, decide_eq_true_iff, decide_eq_true_iff, hlow, hhigh']
    simp [hclosed]
  · -- An open interval does not have its ends, so being at one of them is impossible.
    rw [if_neg hclosed, Bool.and_eq_true, decide_eq_true_iff, decide_eq_true_iff,
      ← not_le, ← not_le, hlow', hhigh]
    constructor
    · intro h
      have hbelow := not_le.1 h.1
      have habove := not_le.1 h.2
      exact ⟨hbelow.le, habove.le, fun heq => by
        rcases heq with heq | heq
        · exact absurd heq hbelow.ne'
        · exact absurd heq habove.ne⟩
    · intro h
      refine ⟨fun hle => hclosed (h.2.2 (.inl (le_antisymm hle h.1))),
        fun hle => hclosed (h.2.2 (.inr (le_antisymm h.2.1 hle)))⟩

/-! ### The search -/

/-- A candidate lies in the interval. -/
theorem contains_of_candidate (h : i.candidate k = some c) : i.contains c k = true := by
  unfold candidate at h
  dsimp only at h
  split at h
  · rename_i hfloor hnext
    split at h
    · obtain rfl := Option.some.inj h
      exact hfloor
    · split at h
      · obtain rfl := Option.some.inj h
        exact hnext
      · split at h
        · obtain rfl := Option.some.inj h
          exact hfloor
        · obtain rfl := Option.some.inj h
          exact hnext
  · rename_i hfloor hnext
    obtain rfl := Option.some.inj h
    exact hfloor
  · rename_i hfloor hnext
    obtain rfl := Option.some.inj h
    exact hnext
  · exact absurd h (by simp)

/-- A grid with its floor point in the interval has a candidate. -/
theorem candidate_isSome
    (h : i.contains (i.value * Nat.pow 10 (-k).toNat / (Nat.pow 10 k.toNat * i.den)) k = true) :
    (i.candidate k).isSome := by
  unfold candidate
  dsimp only
  rw [h]
  split
  · split
    · rfl
    · split
      · rfl
      · split <;> rfl
  · rfl
  · rfl
  · contradiction

/-- The floor point of a grid is the last one that is not above the value. -/
theorem floor_bounds (hden : 0 < i.den) :
    ((i.value * Nat.pow 10 (-k).toNat / (Nat.pow 10 k.toNat * i.den) : ℕ) : ℚ) * 10 ^ k ≤
        i.value / i.den ∧
      (i.value : ℚ) / i.den <
        ((i.value * Nat.pow 10 (-k).toNat / (Nat.pow 10 k.toNat * i.den) : ℕ) : ℚ) * 10 ^ k +
          10 ^ k := by
  have hcell : 0 < Nat.pow 10 k.toNat * i.den := Nat.mul_pos (Nat.pow_pos (by decide)) hden
  have hfloor := Nat.div_mul_le_self (i.value * Nat.pow 10 (-k).toNat) (Nat.pow 10 k.toNat * i.den)
  have hnext := Nat.lt_div_mul_add (a := i.value * Nat.pow 10 (-k).toNat) hcell
  generalize i.value * Nat.pow 10 (-k).toNat / (Nat.pow 10 k.toNat * i.den) = floor at *
  constructor
  · rw [← point_le_end_iff hden, mul_assoc]
    exact hfloor
  · have hstep : (floor : ℚ) * 10 ^ k + 10 ^ k = ((floor + 1 : ℕ) : ℚ) * 10 ^ k := by
      push_cast
      ring
    rw [hstep, ← not_le, ← point_le_end_iff hden, not_le, mul_assoc, Nat.add_one_mul]
    exact hnext

/-- The search stops at a grid with a candidate if it passes one. -/
theorem candidate_search (steps : ℕ) (k : ℤ)
    (h : ∃ j : ℕ, j < steps ∧ (i.candidate (k - j)).isSome) :
    i.candidate (i.search steps k).2 = some (i.search steps k).1 := by
  induction steps generalizing k with
  | zero =>
    obtain ⟨j, hj, -⟩ := h
    exact absurd hj (Nat.not_lt_zero j)
  | succ steps ih =>
    unfold search
    cases hc : i.candidate k with
    | some c => exact hc
    | none =>
      obtain ⟨j, hj, hsome⟩ := h
      -- The candidate is not on this grid, so it is on a later one.
      cases j with
      | zero =>
        rw [Nat.cast_zero, sub_zero, hc] at hsome
        exact absurd hsome (by simp)
      | succ j =>
        apply ih
        refine ⟨j, Nat.lt_of_succ_lt_succ hj, ?_⟩
        rwa [Nat.cast_succ, add_comm, ← sub_sub] at hsome

end Interval

/-! ### The interval of a number -/

section number

variable (x : Binary64)

theorem interval_den_pos : 0 < x.interval.den :=
  Nat.mul_pos (by decide) (Nat.pow_pos (by decide))

/-- An end of the interval is a number of quarters of the unit. -/
theorem quarters_eq (n : ℕ) :
    ((n * Nat.pow 2 x.exponent.toNat : ℕ) : ℚ) / (4 * Nat.pow 2 (-x.exponent).toNat : ℕ) =
      n / 4 * 2 ^ x.exponent := by
  have hpower := zpow_eq_div 2 (by decide) x.exponent
  rw [Nat.cast_ofNat] at hpower
  rw [hpower]
  push_cast
  ring

theorem interval_value :
    (x.interval.value : ℚ) / x.interval.den = x.significand * 2 ^ x.exponent := by
  unfold interval
  rw [quarters_eq]
  push_cast
  ring

theorem interval_high :
    (x.interval.high : ℚ) / x.interval.den = (x.significand + 1 / 2) * 2 ^ x.exponent := by
  unfold interval
  rw [quarters_eq]
  push_cast
  ring

variable {x} (hm : 0 < x.significand)

include hm

theorem interval_low :
    (x.interval.low : ℚ) / x.interval.den = (x.significand - x.below) * 2 ^ x.exponent := by
  unfold interval below
  rw [quarters_eq]
  split
  · rw [Nat.cast_sub (by omega)]
    push_cast
    ring
  · rw [Nat.cast_sub (by omega)]
    push_cast
    ring

/-- **The interval holds what rounds to the number.** -/
theorem interval_contains_iff {c : ℕ} {k : ℤ} :
    x.interval.contains c k = true ↔ x.Encloses (c * 10 ^ k) := by
  rw [Interval.contains_iff (interval_den_pos x), interval_low hm, interval_high]
  have hclosed : x.interval.closed = true ↔ x.significand % 2 = 0 := decide_eq_true_iff
  rw [hclosed]
  exact ⟨fun h => ⟨h.1, h.2.1, h.2.2⟩, fun h => ⟨h.low, h.high, h.tie⟩⟩

/-- A grid at most a quarter of the unit wide has a candidate. -/
theorem candidate_isSome_of_le {k : ℤ} (h : (10 : ℚ) ^ k ≤ 2 ^ (x.exponent - 2)) :
    (x.interval.candidate k).isSome := by
  apply Interval.candidate_isSome
  obtain ⟨hfloor, hnext⟩ := Interval.floor_bounds (k := k) (interval_den_pos x)
  rw [interval_contains_iff hm]
  generalize x.interval.value * Nat.pow 10 (-k).toNat /
    (Nat.pow 10 k.toNat * x.interval.den) = floor at *
  rw [interval_value] at hfloor hnext
  have hpos := two_zpow_pos x.exponent
  have hquarter : (2 : ℚ) ^ (x.exponent - 2) = 1 / 4 * 2 ^ x.exponent := by
    rw [zpow_sub₀ (by norm_num)]
    norm_num
    ring
  have hbelow : 1 / 4 ≤ x.below := by
    unfold below
    split <;> norm_num
  have hwidth : 1 / 4 * 2 ^ x.exponent ≤ x.below * 2 ^ x.exponent :=
    mul_le_mul_of_nonneg_right hbelow hpos.le
  -- The floor point is less than a step below the number, and the lower end at least one.
  have hlow : (x.significand - x.below) * 2 ^ x.exponent < floor * 10 ^ k := by
    rw [sub_mul]
    linarith
  have hhigh : (floor : ℚ) * 10 ^ k < (x.significand + 1 / 2) * 2 ^ x.exponent := by
    rw [add_mul]
    linarith
  exact ⟨hlow.le, hhigh.le, fun htie => by
    rcases htie with heq | heq
    · exact absurd heq hlow.ne'
    · exact absurd heq hhigh.ne⟩

/-- **The shortest decimal rounds to the number.** -/
theorem shortest_encloses : x.Encloses (x.shortest.1 * 10 ^ x.shortest.2) := by
  rw [← interval_contains_iff hm]
  apply Interval.contains_of_candidate
  have hshortest : x.shortest = x.interval.search 24
      (((x.significand.log2 : Int) + x.exponent + 1) * 30103 / 100000 + 1) := if_neg hm.ne'
  rw [hshortest]
  apply Interval.candidate_search
  refine ⟨23, by decide, candidate_isSome_of_le hm (ten_zpow_le_two_zpow ?_ ?_)⟩
  all_goals
    have hbits : x.significand.log2 < 53 := (Nat.log2_lt hm.ne').2 (significand_lt x)
    have hge := exponent_ge x
    have hle := exponent_le x
    omega

/-- Its digits are not all zero. -/
theorem shortest_pos : 0 < x.shortest.1 := by
  apply Nat.pos_of_ne_zero
  intro hzero
  have hhalf := (shortest_encloses hm).half_le hm
  rw [hzero, Nat.cast_zero, zero_mul] at hhalf
  exact absurd hhalf (not_le.2 (mul_pos (by norm_num) (two_zpow_pos _)))

end number

end SeriesBroker.Binary64
