import Mathlib.Algebra.Order.Field.Power
import Mathlib.Data.Rat.Cast.Order
import Mathlib.Tactic.FieldSimp
import Mathlib.Tactic.Linarith
import Mathlib.Tactic.NormNum
import Mathlib.Tactic.Positivity
import Mathlib.Tactic.Ring
import SeriesBroker.Number.Shortest

/-! # Rounding to binary64

    Around a positive number `m · 2 ^ e` lie the rationals that round to it: half a unit `2 ^ e`
    to both sides, but only a quarter below a power of two, where the numbers are twice as close.
    The two ends belong to it if `m` is even (`Encloses`).

    Whatever quotient or decimal is given for a rational in this interval, reading it gives the
    number back (`ofQuotient_of_encloses`, `ofDecimal_of_encloses`).
-/

namespace SeriesBroker.Binary64

/-! ### Powers -/

/-- A power with an integer exponent as a quotient of two powers with natural exponents, one of
    which is always one. -/
theorem zpow_eq_div (b : ℕ) (hb : 0 < b) (e : ℤ) :
    (b : ℚ) ^ e = (Nat.pow b e.toNat : ℕ) / (Nat.pow b (-e).toNat : ℕ) := by
  have hb' : (b : ℚ) ≠ 0 := by exact_mod_cast hb.ne'
  simp only [Nat.pow_eq, Nat.cast_pow]
  rw [eq_div_iff (pow_ne_zero _ hb'), ← zpow_natCast, ← zpow_natCast, ← zpow_add₀ hb']
  congr 1
  omega

theorem two_zpow_pos (e : ℤ) : (0 : ℚ) < 2 ^ e := zpow_pos (by norm_num) e

theorem ten_zpow_pos (e : ℤ) : (0 : ℚ) < 10 ^ e := zpow_pos (by norm_num) e

/-- Powers of two compare as their exponents. -/
theorem lt_of_two_zpow_lt {a b : ℤ} (h : (2 : ℚ) ^ a < 2 ^ b) : a < b :=
  (zpow_lt_zpow_iff_right₀ (by norm_num)).1 h

theorem two_zpow_succ (e : ℤ) : (2 : ℚ) ^ (e + 1) = 2 * 2 ^ e := by
  rw [zpow_add₀ (by norm_num), zpow_one, mul_comm]

/-- Once powers of `a ^ p` and `b ^ q` are compared, so are powers of `a` and `b` whose exponents
    keep the ratio of `p` and `q`. -/
theorem zpow_le_zpow_of_scaled {a b : ℚ} (hb : 1 ≤ b) {p q : ℕ} (hp : p ≠ 0)
    {s t : ℤ} (hscale : (a ^ p) ^ s ≤ (b ^ q) ^ s) (h : q * s ≤ p * t) : a ^ s ≤ b ^ t := by
  refine le_of_pow_le_pow_left₀ hp (zpow_nonneg (by linarith) t) ?_
  calc (a ^ s) ^ p = (a ^ p) ^ s := by
        rw [← zpow_natCast, ← zpow_natCast, ← zpow_mul, ← zpow_mul, mul_comm]
    _ ≤ (b ^ q) ^ s := hscale
    _ = b ^ (q * s) := by rw [← zpow_natCast, ← zpow_mul]
    _ ≤ b ^ (p * t) := zpow_le_zpow_right₀ hb h
    _ = (b ^ t) ^ p := by rw [← zpow_natCast, ← zpow_mul, mul_comm]

/-- From `2 ^ 93 ≤ 10 ^ 28`. -/
theorem two_zpow_le_ten_zpow {s t : ℤ} (hs : 0 ≤ s) (h : 28 * s ≤ 93 * t) :
    (2 : ℚ) ^ s ≤ 10 ^ t := by
  have hscale : ((2 : ℚ) ^ 93) ^ s ≤ ((10 : ℚ) ^ 28) ^ s :=
    zpow_le_zpow_left₀ hs (by norm_num) (by norm_num)
  exact zpow_le_zpow_of_scaled (by norm_num) (by decide) hscale h

/-- From `10 ^ 3 ≤ 2 ^ 10` if the exponent is not negative, and `2 ^ 33 ≤ 10 ^ 10` if it is. -/
theorem ten_zpow_le_two_zpow {t s : ℤ} (h : 10 * t ≤ 3 * s) (h' : 33 * t ≤ 10 * s) :
    (10 : ℚ) ^ t ≤ 2 ^ s := by
  by_cases ht : 0 ≤ t
  · have hscale : ((10 : ℚ) ^ 3) ^ t ≤ ((2 : ℚ) ^ 10) ^ t :=
      zpow_le_zpow_left₀ ht (by norm_num) (by norm_num)
    exact zpow_le_zpow_of_scaled (by norm_num) (by decide) hscale h
  · have hscale : ((10 : ℚ) ^ 10) ^ t ≤ ((2 : ℚ) ^ 33) ^ t := by
      have hinv : ((2 : ℚ) ^ 33) ^ (-t) ≤ ((10 : ℚ) ^ 10) ^ (-t) :=
        zpow_le_zpow_left₀ (by omega) (by norm_num) (by norm_num)
      rw [zpow_neg, zpow_neg] at hinv
      exact (inv_le_inv₀ (zpow_pos (by norm_num) _) (zpow_pos (by norm_num) _)).1 hinv
    exact zpow_le_zpow_of_scaled (by norm_num) (by decide) hscale h'

/-- The least normal significand is a power of two. -/
theorem leastNormal_mul (e : ℤ) : ((leastNormal : ℕ) : ℚ) * 2 ^ e = 2 ^ (e + 52) := by
  rw [zpow_add₀ (by norm_num), mul_comm]
  norm_num

/-! ### Rounding a quotient -/

/-- A natural number nearest to a rational, an even one if there are two. -/
structure Nearest (n : ℕ) (q : ℚ) : Prop where
  low : (n : ℚ) - 1 / 2 ≤ q
  high : q ≤ n + 1 / 2
  tie : q = n - 1 / 2 ∨ q = n + 1 / 2 → n % 2 = 0

section nearest

variable {num den n : ℕ} (hden : 0 < den) (h : Nearest n ((num : ℚ) / den))

include hden h

theorem Nearest.mul_le : 2 * n * den ≤ 2 * num + den := by
  have hpos : (0 : ℚ) < den := by exact_mod_cast hden
  have hq := (le_div_iff₀ hpos).1 h.low
  have hcast : ((2 * n * den : ℕ) : ℚ) ≤ ((2 * num + den : ℕ) : ℚ) := by
    push_cast
    linarith
  exact_mod_cast hcast

theorem Nearest.le_mul : 2 * num ≤ 2 * n * den + den := by
  have hpos : (0 : ℚ) < den := by exact_mod_cast hden
  have hq := (div_le_iff₀ hpos).1 h.high
  have hcast : ((2 * num : ℕ) : ℚ) ≤ ((2 * n * den + den : ℕ) : ℚ) := by
    push_cast
    linarith
  exact_mod_cast hcast

/-- Between two natural numbers the even one counts. -/
theorem Nearest.even_of_mul_eq
    (htie : 2 * n * den = 2 * num + den ∨ 2 * num = 2 * n * den + den) : n % 2 = 0 := by
  have hpos : (0 : ℚ) < den := by exact_mod_cast hden
  apply h.tie
  rcases htie with heq | heq
  · have hcast : (2 * n * den : ℚ) = 2 * num + den := by exact_mod_cast heq
    exact .inl ((div_eq_iff hpos.ne').2 (by linarith))
  · have hcast : (2 * num : ℚ) = 2 * n * den + den := by exact_mod_cast heq
    exact .inr ((div_eq_iff hpos.ne').2 (by linarith))

/-- The number is the quotient or the one after it. -/
theorem Nearest.eq_quotient_or : n = num / den ∨ n = num / den + 1 := by
  have hlow := h.mul_le hden
  have hhigh := h.le_mul hden
  have hdivision := Nat.div_add_mod num den
  have hrest := Nat.mod_lt num hden
  generalize num / den = quotient at hdivision ⊢
  have hcomm := Nat.mul_comm den quotient
  have hdouble : 2 * n * den = 2 * (n * den) := by ring
  have hle : quotient ≤ n := by
    by_contra hlt
    have hstep : (n + 1) * den ≤ quotient * den := Nat.mul_le_mul_right den (by omega)
    have hexpand : (n + 1) * den = n * den + den := by ring
    omega
  have hge : n ≤ quotient + 1 := by
    by_contra hlt
    have hstep : (quotient + 2) * den ≤ n * den := Nat.mul_le_mul_right den (by omega)
    have hexpand : (quotient + 2) * den = quotient * den + 2 * den := by ring
    omega
  omega

/-- There is only one such number, and rounding finds it. -/
theorem roundQuotient_eq : roundQuotient num den = n := by
  have hlow := h.mul_le hden
  have hhigh := h.le_mul hden
  have htie := h.even_of_mul_eq hden
  have hcases := h.eq_quotient_or hden
  have hdivision := Nat.div_add_mod num den
  unfold roundQuotient
  dsimp only
  generalize num / den = quotient at hdivision hcases ⊢
  generalize num % den = rest at hdivision ⊢
  have hcomm := Nat.mul_comm den quotient
  have hdouble : 2 * n * den = 2 * (n * den) := by ring
  rcases hcases with heq | heq
  · -- The quotient itself is the nearest one: the rest is at most a half.
    subst heq
    by_cases hless : 2 * rest < den
    · exact if_pos hless
    · have heven := htie (.inr (by omega))
      rw [if_neg hless, if_neg (by omega), if_pos heven]
  · subst heq
    have hexpand : (quotient + 1) * den = quotient * den + den := by ring
    by_cases hmore : den < 2 * rest
    · rw [if_neg (by omega), if_pos hmore]
    · have heven := htie (.inl (by omega))
      rw [if_neg (by omega), if_neg hmore, if_neg (by omega)]

end nearest

/-! ### The exponent of a quotient -/

/-- The powers of two around a natural number. -/
theorem log2_bounds {n : ℕ} (hn : 0 < n) :
    (2 : ℚ) ^ (n.log2 : ℤ) ≤ n ∧ (n : ℚ) < 2 ^ ((n.log2 : ℤ) + 1) := by
  constructor
  · rw [zpow_natCast]
    exact_mod_cast Nat.log2_self_le hn.ne'
  · rw [← Nat.cast_succ, zpow_natCast]
    exact_mod_cast Nat.lt_log2_self

/-- Whether a quotient reaches a power of two is found without fractions. -/
theorem reached_iff {num den : ℕ} (hden : 0 < den) (k : ℤ) :
    (if 0 ≤ k then den * Nat.pow 2 k.toNat ≤ num else den ≤ num * Nat.pow 2 (-k).toNat) ↔
      (2 : ℚ) ^ k ≤ num / den := by
  have hpos : (0 : ℚ) < den := by exact_mod_cast hden
  have hpower := zpow_eq_div 2 (by decide) k
  rw [Nat.cast_ofNat] at hpower
  rw [hpower, le_div_iff₀ hpos]
  by_cases hsign : 0 ≤ k
  · have hone : (-k).toNat = 0 := by omega
    rw [if_pos hsign, hone]
    simp only [Nat.pow_eq, pow_zero, Nat.cast_one, div_one]
    rw [mul_comm]
    exact_mod_cast Iff.rfl
  · have hone : k.toNat = 0 := by omega
    have hscale : (0 : ℚ) < (Nat.pow 2 (-k).toNat : ℕ) := by
      exact_mod_cast Nat.pow_pos (by decide)
    rw [if_neg hsign, hone, div_mul_eq_mul_div, div_le_iff₀ hscale]
    simp only [Nat.pow_eq, pow_zero, Nat.cast_one, one_mul]
    exact_mod_cast Iff.rfl

section quotient

variable {num den : ℕ} (hnum : 0 < num) (hden : 0 < den)

include hnum hden

/-- The difference of the two logarithms is right or one too large. -/
theorem log2_sub_log2_bounds :
    (2 : ℚ) ^ ((num.log2 : ℤ) - den.log2 - 1) < num / den ∧
      (num : ℚ) / den < 2 ^ ((num.log2 : ℤ) - den.log2 + 1) := by
  have hpos : (0 : ℚ) < den := by exact_mod_cast hden
  obtain ⟨hnumlow, hnumhigh⟩ := log2_bounds hnum
  obtain ⟨hdenlow, hdenhigh⟩ := log2_bounds hden
  generalize hk : (num.log2 : ℤ) - den.log2 = k
  constructor
  · rw [lt_div_iff₀ hpos]
    calc (2 : ℚ) ^ (k - 1) * den < 2 ^ (k - 1) * 2 ^ ((den.log2 : ℤ) + 1) := by
          exact mul_lt_mul_of_pos_left hdenhigh (two_zpow_pos _)
      _ = 2 ^ (num.log2 : ℤ) := by
          rw [← zpow_add₀ (by norm_num)]
          congr 1
          omega
      _ ≤ num := hnumlow
  · rw [div_lt_iff₀ hpos]
    calc (num : ℚ) < 2 ^ ((num.log2 : ℤ) + 1) := hnumhigh
      _ = 2 ^ (k + 1) * 2 ^ (den.log2 : ℤ) := by
          rw [← zpow_add₀ (by norm_num)]
          congr 1
          omega
      _ ≤ 2 ^ (k + 1) * den := mul_le_mul_of_nonneg_left hdenlow (two_zpow_pos _).le

/-- **The logarithm of a quotient is exact.** -/
theorem floorLog2_spec :
    (2 : ℚ) ^ floorLog2 num den ≤ num / den ∧
      (num : ℚ) / den < 2 ^ (floorLog2 num den + 1) := by
  obtain ⟨hlow, hhigh⟩ := log2_sub_log2_bounds hnum hden
  unfold floorLog2
  dsimp only
  have hreached := @reached_iff num den hden ((num.log2 : ℤ) - den.log2)
  generalize (num.log2 : ℤ) - den.log2 = k at hlow hhigh hreached ⊢
  by_cases h : (2 : ℚ) ^ k ≤ num / den
  · rw [if_pos (hreached.2 h)]
    exact ⟨h, hhigh⟩
  · rw [if_neg fun hr => h (hreached.1 hr), sub_add_cancel]
    exact ⟨hlow.le, not_le.1 h⟩

/-- The logarithm is known from the powers of two around the quotient. -/
theorem floorLog2_eq {k : ℤ} (hlow : (2 : ℚ) ^ k ≤ num / den)
    (hhigh : (num : ℚ) / den < 2 ^ (k + 1)) : floorLog2 num den = k := by
  obtain ⟨hspec, hspec'⟩ := floorLog2_spec hnum hden
  have hle := lt_of_two_zpow_lt (hspec.trans_lt hhigh)
  have hge := lt_of_two_zpow_lt (hlow.trans_lt hspec')
  omega

end quotient

/-! ### The interval of a number -/

/-- How far below a number the rationals that round to it begin, in units of its exponent. -/
def below (x : Binary64) : ℚ :=
  if x.significand = leastNormal ∧ x.exponent ≠ -1074 then 1 / 4 else 1 / 2

/-- The number is the one nearest to a positive rational, an even one if there are two. -/
structure Encloses (x : Binary64) (q : ℚ) : Prop where
  low : (x.significand - x.below) * 2 ^ x.exponent ≤ q
  high : q ≤ (x.significand + 1 / 2) * 2 ^ x.exponent
  tie : q = (x.significand - x.below) * 2 ^ x.exponent ∨
    q = (x.significand + 1 / 2) * 2 ^ x.exponent → x.significand % 2 = 0

section number

variable {x : Binary64}

theorem below_le (x : Binary64) : x.below ≤ 1 / 2 := by
  unfold below
  split <;> norm_num

theorem significand_lt (x : Binary64) : x.significand < 2 * leastNormal := by
  have h := x.canonical
  unfold Canonical at h
  omega

theorem exponent_ge (x : Binary64) : -1074 ≤ x.exponent := by
  have h := x.canonical
  unfold Canonical at h
  omega

theorem exponent_le (x : Binary64) : x.exponent ≤ 971 := by
  have h := x.canonical
  unfold Canonical at h
  omega

theorem ofParts?_self : ofParts? x.negative x.significand x.exponent = some x := by
  unfold ofParts?
  rw [dif_pos x.canonical]

/-- Below the next power of two lies everything that rounds to the number. -/
theorem Encloses.lt {q : ℚ} (h : x.Encloses q) : q < 2 ^ (x.exponent + 53) := by
  have hlt : (x.significand : ℚ) + 1 ≤ 2 ^ (53 : ℤ) := by
    have hnat : x.significand + 1 ≤ 2 ^ 53 := significand_lt x
    exact_mod_cast hnat
  have hpos := two_zpow_pos x.exponent
  calc q ≤ (x.significand + 1 / 2) * 2 ^ x.exponent := h.high
    _ < 2 ^ (53 : ℤ) * 2 ^ x.exponent := by
        apply mul_lt_mul_of_pos_right _ hpos
        linarith
    _ = 2 ^ (x.exponent + 53) := by
        rw [zpow_add₀ (by norm_num), mul_comm]

/-- What rounds to a number other than zero is at least half its unit. -/
theorem Encloses.half_le (hm : 0 < x.significand) {q : ℚ} (h : x.Encloses q) :
    (1 / 2) * 2 ^ x.exponent ≤ q := by
  have hone : (1 : ℚ) ≤ x.significand := by exact_mod_cast hm
  have hbelow := below_le x
  exact le_trans (mul_le_mul_of_nonneg_right (by linarith) (two_zpow_pos _).le) h.low

end number

/-! ### Reading back -/

/-- The significand that `ofQuotient` computes is the quotient's nearest one for its exponent. -/
theorem scaled_eq {num den n : ℕ} (hden : 0 < den) (e : ℤ)
    (h : Nearest n ((num : ℚ) / den / 2 ^ e)) :
    (if 0 ≤ e then roundQuotient num (den * Nat.pow 2 e.toNat)
      else roundQuotient (num * Nat.pow 2 (-e).toNat) den) = n := by
  have hpower := zpow_eq_div 2 (by decide) e
  rw [Nat.cast_ofNat] at hpower
  rw [hpower] at h
  have hscale : 0 < Nat.pow 2 e.toNat := Nat.pow_pos (by decide)
  by_cases hsign : 0 ≤ e
  · have hone : (-e).toNat = 0 := by omega
    rw [if_pos hsign]
    apply roundQuotient_eq (Nat.mul_pos hden hscale)
    rw [hone] at h
    simpa [div_div] using h
  · have hone : e.toNat = 0 := by omega
    rw [if_neg hsign]
    apply roundQuotient_eq hden
    rw [hone] at h
    have hmove : ((num * Nat.pow 2 (-e).toNat : ℕ) : ℚ) / den =
        (num : ℚ) / den / ((Nat.pow 2 0 : ℕ) / (Nat.pow 2 (-e).toNat : ℕ)) := by
      simp only [Nat.pow_eq, pow_zero, Nat.cast_one, Nat.cast_mul]
      rw [one_div, div_inv_eq_mul]
      ring
    rw [hmove]
    exact h

variable {x : Binary64}

/-- The quotient lies below the power of two that the number is. There the unit is halved, and
    rounding carries into the next power. -/
def Carries (x : Binary64) (q : ℚ) : Prop := q < 2 ^ (x.exponent + 52) ∧ x.exponent ≠ -1074

/-- Only a number that is a power of two has such quotients in its interval. -/
theorem Encloses.significand_of_carries {q : ℚ} (h : x.Encloses q) (hcarry : x.Carries q) :
    x.significand = leastNormal := by
  have hcanonical := x.canonical
  unfold Canonical at hcanonical
  have hroom : (x.significand : ℚ) - x.below < leastNormal := by
    refine lt_of_mul_lt_mul_right ?_ (two_zpow_pos x.exponent).le
    rw [leastNormal_mul]
    exact h.low.trans_lt hcarry.1
  have hbelow := below_le x
  have hstep : (x.significand : ℚ) < ((leastNormal : ℕ) : ℚ) + 1 := by linarith
  have hnat : x.significand < leastNormal + 1 := by exact_mod_cast hstep
  have hnormal := hcarry.2
  omega

theorem Encloses.low_of_carries {q : ℚ} (h : x.Encloses q) (hcarry : x.Carries q) :
    ((leastNormal : ℕ) - 1 / 4 : ℚ) * 2 ^ x.exponent ≤ q := by
  have hleast := h.significand_of_carries hcarry
  have hquarter : x.below = 1 / 4 := if_pos ⟨hleast, hcarry.2⟩
  have hlow := h.low
  rwa [hquarter, hleast] at hlow

/-- The quotient is in the range of the next lower exponent. -/
theorem Encloses.floorLog2_of_carries {num den : ℕ} (hnum : 0 < num) (hden : 0 < den)
    (h : x.Encloses ((num : ℚ) / den)) (hcarry : x.Carries ((num : ℚ) / den)) :
    floorLog2 num den = x.exponent + 51 := by
  apply floorLog2_eq hnum hden
  · refine le_trans ?_ (h.low_of_carries hcarry)
    have hpos := two_zpow_pos x.exponent
    have hdouble : (2 : ℚ) ^ (x.exponent + 52) = 2 * 2 ^ (x.exponent + 51) := by
      rw [← two_zpow_succ]
      congr 1
      omega
    have hunit : (2 : ℚ) ^ x.exponent ≤ 2 ^ (x.exponent + 51) :=
      zpow_le_zpow_right₀ (by norm_num) (by omega)
    rw [sub_mul, leastNormal_mul, hdouble]
    linarith
  · rw [add_assoc]
    exact hcarry.1

/-- In halved units the quotient is nearest to the significand that carries. -/
theorem Encloses.nearest_of_carries {q : ℚ} (h : x.Encloses q) (hcarry : x.Carries q) :
    Nearest (2 * leastNormal) (q / 2 ^ (x.exponent - 1)) := by
  have hlow := h.low_of_carries hcarry
  have hless := hcarry.1
  have hunit : (2 : ℚ) ^ x.exponent = 2 * 2 ^ (x.exponent - 1) := by
    rw [← two_zpow_succ, sub_add_cancel]
  have hhalf := two_zpow_pos (x.exponent - 1)
  refine ⟨?_, ?_, fun _ => by decide⟩
  · rw [le_div_iff₀ hhalf]
    rw [hunit] at hlow
    push_cast at hlow ⊢
    linarith
  · rw [div_le_iff₀ hhalf]
    rw [← leastNormal_mul, hunit] at hless
    push_cast at hless ⊢
    linarith

theorem ofQuotient_of_carries {num den : ℕ} (hnum : 0 < num) (hden : 0 < den)
    (h : x.Encloses ((num : ℚ) / den)) (hcarry : x.Carries ((num : ℚ) / den)) :
    ofQuotient x.negative num den = some x := by
  have hge := exponent_ge x
  have hnormal := hcarry.2
  have hexponent : max (floorLog2 num den - 52) (-1074) = x.exponent - 1 := by
    rw [h.floorLog2_of_carries hnum hden hcarry]
    omega
  unfold ofQuotient
  rw [if_neg hnum.ne']
  dsimp only
  rw [hexponent, scaled_eq hden _ (h.nearest_of_carries hcarry), if_pos rfl, sub_add_cancel,
    ← h.significand_of_carries hcarry]
  exact ofParts?_self

/-- Everywhere else the exponent of the number is the one that is computed. -/
theorem Encloses.exponent_of_not_carries {num den : ℕ} (hnum : 0 < num) (hden : 0 < den)
    (h : x.Encloses ((num : ℚ) / den)) (hcarry : ¬ x.Carries ((num : ℚ) / den)) :
    max (floorLog2 num den - 52) (-1074) = x.exponent := by
  have hge := exponent_ge x
  obtain ⟨hspec, hspec'⟩ := floorLog2_spec hnum hden
  have hupper := lt_of_two_zpow_lt (hspec.trans_lt h.lt)
  by_cases hless : (num : ℚ) / den < 2 ^ (x.exponent + 52)
  · have hleast : x.exponent = -1074 := by
      by_contra hne
      exact hcarry ⟨hless, hne⟩
    have hbound := lt_of_two_zpow_lt (hspec.trans_lt hless)
    omega
  · have hbound := lt_of_two_zpow_lt ((not_lt.1 hless).trans_lt hspec')
    omega

/-- In units of the number the quotient is nearest to its significand. -/
theorem Encloses.nearest {q : ℚ} (h : x.Encloses q) :
    Nearest x.significand (q / 2 ^ x.exponent) := by
  have hpos := two_zpow_pos x.exponent
  have hlow := h.low
  have hbelow := below_le x
  refine ⟨?_, (div_le_iff₀ hpos).2 h.high, ?_⟩
  · rw [le_div_iff₀ hpos]
    refine le_trans (mul_le_mul_of_nonneg_right ?_ hpos.le) hlow
    linarith
  · intro htie
    rw [div_eq_iff hpos.ne', div_eq_iff hpos.ne'] at htie
    rcases htie with heq | heq
    · -- The lower tie is an end of the interval, or the interval would start above it.
      refine h.tie (.inl ?_)
      rw [heq] at hlow ⊢
      have hle := le_of_mul_le_mul_right hlow hpos
      have hhalf : x.below = 1 / 2 := by linarith
      rw [hhalf]
    · exact h.tie (.inr heq)

theorem ofQuotient_of_not_carries {num den : ℕ} (hnum : 0 < num) (hden : 0 < den)
    (h : x.Encloses ((num : ℚ) / den)) (hcarry : ¬ x.Carries ((num : ℚ) / den)) :
    ofQuotient x.negative num den = some x := by
  have hlt := significand_lt x
  unfold ofQuotient
  rw [if_neg hnum.ne']
  dsimp only
  rw [h.exponent_of_not_carries hnum hden hcarry, scaled_eq hden _ h.nearest, if_neg (by omega)]
  exact ofParts?_self

/-- **A quotient in the interval of a number rounds to it.** -/
theorem ofQuotient_of_encloses {num den : ℕ} (hnum : 0 < num) (hden : 0 < den)
    (h : x.Encloses ((num : ℚ) / den)) : ofQuotient x.negative num den = some x := by
  by_cases hcarry : x.Carries ((num : ℚ) / den)
  · exact ofQuotient_of_carries hnum hden h hcarry
  · exact ofQuotient_of_not_carries hnum hden h hcarry

/-- The number of digits gives the power of ten below a number and the one above it. -/
theorem digits_bounds {n : ℕ} (hn : 0 < n) :
    (10 : ℚ) ^ (((Nat.toDigits 10 n).length : ℤ) - 1) ≤ n ∧
      (n : ℚ) < 10 ^ ((Nat.toDigits 10 n).length : ℤ) := by
  have hlength := Nat.length_toDigits_pos (b := 10) (n := n)
  constructor
  · have hle : ¬ n < 10 ^ ((Nat.toDigits 10 n).length - 1) := by
      intro hlt
      by_cases hone : (Nat.toDigits 10 n).length - 1 = 0
      · rw [hone] at hlt
        omega
      · have hshort := (Nat.length_toDigits_le_iff (by decide) (by omega)).2 hlt
        omega
    have hcast : ((10 ^ ((Nat.toDigits 10 n).length - 1) : ℕ) : ℚ) ≤ n := by
      exact_mod_cast not_lt.1 hle
    rw [← Nat.cast_pred hlength, zpow_natCast]
    exact_mod_cast hcast
  · rw [zpow_natCast]
    exact_mod_cast (Nat.length_toDigits_le_iff (by decide) hlength).1 (le_refl _)

/-- A decimal that rounds to a number is below `2 ^ 1024`, so it is not cut off as too large. -/
theorem Encloses.magnitude_le {length exponent : ℤ} {digits : ℕ}
    (hlow : (10 : ℚ) ^ (length - 1) ≤ digits) (h : x.Encloses (digits * 10 ^ exponent)) :
    length + exponent ≤ 310 := by
  by_contra hlarge
  have hreached : (10 : ℚ) ^ (310 : ℤ) ≤ digits * 10 ^ exponent := calc
    (10 : ℚ) ^ (310 : ℤ) ≤ 10 ^ (length - 1 + exponent) :=
      zpow_le_zpow_right₀ (by norm_num) (by omega)
    _ = 10 ^ (length - 1) * 10 ^ exponent := zpow_add₀ (by norm_num) _ _
    _ ≤ digits * 10 ^ exponent := mul_le_mul_of_nonneg_right hlow (ten_zpow_pos exponent).le
  have hlimit : (2 : ℚ) ^ (x.exponent + 53) ≤ 2 ^ (1024 : ℤ) := by
    have hle := exponent_le x
    exact zpow_le_zpow_right₀ (by norm_num) (by omega)
  have hcompare : (2 : ℚ) ^ (1024 : ℤ) ≤ 10 ^ (310 : ℤ) :=
    two_zpow_le_ten_zpow (by decide) (by decide)
  exact absurd (hreached.trans_lt h.lt) (not_lt.2 (hlimit.trans hcompare))

/-- A decimal that rounds to a number other than zero is at least `2 ^ -1075`, so it is not cut
    off as too small. -/
theorem Encloses.le_magnitude (hm : 0 < x.significand) {length exponent : ℤ} {digits : ℕ}
    (hhigh : (digits : ℚ) < 10 ^ length) (h : x.Encloses (digits * 10 ^ exponent)) :
    -330 ≤ length + exponent := by
  by_contra htiny
  have hreached : (digits : ℚ) * 10 ^ exponent < 10 ^ (-330 : ℤ) := calc
    (digits : ℚ) * 10 ^ exponent < 10 ^ length * 10 ^ exponent :=
      mul_lt_mul_of_pos_right hhigh (ten_zpow_pos exponent)
    _ = 10 ^ (length + exponent) := (zpow_add₀ (by norm_num) _ _).symm
    _ ≤ 10 ^ (-330 : ℤ) := zpow_le_zpow_right₀ (by norm_num) (by omega)
  have hlimit : (2 : ℚ) ^ (-1075 : ℤ) ≤ 1 / 2 * 2 ^ x.exponent := by
    have hunit : (2 : ℚ) ^ (-1074 : ℤ) ≤ 2 ^ x.exponent :=
      zpow_le_zpow_right₀ (by norm_num) (exponent_ge x)
    have hdouble : (2 : ℚ) ^ (-1074 : ℤ) = 2 * 2 ^ (-1075 : ℤ) := by
      rw [← two_zpow_succ]
      rfl
    linarith
  have hcompare : (10 : ℚ) ^ (-330 : ℤ) ≤ 2 ^ (-1075 : ℤ) :=
    ten_zpow_le_two_zpow (by decide) (by decide)
  have hhalf := h.half_le hm
  linarith

/-- **A decimal in the interval of a number is read as that number.** -/
theorem ofDecimal_of_encloses (hm : 0 < x.significand) {digits : ℕ} {exponent : ℤ}
    (h : x.Encloses (digits * 10 ^ exponent)) :
    ofDecimal x.negative digits exponent = some x := by
  have hpositive : (0 : ℚ) < digits * 10 ^ exponent :=
    lt_of_lt_of_le (mul_pos (by norm_num) (two_zpow_pos _)) (h.half_le hm)
  have hdigits : 0 < digits := by
    apply Nat.pos_of_ne_zero
    intro hzero
    rw [hzero] at hpositive
    simp at hpositive
  obtain ⟨hlow, hhigh⟩ := digits_bounds hdigits
  have hbig := not_lt.2 (h.magnitude_le hlow)
  have hsmall := not_lt.2 (h.le_magnitude hm hhigh)
  have hpower := zpow_eq_div 10 (by decide) exponent
  rw [Nat.cast_ofNat] at hpower
  rw [hpower] at h
  unfold ofDecimal
  dsimp only
  rw [if_neg hdigits.ne', if_neg hbig, if_neg hsmall]
  -- What is left is the quotient of the digits and a power of ten, one of the two being scaled.
  by_cases hsign : 0 ≤ exponent
  · have hone : (-exponent).toNat = 0 := by omega
    rw [if_pos hsign]
    apply ofQuotient_of_encloses (Nat.mul_pos hdigits (Nat.pow_pos (by decide))) (by decide)
    rw [hone] at h
    simpa using h
  · have hone : exponent.toNat = 0 := by omega
    rw [if_neg hsign]
    apply ofQuotient_of_encloses hdigits (Nat.pow_pos (by decide))
    rw [hone] at h
    simpa [div_eq_mul_inv] using h

end SeriesBroker.Binary64
