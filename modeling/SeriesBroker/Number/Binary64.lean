/-! # Binary64 numbers

    A finite binary64 number is a sign, a significand and a power of two. Every function here
    works on natural numbers, so each rounding is exact and visible to a proof: a decimal is
    read by dividing two naturals and rounding the quotient to the nearest significand, with
    ties going to the even one.

    Infinities and not-a-number have no constructor. `Binary64.ofDecimal` answers `none` for a
    value that would round past the largest finite number, and zero for one that is too small
    to be told from zero.
-/

namespace SeriesBroker

/-- The least significand of 53 bits, `2 ^ 52`. -/
abbrev Binary64.leastNormal : Nat := 4503599627370496

/-- The pairs that binary64 can hold: either the significand uses all 53 bits, or the exponent
    is the least one. Each value has exactly one such pair. -/
def Binary64.Canonical (significand : Nat) (exponent : Int) : Prop :=
  (leastNormal ≤ significand ∧ significand < 2 * leastNormal ∧
      -1074 ≤ exponent ∧ exponent ≤ 971) ∨
    (significand < leastNormal ∧ exponent = -1074)

instance (significand : Nat) (exponent : Int) :
    Decidable (Binary64.Canonical significand exponent) := by
  unfold Binary64.Canonical; infer_instance

/-- The number `± significand · 2 ^ exponent`. Zero keeps its sign. -/
structure Binary64 where
  /-- Whether the number carries a minus sign. -/
  negative : Bool
  /-- The integral significand. -/
  significand : Nat
  /-- The power of two that scales the significand. -/
  exponent : Int
  /-- Only one pair stands for each magnitude. -/
  canonical : Binary64.Canonical significand exponent
  deriving DecidableEq

namespace Binary64

def zero (negative : Bool) : Binary64 :=
  ⟨negative, 0, -1074, .inr ⟨by decide, rfl⟩⟩

instance : Inhabited Binary64 := ⟨zero false⟩

/-- Assemble a number if its parts are canonical. -/
def ofParts? (negative : Bool) (significand : Nat) (exponent : Int) : Option Binary64 :=
  if h : Canonical significand exponent then some ⟨negative, significand, exponent, h⟩ else none

/-! ## Rounding a quotient -/

/-- The quotient rounded to the nearest natural number, a half going to the even neighbour. -/
def roundQuotient (num den : Nat) : Nat :=
  let quotient := num / den
  let twice := 2 * (num % den)
  if twice < den then quotient
  else if den < twice then quotient + 1
  else if quotient % 2 = 0 then quotient
  else quotient + 1

/-- The largest `k` with `2 ^ k ≤ num / den`, for positive arguments. -/
def floorLog2 (num den : Nat) : Int :=
  let k : Int := (num.log2 : Int) - (den.log2 : Int)
  let reached :=
    if 0 ≤ k then den * Nat.pow 2 k.toNat ≤ num
    else den ≤ num * Nat.pow 2 (-k).toNat
  if reached then k else k - 1

/-- The binary64 number nearest to `num / den`, ties to even; `none` past the largest one. -/
def ofQuotient (negative : Bool) (num den : Nat) : Option Binary64 :=
  if num = 0 then some (zero negative)
  else
    let exponent := max (floorLog2 num den - 52) (-1074)
    let significand :=
      if 0 ≤ exponent then roundQuotient num (den * Nat.pow 2 exponent.toNat)
      else roundQuotient (num * Nat.pow 2 (-exponent).toNat) den
    if significand = 2 * leastNormal then ofParts? negative leastNormal (exponent + 1)
    else ofParts? negative significand exponent

/-- The binary64 number nearest to `digits · 10 ^ exponent`.

    A value with more than 310 digits before the point is past every finite number and one
    below `10 ^ -330` rounds to zero, so the powers of ten that are computed stay small. -/
def ofDecimal (negative : Bool) (digits : Nat) (exponent : Int) : Option Binary64 :=
  if digits = 0 then some (zero negative)
  else
    let magnitude : Int := ((Nat.toDigits 10 digits).length : Int) + exponent
    if 310 < magnitude then none
    else if magnitude < -330 then some (zero negative)
    else if 0 ≤ exponent then ofQuotient negative (digits * Nat.pow 10 exponent.toNat) 1
    else ofQuotient negative digits (Nat.pow 10 (-exponent).toNat)

end Binary64

end SeriesBroker
