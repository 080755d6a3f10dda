import SeriesBroker.Number.Shortest

/-! # JSON numbers

    A JSON number keeps integers exact as far as 64 bits reach, from `-2 ^ 63` up to but not
    including `2 ^ 64`. Every other literal stands for a binary64 number, and so does `-0`, which
    no integer can tell from zero.

    Which binary64 number that is differs from reader to reader. Some find the nearest one. Others
    keep 64 bits of the digits and scale them by the power of ten, rounding twice, and may miss
    the nearest one by its last bit. So this step is left open (`FloatReader`), and programs run
    with the nearest number.
-/

namespace SeriesBroker.Json

/-- The least integer that is kept exact, `-2 ^ 63`. -/
abbrev leastInteger : Int := -9223372036854775808

/-- The least number above all integers that are kept exact, `2 ^ 64`. -/
abbrev integerBound : Int := 18446744073709551616

/-- A number as it is read, kept and written. -/
inductive Number where
  /-- An integer that fits 64 bits, signed or unsigned. -/
  | integer (value : Int) (fits : leastInteger ≤ value ∧ value < integerBound)
  /-- Any other number. -/
  | float (value : Binary64)
  deriving DecidableEq

def intText (value : Int) : List Char :=
  if value < 0 then '-' :: Nat.toDigits 10 value.natAbs else Nat.toDigits 10 value.natAbs

namespace Number

instance : Inhabited Number := ⟨.float default⟩

/-- The text of a number, the same in JSON and in a query. -/
def text : Number → List Char
  | .integer value _ => intText value
  | .float value => value.text

/-- An integer as a number, if it is in range. -/
def ofInt? (value : Int) : Option Number :=
  if h : leastInteger ≤ value ∧ value < integerBound then some (.integer value h) else none

end Number

/-! ## Literals -/

structure Literal where
  /-- Whether it starts with a minus sign. -/
  negative : Bool
  /-- The digits before the point. -/
  whole : List Char
  /-- The digits after the point, if there is one. -/
  fraction : Option (List Char)
  /-- The power of ten, if one is written. -/
  power : Option Int
  deriving DecidableEq

/-- How literals that are not kept as integers are rounded. -/
class FloatReader where
  /-- The float of a literal; `none` when it is out of the range of floats. -/
  float? : Literal → Option Binary64

instance nearestFloat : FloatReader where
  float? l :=
    let decimals := l.fraction.getD []
    Binary64.ofDecimal l.negative (Nat.ofDigitChars 10 (l.whole ++ decimals) 0)
      (l.power.getD 0 - decimals.length)

namespace Literal

/-- The number of an integer literal, if it fits 64 bits. A zero with a sign does not. -/
def integer? (l : Literal) : Option Number :=
  match l.fraction, l.power with
  | none, none =>
    let digits := Nat.ofDigitChars 10 l.whole 0
    if l.negative && digits == 0 then none
    else Number.ofInt? (if l.negative then -(digits : Int) else digits)
  | _, _ => none

/-- The number that a literal denotes; `none` when it is out of the range of floats. -/
def number? [FloatReader] (l : Literal) : Option Number :=
  l.integer?.or ((FloatReader.float? l).map .float)

end Literal

end SeriesBroker.Json
