import SeriesBroker.Number.Binary64

/-! # Shortest decimal text

    A binary64 number is written with the fewest digits that still read back as the same
    number, and of those decimals the one nearest to it.

    Key idea: the reals that round to `m · 2 ^ e` form an interval around it, with its ends
    included exactly when `m` is even. On the grid of the multiples of `10 ^ k`, if any point
    lies in that interval then so does one of the two neighbours of the number. So it is enough
    to look at two candidates per grid, from the coarsest grid to the finest.
-/

namespace SeriesBroker.Binary64

/-! ## The interval of a number -/

/-- The interval of reals that round to a positive number, over a common denominator. -/
structure Interval where
  /-- The number itself is `value / den`. -/
  value : Nat
  /-- The lower end is `low / den`. -/
  low : Nat
  /-- The upper end is `high / den`. -/
  high : Nat
  /-- The common denominator. -/
  den : Nat
  /-- Whether the two ends belong to the interval. -/
  closed : Bool

/-- The neighbour below a power of two is only half as far away as the one above. -/
def interval (x : Binary64) : Interval :=
  let scale := Nat.pow 2 x.exponent.toNat
  let below := if x.significand = leastNormal ∧ x.exponent ≠ -1074 then 1 else 2
  { value := 4 * x.significand * scale
    low := (4 * x.significand - below) * scale
    high := (4 * x.significand + 2) * scale
    den := 4 * Nat.pow 2 (-x.exponent).toNat
    closed := x.significand % 2 = 0 }

/-- Whether the grid point `c · 10 ^ k` lies in the interval. -/
def Interval.contains (i : Interval) (c : Nat) (k : Int) : Bool :=
  let point := c * Nat.pow 10 k.toNat * i.den
  let unit := Nat.pow 10 (-k).toNat
  if i.closed then i.low * unit ≤ point && point ≤ i.high * unit
  else i.low * unit < point && point < i.high * unit

/-- The point of the grid `10 ^ k` that stands for the number, if one does. Of two candidates
    the nearer one is taken, and the even one when both are equally near. -/
def Interval.candidate (i : Interval) (k : Int) : Option Nat :=
  let cell := Nat.pow 10 k.toNat * i.den
  let target := i.value * Nat.pow 10 (-k).toNat
  let floor := target / cell
  match i.contains floor k, i.contains (floor + 1) k with
  | true, true =>
    let twice := 2 * (target % cell)
    if twice < cell then some floor
    else if cell < twice then some (floor + 1)
    else if floor % 2 = 0 then some floor
    else some (floor + 1)
  | true, false => some floor
  | false, true => some (floor + 1)
  | false, false => none

/-- Try the grids `10 ^ k`, `10 ^ (k - 1)`, ... until one holds a candidate. -/
def Interval.search (i : Interval) : Nat → Int → Nat × Int
  | 0, k => (i.value * Nat.pow 10 (-k).toNat / (Nat.pow 10 k.toNat * i.den), k)
  | steps + 1, k =>
    match i.candidate k with
    | some c => (c, k)
    | none => i.search steps (k - 1)

/-- The digits and the decimal exponent of the shortest decimal. The first grid is at least as
    coarse as the number itself, and seventeen digits always suffice. -/
def shortest (x : Binary64) : Nat × Int :=
  if x.significand = 0 then (0, 0)
  else
    let bits : Int := (x.significand.log2 : Int) + x.exponent + 1
    x.interval.search 24 (bits * 30103 / 100000 + 1)

/-! ## Layout -/

/-- The exponents of ten, counted from the first digit, that are written positionally: from
    `0.00001` up to but not including `1e+16`. -/
def positional (exponent : Int) : Bool := -5 ≤ exponent && exponent < 16

/-- A positional number always has a fraction. -/
def layoutPositional (digits : List Char) (exponent : Int) : List Char :=
  let point : Int := digits.length + exponent
  if 0 ≤ exponent then
    digits ++ List.replicate exponent.toNat '0' ++ ['.', '0']
  else if 0 < point then
    digits.take point.toNat ++ '.' :: digits.drop point.toNat
  else
    '0' :: '.' :: (List.replicate (-point).toNat '0' ++ digits)

/-- A scientific number has one digit before the point, no empty fraction, and always a sign
    before its exponent. -/
def layoutScientific (digits : List Char) (exponent : Int) : List Char :=
  let power : Int := digits.length + exponent - 1
  let mantissa :=
    match digits with
    | [] => []
    | [d] => [d]
    | d :: rest => d :: '.' :: rest
  mantissa ++ 'e' :: (if power < 0 then '-' else '+') :: Nat.toDigits 10 power.natAbs

/-- The text of a number: `0.1`, `100.0`, `-0.0`, `1e+16`, `5e-324`. -/
def text (x : Binary64) : List Char :=
  let (digits, exponent) := x.shortest
  let digits := Nat.toDigits 10 digits
  let unsigned :=
    if x.significand = 0 then ['0', '.', '0']
    else if positional (digits.length + exponent - 1) then layoutPositional digits exponent
    else layoutScientific digits exponent
  if x.negative then '-' :: unsigned else unsigned

end SeriesBroker.Binary64
