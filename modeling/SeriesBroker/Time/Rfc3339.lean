import SeriesBroker.Time.Instant

/-! # Timestamps

    Timestamps are read in the form of RFC 3339: a date, one of `T`, `t` and the space, a time
    with an optional fraction, and `Z`, `z` or an offset. Fractions are cut to nanoseconds, and
    the second 60 stands for a leap second in any minute. The instant is the local time less
    its offset.

    They are written in universal time, with the shortest fraction. A year that does not fit
    four digits is written with its sign.
-/

namespace SeriesBroker.Timestamp

/-! ## Reading -/

/-- A number of exactly `count` digits. -/
def readNumber (count : Nat) (text : List Char) : Option (Nat × List Char) :=
  let digits := text.take count
  if digits.length = count ∧ digits.all Char.isDigit then
    some (Nat.ofDigitChars 10 digits 0, text.drop count)
  else none

/-- One of the given characters. -/
def readOneOf (allowed : List Char) : List Char → Option (List Char)
  | c :: rest => if allowed.contains c then some rest else none
  | [] => none

/-- The nanoseconds of a fraction, of which the first nine digits count. -/
def nanoseconds (digits : List Char) : Nat :=
  Nat.ofDigitChars 10 (List.rightpad 9 '0' (digits.take 9)) 0

/-- An optional fraction: a point and at least one digit. -/
def readFraction : List Char → Option (Nat × List Char)
  | '.' :: rest =>
    let digits := rest.takeWhile Char.isDigit
    if digits.isEmpty then none else some (nanoseconds digits, rest.dropWhile Char.isDigit)
  | rest => some (0, rest)

/-- The sign of an offset. The minus sign U+2212 is one as well as the hyphen. -/
def readSign : List Char → Option (Bool × List Char)
  | '+' :: rest => some (false, rest)
  | '-' :: rest => some (true, rest)
  | '\u2212' :: rest => some (true, rest)
  | _ => none

/-- The seconds by which local time is ahead. Hours reach 23 and minutes 59. -/
def readOffset : List Char → Option (Int × List Char)
  | 'Z' :: rest | 'z' :: rest => some (0, rest)
  | text => do
    let (negative, rest) ← readSign text
    let (hours, rest) ← readNumber 2 rest
    let rest ← readOneOf [':'] rest
    let (minutes, rest) ← readNumber 2 rest
    guard (hours ≤ 23 ∧ minutes ≤ 59)
    let seconds : Int := hours * 3600 + minutes * 60
    pure (if negative then -seconds else seconds, rest)

/-- The instant of a local time, if its parts are in range. -/
def instant? (date : Calendar.Date) (hour minute second nano : Nat) (offset : Int) :
    Option Instant :=
  if date.valid ∧ hour ≤ 23 ∧ minute ≤ 59 ∧ second ≤ 60 then
    let leap := second = 60
    let second := if leap then 59 else second
    let nano := if leap then nano + 1000000000 else nano
    if h : nano < 2000000000 then
      some (.ofSeconds (date.toDay * 86400 + hour * 3600 + minute * 60 + second - offset) nano h)
    else none
  else none

def read (text : List Char) : Option Instant := do
  let (year, rest) ← readNumber 4 text
  let rest ← readOneOf ['-'] rest
  let (month, rest) ← readNumber 2 rest
  let rest ← readOneOf ['-'] rest
  let (day, rest) ← readNumber 2 rest
  let rest ← readOneOf ['T', 't', ' '] rest
  let (hour, rest) ← readNumber 2 rest
  let rest ← readOneOf [':'] rest
  let (minute, rest) ← readNumber 2 rest
  let rest ← readOneOf [':'] rest
  let (second, rest) ← readNumber 2 rest
  let (nano, rest) ← readFraction rest
  let (offset, rest) ← readOffset rest
  guard rest.isEmpty
  instant? ⟨year, month, day⟩ hour minute second nano offset

/-- The instant that a text denotes as a timestamp. -/
def ofText? (text : String) : Option Instant := read text.toList

/-! ## Writing -/

/-- A number with at least `width` digits. -/
def padded (width : Nat) (value : Nat) : List Char :=
  List.leftpad width '0' (Nat.toDigits 10 value)

/-- A year, with a sign unless it is one of 0 to 9999. -/
def yearText (year : Int) : List Char :=
  if year < 0 then '-' :: padded 4 year.natAbs
  else if year ≤ 9999 then padded 4 year.natAbs
  else '+' :: padded 4 year.natAbs

/-- The fraction of a second without trailing zeros, nothing if it is zero. -/
def fractionText (nano : Nat) : List Char :=
  if nano = 0 then []
  else '.' :: ((padded 9 nano).reverse.dropWhile (· == '0')).reverse

def render (i : Instant) : List Char :=
  let date := Calendar.Date.ofDay i.day
  let leap := 1000000000 ≤ i.nano
  yearText date.year ++ '-' :: padded 2 date.month ++ '-' :: padded 2 date.day ++
    'T' :: padded 2 (i.second / 3600) ++ ':' :: padded 2 (i.second / 60 % 60) ++
    ':' :: padded 2 (if leap then i.second % 60 + 1 else i.second % 60) ++
    fractionText (if leap then i.nano - 1000000000 else i.nano) ++ ['Z']

def toText (i : Instant) : String := String.ofList (render i)

end SeriesBroker.Timestamp
