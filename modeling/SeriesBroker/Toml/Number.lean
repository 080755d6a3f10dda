import SeriesBroker.Number.Binary64
import SeriesBroker.Text.Basic
import SeriesBroker.Toml.Value
import SeriesBroker.Time.Rfc3339

/-! # TOML numbers and dates

    Digits may be grouped by single underscores. Integers fit 64 bits, and a float may not be
    so large that it would be infinite.
-/

namespace SeriesBroker.Toml

/-- Read further digits and single underscores between them, collecting the digits in
    reverse. -/
def readMoreDigits (isDigit : Char → Bool) (collected : List Char) :
    List Char → List Char × List Char
  | '_' :: c :: rest =>
    if isDigit c then readMoreDigits isDigit (c :: collected) rest
    else (collected.reverse, '_' :: c :: rest)
  | c :: rest =>
    if isDigit c then readMoreDigits isDigit (c :: collected) rest
    else (collected.reverse, c :: rest)
  | [] => (collected.reverse, [])

def readDigits (isDigit : Char → Bool) : List Char → Option (List Char × List Char)
  | c :: rest => if isDigit c then some (readMoreDigits isDigit [c] rest) else none
  | [] => none

/-- Read decimal digits of which the first is zero only if it is alone. -/
def readWhole : List Char → Option (List Char × List Char)
  | '0' :: rest => some (['0'], rest)
  | text => readDigits Char.isDigit text

/-- Read a sign, a missing one being positive. -/
def readSign : List Char → Bool × List Char
  | '-' :: rest => (true, rest)
  | '+' :: rest => (false, rest)
  | rest => (false, rest)

/-- An integer that fits 64 bits. -/
def integer? (value : Int) : Option Value :=
  if -9223372036854775808 ≤ value ∧ value < 9223372036854775808 then some (.integer value)
  else none

/-- Read an integer in a base other than ten, after the mark of the base. -/
def readBased (base : Nat) (text : List Char) : Option (Value × List Char) := do
  let isDigit (c : Char) : Bool := (Text.hexValue? c).any (· < base)
  let (digits, rest) ← readDigits isDigit text
  let value := digits.foldl (fun value c => value * base + (Text.hexValue? c).getD 0) 0
  let value ← integer? value
  pure (value, rest)

/-- Read the fraction of a float after its point. -/
def readDecimals : List Char → Option (List Char × List Char)
  | '.' :: rest => readDigits Char.isDigit rest
  | rest => some ([], rest)

/-- Read the exponent of a float. -/
def readPower : List Char → Option (Option Int × List Char)
  | 'e' :: rest | 'E' :: rest => do
    let (negative, rest) := readSign rest
    let (digits, rest) ← readDigits Char.isDigit rest
    let power : Int := Nat.ofDigitChars 10 digits 0
    pure (some (if negative then -power else power), rest)
  | rest => some (none, rest)

def readDecimal (text : List Char) : Option (Value × List Char) := do
  let (negative, rest) := readSign text
  let (whole, rest) ← readWhole rest
  let (decimals, rest) ← readDecimals rest
  let (power, rest) ← readPower rest
  if decimals.isEmpty ∧ power.isNone then
    let value : Int := Nat.ofDigitChars 10 whole 0
    let value ← integer? (if negative then -value else value)
    pure (value, rest)
  else
    let digits := Nat.ofDigitChars 10 (whole ++ decimals) 0
    let finite := (Binary64.ofDecimal false digits (power.getD 0 - decimals.length)).isSome
    if finite || negative then pure (.float, rest) else none

def readNumber (text : List Char) : Option (Value × List Char) :=
  match (readSign text).2, text with
  | 'i' :: 'n' :: 'f' :: rest, _ => some (.float, rest)
  | 'n' :: 'a' :: 'n' :: rest, _ => some (.float, rest)
  | _, '0' :: 'x' :: rest => readBased 16 rest
  | _, '0' :: 'o' :: rest => readBased 8 rest
  | _, '0' :: 'b' :: rest => readBased 2 rest
  | _, text => readDecimal text

/-! ## Dates -/

/-- Read a time of day after its hour. -/
def readTime (text : List Char) : Option (List Char) := do
  let (hour, rest) ← Timestamp.readNumber 2 text
  let rest ← Timestamp.readOneOf [':'] rest
  let (minute, rest) ← Timestamp.readNumber 2 rest
  let rest ← Timestamp.readOneOf [':'] rest
  let (second, rest) ← Timestamp.readNumber 2 rest
  guard (hour ≤ 23 ∧ minute ≤ 59 ∧ second ≤ 60)
  let (_, rest) ← Timestamp.readFraction rest
  pure rest

/-- Read the offset of a time, if there is one. -/
def readZone : List Char → Option (List Char)
  | '\u2212' :: rest => some ('\u2212' :: rest)
  | text =>
    match text with
    | c :: _ =>
      if ['Z', 'z', '+', '-'].contains c then (Timestamp.readOffset text).map (·.2) else some text
    | [] => some []

/-- Read a date that exists. -/
def readDate (text : List Char) : Option (List Char) := do
  let (year, rest) ← Timestamp.readNumber 4 text
  let rest ← Timestamp.readOneOf ['-'] rest
  let (month, rest) ← Timestamp.readNumber 2 rest
  let rest ← Timestamp.readOneOf ['-'] rest
  let (day, rest) ← Timestamp.readNumber 2 rest
  guard (Calendar.Date.valid ⟨year, month, day⟩)
  pure rest

/-- Read a time, a date, or a date with a time and maybe an offset. -/
def readMoment (text : List Char) : Option (List Char) :=
  match readDate text with
  | none => readTime text
  | some rest =>
    match Timestamp.readOneOf ['T', 't', ' '] rest with
    | none => some rest
    | some timed =>
      match readTime timed with
      | none => some rest
      | some rest => readZone rest

end SeriesBroker.Toml
