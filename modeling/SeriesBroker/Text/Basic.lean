/-! # Characters and texts

    Blank characters, hexadecimal digits, and numbers as a person writes them.
-/

namespace SeriesBroker.Text

/-! ## Blank characters

    The characters with the property `White_Space`, and the trimming of a text by them.
-/

/-- Whether a character is white space: the ASCII controls from tab to return, the space, and
    the separators outside ASCII. -/
def isBlank (c : Char) : Bool :=
  let code := c.toNat
  (0x9 ≤ code && code ≤ 0xd) || code == 0x20 || code == 0x85 || code == 0xa0 ||
    code == 0x1680 || (0x2000 ≤ code && code ≤ 0x200a) || code == 0x2028 || code == 0x2029 ||
    code == 0x202f || code == 0x205f || code == 0x3000

/-- Drop the characters at the end of a text that satisfy `p`. -/
def dropEnd (p : Char → Bool) (text : List Char) : List Char :=
  (text.reverse.dropWhile p).reverse

/-- A text without the blanks at its two ends. -/
def trim (text : String) : String :=
  String.ofList (dropEnd isBlank (text.toList.dropWhile isBlank))

/-- A text whose ASCII letters are all in lower case; other characters stay. -/
def lowerAscii (text : String) : String :=
  String.ofList (text.toList.map Char.toLower)

/-- Whether `needle` occurs in `text`. -/
def occursIn (needle : List Char) : List Char → Bool
  | [] => needle.isEmpty
  | c :: rest => needle.isPrefixOf (c :: rest) || occursIn needle rest

/-! ## Hexadecimal digits -/

/-- The value of a hexadecimal digit, in either case. -/
def hexValue? (c : Char) : Option Nat :=
  let code := c.toNat
  if 0x30 ≤ code ∧ code ≤ 0x39 then some (code - 0x30)
  else if 0x41 ≤ code ∧ code ≤ 0x46 then some (code - 0x41 + 10)
  else if 0x61 ≤ code ∧ code ≤ 0x66 then some (code - 0x61 + 10)
  else none

/-- The digit of a value below sixteen, letters in lower case. -/
def hexLower (value : Nat) : Char := Nat.digitChar value

/-- The digit of a value below sixteen, letters in upper case. -/
def hexUpper (value : Nat) : Char := (Nat.digitChar value).toUpper

/-- A byte as two lower-case digits. -/
def byteLower (value : Nat) : List Char := [hexLower (value / 16), hexLower (value % 16)]

/-- A byte as two upper-case digits. -/
def byteUpper (value : Nat) : List Char := [hexUpper (value / 16), hexUpper (value % 16)]

/-! ## Unsigned numbers in settings

    How a number is written where a person sets it: ASCII digits, with a plus sign before them
    if they like.
-/

/-- The number that a text writes. -/
def unsigned? (text : String) : Option Nat :=
  let digits :=
    match text.toList with
    | '+' :: rest => rest
    | rest => rest
  if digits.isEmpty || !digits.all Char.isDigit then none
  else some (Nat.ofDigitChars 10 digits 0)

/-- The number that a text writes, if it is below a bound. -/
def unsignedBelow? (bound : Nat) (text : String) : Option Nat :=
  (unsigned? text).filter (· < bound)

end SeriesBroker.Text
