import SeriesBroker.Text.Basic

/-! # TOML strings

    Strings are written between quotation marks, with escapes, or between apostrophes, as they
    are. Three marks enclose a string of several lines. Each reader starts after the opening
    marks.
-/

namespace SeriesBroker.Toml

def isBlank (c : Char) : Bool := c == ' ' || c == '\t'

/-- Whether a character may stand in a comment or a string. Tabs are the only controls. -/
def isPlain (c : Char) : Bool := c == '\t' || (0x20 ≤ c.toNat && c.toNat != 0x7f)

def hexDigits? (digits : List Char) : Option Nat :=
  digits.foldlM (fun value c => (Text.hexValue? c).map (value * 16 + ·)) 0

/-- The character of a numbered escape. Halves of pairs are none. -/
def escapedChar? (digits : List Char) : Option Char := do
  let code ← hexDigits? digits
  if code.isValidChar then some (Char.ofNat code) else none

def shortEscape? : Char → Option Char
  | 'b' => some '\x08'
  | 't' => some '\t'
  | 'n' => some '\n'
  | 'f' => some '\x0c'
  | 'r' => some '\r'
  | '"' => some '"'
  | '\\' => some '\\'
  | _ => none

/-- Read a string up to its quotation mark. -/
def readBasic (collected : List Char) : List Char → Option (String × List Char)
  | [] => none
  | '"' :: rest => some (String.ofList collected.reverse, rest)
  | '\\' :: 'u' :: a :: b :: c :: d :: rest =>
    match escapedChar? [a, b, c, d] with
    | some e => readBasic (e :: collected) rest
    | none => none
  | '\\' :: 'U' :: a :: b :: c :: d :: e :: f :: g :: h :: rest =>
    match escapedChar? [a, b, c, d, e, f, g, h] with
    | some e => readBasic (e :: collected) rest
    | none => none
  | '\\' :: c :: rest =>
    match shortEscape? c with
    | some e => readBasic (e :: collected) rest
    | none => none
  | c :: rest => if isPlain c && c != '\\' then readBasic (c :: collected) rest else none

/-- Read a string up to its apostrophe. -/
def readLiteral (collected : List Char) : List Char → Option (String × List Char)
  | [] => none
  | '\'' :: rest => some (String.ofList collected.reverse, rest)
  | c :: rest => if isPlain c then readLiteral (c :: collected) rest else none

/-- What is skipped while a string of several lines is read. -/
inductive Skipping where
  /-- Nothing. -/
  | nothing
  /-- Blanks up to the end of a line that ends in a backslash. -/
  | line
  /-- Blanks and empty lines after such a line. -/
  | lines
  deriving DecidableEq

/-- The end of a string with three marks. Up to two further marks belong to the string. -/
def closeLong (mark : Char) (collected rest : List Char) : String × List Char :=
  let extra := min 2 (rest.takeWhile (· == mark)).length
  (String.ofList (collected.reverse ++ List.replicate extra mark), rest.drop extra)

/-- Read a string of several lines up to its quotation marks. -/
def readLongBasic (collected : List Char) (skipping : Skipping) :
    List Char → Option (String × List Char)
  | [] => none
  | '\r' :: '\n' :: rest =>
    match skipping with
    | .nothing => readLongBasic ('\n' :: collected) .nothing rest
    | _ => readLongBasic collected .lines rest
  | '\n' :: rest =>
    match skipping with
    | .nothing => readLongBasic ('\n' :: collected) .nothing rest
    | _ => readLongBasic collected .lines rest
  | '"' :: '"' :: '"' :: rest =>
    if skipping = .line then none else some (closeLong '"' collected rest)
  | '\\' :: 'u' :: a :: b :: c :: d :: rest =>
    match skipping, escapedChar? [a, b, c, d] with
    | .line, _ => none
    | _, some e => readLongBasic (e :: collected) .nothing rest
    | _, none => none
  | '\\' :: 'U' :: a :: b :: c :: d :: e :: f :: g :: h :: rest =>
    match skipping, escapedChar? [a, b, c, d, e, f, g, h] with
    | .line, _ => none
    | _, some e => readLongBasic (e :: collected) .nothing rest
    | _, none => none
  | '\\' :: c :: rest =>
    if skipping = .line then none
    else if isBlank c then readLongBasic collected .line rest
    else if c = '\n' then readLongBasic collected .lines rest
    else if c = '\r' then
      match rest with
      | '\n' :: rest => readLongBasic collected .lines rest
      | _ => none
    else
      match shortEscape? c with
      | some e => readLongBasic (e :: collected) .nothing rest
      | none => none
  | c :: rest =>
    if skipping ≠ .nothing ∧ isBlank c then readLongBasic collected skipping rest
    else if skipping = .line ∨ !isPlain c ∨ c = '\\' then none
    else readLongBasic (c :: collected) .nothing rest

/-- Read a string of several lines up to its apostrophes. -/
def readLongLiteral (collected : List Char) : List Char → Option (String × List Char)
  | [] => none
  | '\r' :: '\n' :: rest => readLongLiteral ('\n' :: collected) rest
  | '\n' :: rest => readLongLiteral ('\n' :: collected) rest
  | '\'' :: '\'' :: '\'' :: rest => some (closeLong '\'' collected rest)
  | c :: rest => if isPlain c then readLongLiteral (c :: collected) rest else none

/-- Drop a line break that directly follows the opening marks. -/
def dropLineBreak : List Char → List Char
  | '\n' :: rest => rest
  | '\r' :: '\n' :: rest => rest
  | rest => rest

/-- Read a string of one line, which may also be a key. -/
def readQuoted : List Char → Option (String × List Char)
  | '"' :: rest => readBasic [] rest
  | '\'' :: rest => readLiteral [] rest
  | _ => none

/-- Read a string of any kind. -/
def readText : List Char → Option (String × List Char)
  | '"' :: '"' :: '"' :: rest => readLongBasic [] .nothing (dropLineBreak rest)
  | '\'' :: '\'' :: '\'' :: rest => readLongLiteral [] (dropLineBreak rest)
  | text => readQuoted text

end SeriesBroker.Toml
