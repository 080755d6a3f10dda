import SeriesBroker.Json.Number
import SeriesBroker.Text.Basic
import SeriesBroker.Text.Utf8

/-! # JSON tokens

    The first step of reading JSON: a text becomes a list of tokens. Nothing fails here. Where
    the text stops being JSON the list ends with `Token.malformed`, so that a later step can
    still report a fault of the data that stands before that place.

    A string literal may have no text (half of a surrogate pair, bytes that are no characters)
    and a number literal may be out of range. Both are legal where their value is not needed,
    so the tokens carry an `Option`.
-/

namespace SeriesBroker.Json

open Text (Symbol)

inductive Token where
  | openArray
  | closeArray
  | openObject
  | closeObject
  | comma
  | colon
  | null
  | bool (value : Bool)
  /-- A number literal; `none` when it is past the range of floats. -/
  | number (value : Option Number)
  /-- A string literal; `none` when it denotes no text. -/
  | string (text : Option String)
  /-- Here the text stops being JSON. -/
  | malformed
  deriving DecidableEq

/-! ## Numbers -/

def isDigitSymbol : Symbol → Bool
  | some c => c.isDigit
  | none => false

/-- The longest run of digits at the front, and what follows. -/
def readDigits (text : List Symbol) : List Char × List Symbol :=
  ((text.takeWhile isDigitSymbol).filterMap id, text.dropWhile isDigitSymbol)

/-- The fraction of a literal: a point asks for at least one digit. -/
def readFraction : List Symbol → Option (Option (List Char) × List Symbol)
  | some '.' :: rest =>
    match readDigits rest with
    | ([], _) => none
    | (digits, rest) => some (some digits, rest)
  | rest => some (none, rest)

/-- The sign of an exponent, a missing one being positive. -/
def readSign : List Symbol → Bool × List Symbol
  | some '-' :: rest => (true, rest)
  | some '+' :: rest => (false, rest)
  | rest => (false, rest)

/-- The exponent of a literal: an `e` asks for at least one digit. -/
def readExponent : List Symbol → Option (Option Int × List Symbol)
  | some c :: rest =>
    if c = 'e' ∨ c = 'E' then
      let (negative, rest) := readSign rest
      match readDigits rest with
      | ([], _) => none
      | (digits, rest) =>
        let power : Int := Nat.ofDigitChars 10 digits 0
        some (some (if negative then -power else power), rest)
    else some (none, some c :: rest)
  | rest => some (none, rest)

/-- A number literal after its sign. A leading zero stands alone. -/
def readUnsigned (negative : Bool) (text : List Symbol) : Option (Literal × List Symbol) :=
  match readDigits text with
  | ([], _) => none
  | ('0' :: _ :: _, _) => none
  | (whole, rest) => do
    let (fraction, rest) ← readFraction rest
    let (power, rest) ← readExponent rest
    pure (⟨negative, whole, fraction, power⟩, rest)

/-! ## Strings -/

def hex4? (a b c d : Char) : Option Nat := do
  let a ← Text.hexValue? a
  let b ← Text.hexValue? b
  let c ← Text.hexValue? c
  let d ← Text.hexValue? d
  pure (((a * 16 + b) * 16 + c) * 16 + d)

/-- The character of an escape with one letter. -/
def shortEscape? : Char → Option Char
  | '"' => some '"'
  | '\\' => some '\\'
  | '/' => some '/'
  | 'b' => some '\x08'
  | 'f' => some '\x0c'
  | 'n' => some '\n'
  | 'r' => some '\r'
  | 't' => some '\t'
  | _ => none

/-- Whether a unit is the first half of a pair. -/
def isHighHalf (unit : Nat) : Bool := 0xd800 ≤ unit && unit < 0xdc00

/-- Whether a unit is the second half of a pair. -/
def isLowHalf (unit : Nat) : Bool := 0xdc00 ≤ unit && unit < 0xe000

def joinHalves (high low : Nat) : Char :=
  Char.ofNat (0x10000 + (high - 0xd800) * 0x400 + (low - 0xdc00))

/-- What is known of a string literal while it is read. -/
structure Draft where
  /-- The characters so far, in reverse. -/
  collected : List Char
  /-- Whether everything so far was text. -/
  sound : Bool
  /-- A first half that still waits for its second. -/
  high : Option Nat

namespace Draft

def empty : Draft := ⟨[], true, none⟩

/-- Add a character. A half that waits is left without its partner. -/
def char (d : Draft) (c : Char) : Draft :=
  ⟨c :: d.collected, d.sound && d.high.isNone, none⟩

/-- Add something that is no character. -/
def spoil (d : Draft) : Draft := ⟨d.collected, false, none⟩

/-- Add a numbered escape. -/
def unit (d : Draft) (u : Nat) : Draft :=
  match d.high with
  | some h => if isLowHalf u then ⟨joinHalves h u :: d.collected, d.sound, none⟩ else d.spoil
  | none =>
    if isHighHalf u then ⟨d.collected, d.sound, some u⟩
    else if isLowHalf u then d.spoil
    else d.char (Char.ofNat u)

/-- The text of a finished literal, if it has one. -/
def text? (d : Draft) : Option String :=
  if d.sound && d.high.isNone then some (String.ofList d.collected.reverse) else none

end Draft

/-- Read a string literal after its opening quotation mark. -/
def readString (d : Draft) : List Symbol → Option (Option String × List Symbol)
  | [] => none
  | none :: rest => readString d.spoil rest
  | some '"' :: rest => some (d.text?, rest)
  | some '\\' :: some 'u' :: some a :: some b :: some c :: some e :: rest =>
    match hex4? a b c e with
    | none => none
    | some u => readString (d.unit u) rest
  | some '\\' :: some c :: rest =>
    match shortEscape? c with
    | some e => readString (d.char e) rest
    | none => none
  | some '\\' :: _ => none
  | some c :: rest => if c.toNat < 0x20 then none else readString (d.char c) rest

/-! ## Tokens -/

/-- Whether a symbol is white space between tokens. -/
def isSpace (s : Symbol) : Bool :=
  s == some ' ' || s == some '\n' || s == some '\t' || s == some '\r'

/-- The number token at the front of a text that starts with a sign or a digit. -/
def readNumber [FloatReader] (text : List Symbol) : Option (Token × List Symbol) :=
  let literal :=
    match text with
    | some '-' :: rest => readUnsigned true rest
    | rest => readUnsigned false rest
  literal.map fun (l, rest) => (.number l.number?, rest)

/-- The token at the front of a text that does not start with white space. -/
def readToken [FloatReader] : List Symbol → Option (Token × List Symbol)
  | some '[' :: rest => some (.openArray, rest)
  | some ']' :: rest => some (.closeArray, rest)
  | some '\x7b' :: rest => some (.openObject, rest)
  | some '\x7d' :: rest => some (.closeObject, rest)
  | some ',' :: rest => some (.comma, rest)
  | some ':' :: rest => some (.colon, rest)
  | some '"' :: rest => (readString .empty rest).map fun (s, rest) => (.string s, rest)
  | some 'n' :: some 'u' :: some 'l' :: some 'l' :: rest => some (.null, rest)
  | some 't' :: some 'r' :: some 'u' :: some 'e' :: rest => some (.bool true, rest)
  | some 'f' :: some 'a' :: some 'l' :: some 's' :: some 'e' :: rest => some (.bool false, rest)
  | text => readNumber text

/-! ### Each step shortens the text -/

theorem length_readDigits (text : List Symbol) :
    (readDigits text).1.length + (readDigits text).2.length ≤ text.length := by
  have split := congrArg List.length
    (List.takeWhile_append_dropWhile (p := isDigitSymbol) (l := text))
  have few := List.length_filterMap_le (id : Symbol → Option Char) (text.takeWhile isDigitSymbol)
  simp only [List.length_append] at split
  simp only [readDigits]
  omega

theorem length_readFraction {text rest : List Symbol} {f : Option (List Char)}
    (h : readFraction text = some (f, rest)) : rest.length ≤ text.length := by
  unfold readFraction at h
  split at h
  · next after =>
    have := length_readDigits after
    split at h
    · simp at h
    · next heq =>
      simp only [Option.some.injEq, Prod.mk.injEq] at h
      rw [heq] at this
      simp only [List.length_cons, ← h.2] at this ⊢
      omega
  · simp only [Option.some.injEq, Prod.mk.injEq] at h
    exact Nat.le_of_eq (congrArg List.length h.2.symm)

theorem length_readSign (text : List Symbol) : (readSign text).2.length ≤ text.length := by
  unfold readSign
  split <;> simp

theorem length_readExponent {text rest : List Symbol} {p : Option Int}
    (h : readExponent text = some (p, rest)) : rest.length ≤ text.length := by
  unfold readExponent at h
  split at h
  · next c after =>
    split at h
    · have sign := length_readSign after
      have := length_readDigits (readSign after).2
      simp only at h
      split at h
      · simp at h
      · next heq =>
        simp only [Option.some.injEq, Prod.mk.injEq] at h
        rw [heq] at this
        simp only [List.length_cons, ← h.2] at this ⊢
        omega
    · simp only [Option.some.injEq, Prod.mk.injEq] at h
      exact Nat.le_of_eq (congrArg List.length h.2.symm)
  · simp only [Option.some.injEq, Prod.mk.injEq] at h
    exact Nat.le_of_eq (congrArg List.length h.2.symm)

theorem length_readUnsigned {negative : Bool} {text rest : List Symbol} {l : Literal}
    (h : readUnsigned negative text = some (l, rest)) : rest.length < text.length := by
  unfold readUnsigned at h
  have digits := length_readDigits text
  split at h
  · simp at h
  · simp at h
  · next whole after nonempty _ heq =>
    rw [heq] at digits
    simp only [Option.bind_eq_bind, Option.bind_eq_some_iff, Option.pure_def, Option.some.injEq,
      Prod.mk.injEq] at h
    obtain ⟨⟨f, one⟩, hf, ⟨p, two⟩, hp, _, rfl⟩ := h
    have hone := length_readFraction hf
    have htwo := length_readExponent hp
    have : whole.length ≠ 0 := fun zero => nonempty (List.eq_nil_of_length_eq_zero zero)
    simp only at digits hone htwo ⊢
    omega

theorem length_readString {d : Draft} {text rest : List Symbol} {s : Option String}
    (h : readString d text = some (s, rest)) : rest.length < text.length := by
  fun_induction readString d text with
  | case1 => simp at h
  | case2 _ _ ih => exact Nat.lt_succ_of_lt (ih h)
  | case3 =>
    simp only [Option.some.injEq, Prod.mk.injEq] at h
    simp [h.2]
  | case4 => simp at h
  | case5 _ _ _ _ _ _ _ _ ih =>
    have := ih h
    simp only [List.length_cons]
    omega
  | case6 _ _ _ _ _ _ ih =>
    have := ih h
    simp only [List.length_cons]
    omega
  | case7 => simp at h
  | case8 => simp at h
  | case9 => simp at h
  | case10 _ _ _ _ _ _ _ _ ih => exact Nat.lt_succ_of_lt (ih h)

theorem length_readNumber [FloatReader] {text rest : List Symbol} {t : Token}
    (h : readNumber text = some (t, rest)) : rest.length < text.length := by
  unfold readNumber at h
  simp only [Option.map_eq_some_iff, Prod.mk.injEq, Prod.exists] at h
  obtain ⟨l, after, hl, _, rfl⟩ := h
  split at hl
  · exact Nat.lt_succ_of_lt (length_readUnsigned hl)
  · exact length_readUnsigned hl

theorem length_readToken [FloatReader] {text rest : List Symbol} {t : Token}
    (h : readToken text = some (t, rest)) : rest.length < text.length := by
  unfold readToken at h
  split at h
  case h_7 =>
    simp only [Option.map_eq_some_iff, Prod.mk.injEq, Prod.exists] at h
    obtain ⟨s, after, hs, _, rfl⟩ := h
    exact Nat.lt_succ_of_lt (length_readString hs)
  case h_11 => exact length_readNumber h
  all_goals
    simp only [Option.some.injEq, Prod.mk.injEq] at h
    simp only [← h.2, List.length_cons]
    omega

/-! ### The whole text -/

/-- Read tokens, collecting them in reverse. -/
def scanOnto [FloatReader] (collected : List Token) (text : List Symbol) : List Token :=
  match text with
  | [] => collected.reverse
  | s :: rest =>
    if isSpace s then scanOnto collected rest
    else
      match h : readToken (s :: rest) with
      | none => (.malformed :: collected).reverse
      | some (t, after) =>
        have := length_readToken h
        scanOnto (t :: collected) after
termination_by text.length
decreasing_by
  · exact Nat.lt_succ_self _
  · exact this

/-- The tokens of a text, up to the place where it stops being JSON. -/
def scan [FloatReader] (text : List Symbol) : List Token := scanOnto [] text

end SeriesBroker.Json
