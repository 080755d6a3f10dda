/-! # Bytes and characters

    A sequence of bytes is read as characters, with `none` for each stretch of bytes that
    belongs to no character. A stretch is as long as it could still have been the beginning of
    a character, and at least one byte, so a reader that shows one substitute per stretch
    agrees with the usual practice.
-/

namespace SeriesBroker.Text

/-- A character, or a stretch of bytes that is none. -/
abbrev Symbol := Option Char

/-- Characters of a text that is known to be well formed. -/
def symbols (text : String) : List Symbol := text.toList.map some

/-- Whether a byte continues a character, inside the given limits. -/
def continues (low high : Nat) (byte : UInt8) : Bool :=
  low ≤ byte.toNat && byte.toNat ≤ high

/-- The number of further bytes a leading byte asks for, and the limits of the first of them:
    these exclude overlong forms, surrogates and values above U+10FFFF. -/
def leadingByte (byte : Nat) : Option (Nat × Nat × Nat) :=
  if 0xc2 ≤ byte ∧ byte ≤ 0xdf then some (1, 0x80, 0xbf)
  else if byte = 0xe0 then some (2, 0xa0, 0xbf)
  else if byte = 0xed then some (2, 0x80, 0x9f)
  else if 0xe1 ≤ byte ∧ byte ≤ 0xef then some (2, 0x80, 0xbf)
  else if byte = 0xf0 then some (3, 0x90, 0xbf)
  else if 0xf1 ≤ byte ∧ byte ≤ 0xf3 then some (3, 0x80, 0xbf)
  else if byte = 0xf4 then some (3, 0x80, 0x8f)
  else none

/-- Read up to `count` continuation bytes after a leading byte. Answers the character, if the
    bytes are all there, and what follows. -/
def readContinuation : Nat → Nat → Nat → Nat → List UInt8 → Symbol × List UInt8
  | 0, _, _, code, rest => (some (Char.ofNat code), rest)
  | _ + 1, _, _, _, [] => (none, [])
  | count + 1, low, high, code, byte :: rest =>
    if continues low high byte then
      readContinuation count 0x80 0xbf (code * 64 + byte.toNat % 64) rest
    else (none, byte :: rest)

theorem length_readContinuation (count low high code : Nat) (bytes : List UInt8) :
    (readContinuation count low high code bytes).2.length ≤ bytes.length := by
  induction count generalizing low high code bytes with
  | zero => simp [readContinuation]
  | succ count ih =>
    cases bytes with
    | nil => simp [readContinuation]
    | cons byte rest =>
      rw [readContinuation]
      split
      · exact Nat.le_succ_of_le (ih ..)
      · exact Nat.le_refl _

/-- The first symbol of a non-empty sequence of bytes, and what follows. -/
def readSymbol (byte : UInt8) (rest : List UInt8) : Symbol × List UInt8 :=
  if byte.toNat < 0x80 then (some (Char.ofNat byte.toNat), rest)
  else
    match leadingByte byte.toNat with
    | none => (none, rest)
    | some (count, low, high) =>
      readContinuation count low high (byte.toNat % Nat.pow 2 (6 - count)) rest

theorem length_readSymbol (byte : UInt8) (rest : List UInt8) :
    (readSymbol byte rest).2.length ≤ rest.length := by
  unfold readSymbol
  split
  · exact Nat.le_refl _
  · split
    · exact Nat.le_refl _
    · exact length_readContinuation ..

/-- Read bytes, collecting the symbols in reverse. -/
def decodeOnto (collected : List Symbol) : List UInt8 → List Symbol
  | [] => collected.reverse
  | byte :: rest =>
    let step := readSymbol byte rest
    decodeOnto (step.1 :: collected) step.2
termination_by bytes => bytes.length
decreasing_by exact Nat.lt_succ_of_le (length_readSymbol byte rest)

def decodeUtf8 (bytes : List UInt8) : List Symbol := decodeOnto [] bytes

/-- The text of a sequence of bytes, with U+FFFD for what is no character. -/
def lossyText (bytes : List UInt8) : String :=
  String.ofList ((decodeUtf8 bytes).map (·.getD '\ufffd'))

/-- The text of a sequence of bytes that is well formed throughout. -/
def text? (bytes : List UInt8) : Option String :=
  ((decodeUtf8 bytes).mapM id).map String.ofList

def bytes (text : String) : List UInt8 := text.toUTF8.toList

end SeriesBroker.Text
