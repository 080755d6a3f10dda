import SeriesBroker.Text.Basic
import SeriesBroker.Text.Utf8

/-! # Form encoding

    The pairs of names and values in the query part of a URL: pairs are parted by `&`, a name
    from its value by the first `=`, a space is written `+`, and other bytes as `%` and two
    hexadecimal digits.
-/

namespace SeriesBroker.Form

/-! ## Percent escapes -/

/-- Replace the escapes in a sequence of bytes by what they stand for. A percent sign without
    two digits stands for itself. -/
def percentDecode : List UInt8 → List UInt8
  | [] => []
  | byte :: high :: low :: rest =>
    if byte = 0x25 then
      match Text.hexValue? (Char.ofNat high.toNat), Text.hexValue? (Char.ofNat low.toNat) with
      | some h, some l => UInt8.ofNat (h * 16 + l) :: percentDecode rest
      | _, _ => byte :: percentDecode (high :: low :: rest)
    else byte :: percentDecode (high :: low :: rest)
  | byte :: rest => byte :: percentDecode rest

def percentEscape (byte : UInt8) : List Char := '%' :: Text.byteUpper byte.toNat

/-! ## Reading -/

/-- The text of an encoded name or value. -/
def decodeText (encoded : List Char) : String :=
  let spaced := encoded.map fun c => if c = '+' then ' ' else c
  Text.lossyText (percentDecode (Text.bytes (String.ofList spaced)))

/-- The name and the value of a pair. The value is empty if there is no `=`. -/
def decodePair (encoded : List Char) : String × String :=
  (decodeText (encoded.takeWhile (· != '=')), decodeText ((encoded.dropWhile (· != '=')).drop 1))

/-- The pairs of an encoded text. Empty pieces are no pairs. -/
def decode (encoded : List Char) : List (String × String) :=
  ((encoded.splitOn '&').filter (!·.isEmpty)).map decodePair

/-! ## Writing -/

/-- Whether a byte is written as itself. -/
def isUnreserved (byte : UInt8) : Bool :=
  let c := Char.ofNat byte.toNat
  byte < 0x80 && (c.isAlphanum || c == '*' || c == '-' || c == '.' || c == '_')

def encodeByte (byte : UInt8) : List Char :=
  if byte = 0x20 then ['+']
  else if isUnreserved byte then [Char.ofNat byte.toNat]
  else percentEscape byte

def encodeText (text : String) : List Char := (Text.bytes text).flatMap encodeByte

def encode (pairs : List (String × String)) : List Char :=
  List.intercalate ['&'] (pairs.map fun (name, value) =>
    encodeText name ++ '=' :: encodeText value)

end SeriesBroker.Form
