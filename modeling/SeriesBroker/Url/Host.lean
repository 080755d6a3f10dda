import SeriesBroker.Url.Basic

/-! # Hosts of URLs

    A host in square brackets is an IPv6 address. Elsewhere the host of a web scheme is a name,
    and a name that ends in a number has to be an IPv4 address, in any of the notations that are
    in use: with up to four parts, each decimal, octal or hexadecimal. Addresses are written in
    their usual form.

    How a name with other letters becomes a name of ASCII is left open (`NameReader`). Programs
    run with names that are of ASCII as they stand.
-/

namespace SeriesBroker.Url

/-! ## IPv4 addresses -/

/-- The value of digits in a base, if all of them are digits of it. -/
def digitsValue? (base : Nat) (digits : List Char) : Option Nat :=
  digits.foldlM (fun value c => do
    let digit ← Text.hexValue? c
    if digit < base then some (value * base + digit) else none) 0

/-- A part of an IPv4 address. Alone, the mark of a base is zero. -/
def ipv4Number? : List Char → Option Nat
  | [] => none
  | '0' :: 'x' :: digits | '0' :: 'X' :: digits => digitsValue? 16 digits
  | '0' :: c :: digits => digitsValue? 8 (c :: digits)
  | digits => digitsValue? 10 digits

/-- The parts of a name, without an empty one at its end. -/
def nameParts (name : List Char) : List (List Char) :=
  let parts := name.splitOn '.'
  if parts.getLast? = some [] then parts.dropLast else parts

def endsInNumber (name : List Char) : Bool :=
  match (nameParts name).getLast? with
  | none => false
  | some last => (!last.isEmpty && last.all Char.isDigit) || (ipv4Number? last).isSome

/-- The address of the parts. All but the last are bytes, and the last fills the rest. -/
def ipv4Value? (parts : List Nat) : Option Nat :=
  match parts.reverse with
  | [] => none
  | last :: others =>
    let bytes := others.reverse
    if bytes.length ≤ 3 ∧ last < Nat.pow 256 (4 - bytes.length) ∧ bytes.all (· < 256) then
      some (bytes.zipIdx.foldl (fun sum (byte, i) => sum + byte * Nat.pow 256 (3 - i)) last)
    else none

def ipv4Text (value : Nat) : List Char :=
  List.intercalate ['.']
    ([value / 16777216 % 256, value / 65536 % 256, value / 256 % 256, value % 256].map
      (Nat.toDigits 10))

def readIpv4 (name : List Char) : Except UrlFault (List Char) :=
  match (nameParts name).mapM ipv4Number? with
  | none => .error .invalidIpv4
  | some parts =>
    match ipv4Value? parts with
    | some value => .ok (ipv4Text value)
    | none => .error .invalidIpv4

/-! ## IPv6 addresses -/

/-- A decimal byte without leading zeros. -/
def decimalByte? (digits : List Char) : Option Nat :=
  if digits.length = 1 ∨ digits.head? ≠ some '0' then
    (if digits.isEmpty then none else digitsValue? 10 digits).filter (· < 256)
  else none

/-- The two pieces that an IPv4 address fills at the end of an IPv6 address. -/
def embeddedIpv4? (text : List Char) : Option (List Nat) :=
  match (text.splitOn '.').mapM decimalByte? with
  | some [a, b, c, d] => some [a * 256 + b, c * 256 + d]
  | _ => none

/-- A piece of an IPv6 address: one to four hexadecimal digits. -/
def ipv6Piece? (digits : List Char) : Option Nat :=
  if 1 ≤ digits.length ∧ digits.length ≤ 4 then digitsValue? 16 digits else none

/-- Pieces that are parted by colons. The last may be an IPv4 address. -/
def ipv6Pieces? (text : List Char) : Option (List Nat) :=
  if text.isEmpty then some []
  else
    let parts := text.splitOn ':'
    let last := parts.getLast?.getD []
    if last.contains '.' then do
      let front ← parts.dropLast.mapM ipv6Piece?
      let back ← embeddedIpv4? last
      pure (front ++ back)
    else parts.mapM ipv6Piece?

/-- The text before and after the first two colons in a row. -/
def splitAtDoubleColon (before : List Char) : List Char → Option (List Char × List Char)
  | ':' :: ':' :: rest => some (before.reverse, rest)
  | c :: rest => splitAtDoubleColon (c :: before) rest
  | [] => none

/-- The eight pieces of an IPv6 address. Two colons in a row stand for one or more zeros. -/
def ipv6Value? (text : List Char) : Option (List Nat) :=
  match splitAtDoubleColon [] text with
  | none => (ipv6Pieces? text).filter (·.length = 8)
  | some (front, back) => do
    guard (!front.contains '.')
    let front ← ipv6Pieces? front
    let back ← ipv6Pieces? back
    guard (front.length + back.length < 8)
    pure (front ++ List.replicate (8 - front.length - back.length) 0 ++ back)

/-- The length of the run of zeros at the front. -/
def zeroRun (pieces : List Nat) : Nat := (pieces.takeWhile (· == 0)).length

/-- The place and the length of the first longest run of zeros. -/
def longestZeroRun (pieces : List Nat) : Nat × Nat :=
  (List.range pieces.length).foldl (fun best i =>
    let run := zeroRun (pieces.drop i)
    if best.2 < run then (i, run) else best) (0, 0)

/-- Pieces that are parted by colons. -/
def ipv6Join (pieces : List Nat) : List Char :=
  List.intercalate [':'] (pieces.map (Nat.toDigits 16))

/-- The usual form of an IPv6 address: the longest run of two or more zeros is left out. -/
def ipv6Text (pieces : List Nat) : List Char :=
  let (start, length) := longestZeroRun pieces
  if length < 2 then ipv6Join pieces
  else ipv6Join (pieces.take start) ++ ':' :: ':' :: ipv6Join (pieces.drop (start + length))

/-- Read an IPv6 address after its opening bracket. -/
def readIpv6 (text : List Char) : Except UrlFault (List Char) :=
  match text.getLast?, ipv6Value? text.dropLast with
  | some ']', some pieces => .ok ('[' :: ipv6Text pieces ++ [']'])
  | _, _ => .error .invalidIpv6

/-! ## Names -/

/-- The signs that no host may hold. -/
def forbiddenSigns : List Char :=
  ['#', '/', ':', '<', '>', '?', '@', '[', '\\', ']', '^', '|', ' ']

/-- Whether the name of a host in a web scheme may hold a character. -/
def isNameChar (c : Char) : Bool := !isControl c && !forbiddenSigns.contains c && c != '%'

/-- How the bytes of a host become a name of ASCII. -/
class NameReader where
  /-- The name; `none` when the bytes are none. -/
  ascii? (bytes : List UInt8) : Option (List Char)
  /-- A name holds nothing that ends a host or that no host may hold. -/
  allowed {bytes : List UInt8} {name : List Char} (h : ascii? bytes = some name) :
    name.all isNameChar = true

/-- Names that are of ASCII, in lower case. Names of other letters are refused. -/
instance asciiNames : NameReader where
  ascii? bytes :=
    let name := (Text.lossyText bytes).toList.map Char.toLower
    if name.all isNameChar then some name else none
  allowed h := by
    obtain ⟨hall, hname⟩ := Option.ite_none_right_eq_some.1 h
    rw [← Option.some.inj hname]
    exact hall

def readWebHost [NameReader] : List Char → Except UrlFault (List Char)
  | '[' :: rest => readIpv6 rest
  | text =>
    match NameReader.ascii? (Form.percentDecode (Text.bytes (String.ofList text))) with
    | none => .error .invalidDomainName
    | some name =>
      if name.isEmpty then .error .emptyHost
      else if endsInNumber name then readIpv4 name
      else .ok name

/-- Read the host of any other scheme. It is kept as it is. -/
def readOtherHost : List Char → Except UrlFault (List Char)
  | '[' :: rest => readIpv6 rest
  | text =>
    if text.any fun c => forbiddenSigns.contains c || c == '\x00' then
      .error .invalidDomainCharacter
    else .ok (escapeBy isControl text)

end SeriesBroker.Url
