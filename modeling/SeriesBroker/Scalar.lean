import SeriesBroker.Json.Decode

/-! # Scalars

    Every cell that the store returns and every operand of a filter is one of four kinds of
    value. Arrays and objects are no scalars: they are refused when JSON is decoded, after their
    text has been read to its end.
-/

namespace SeriesBroker

/-- A single value without a fixed type. -/
inductive Scalar where
  | null
  | bool (value : Bool)
  | number (value : Json.Number)
  | string (text : String)
  deriving DecidableEq

namespace Scalar

instance : Inhabited Scalar := ⟨.null⟩

def isNull : Scalar → Bool
  | .null => true
  | _ => false

def asText? : Scalar → Option String
  | .string s => some s
  | _ => none

/-- The plain text of a scalar, strings without quotation marks. -/
def display : Scalar → String
  | .null => "null"
  | .bool true => "true"
  | .bool false => "false"
  | .number n => String.ofList n.text
  | .string s => s

/-! ## JSON -/

def toJson : Scalar → Json.Tree
  | .null => .null
  | .bool b => .bool b
  | .number n => .number (some n)
  | .string s => .string (some s)

/-- Arrays and objects are read to their end before they are refused. An object is refused
    whatever its keys are: the private keys by which some builds of JSON libraries pass numbers or
    raw text through objects have no meaning here. -/
def read : Json.Reader Scalar
  | _, .null => .ok .null
  | _, .bool b => .ok (.bool b)
  | _, .number (some n) => .ok (.number n)
  | _, .string (some s) => .ok (.string s)
  | level, .array items =>
    .error (if (Json.Tree.array items).usable level then .scalarIsArray else .malformed)
  | level, .object members =>
    .error (if (Json.Tree.object members).usable level then .scalarIsObject else .malformed)
  | _, .number none | _, .string none | _, .broken => .error .malformed

/-! ## Conversions -/

/-- An integer of at most 64 bits. -/
def ofInt? (value : Int) : Option Scalar := (Json.Number.ofInt? value).map .number

/-- A binary64 number; the values that are not finite have no scalar and become `null`. -/
def ofFloat? : Option Binary64 → Scalar
  | some x => .number (.float x)
  | none => .null

end Scalar

end SeriesBroker
