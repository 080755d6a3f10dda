import SeriesBroker.Json.Write
import SeriesBroker.Text.Quoted

/-! # Decoding JSON

    Readers turn trees into typed values. A reader knows how many containers stand around its
    tree, because used values may be nested only so deep.

    A record may be written as an object or as an array of its fields in declaration order.
    Members that the record does not know are skipped. The first fault in document order is the
    one that is reported, a fault of the text as well as one of the data.
-/

namespace SeriesBroker.Json

/-! ## Faults -/

/-- What was found where something else was expected. -/
inductive Found where
  | null
  | bool (value : Bool)
  | number (value : Number)
  | string (text : String)
  | sequence
  | map
  deriving DecidableEq

def Found.text : Found → String
  | .null => "null"
  | .bool b => "boolean \x60" ++ (if b then "true" else "false") ++ "\x60"
  | .number (.integer i _) => "integer \x60" ++ String.ofList (intText i) ++ "\x60"
  | .number (.float x) => "floating point \x60" ++ String.ofList x.text ++ "\x60"
  | .string s => "string " ++ Text.quoted s
  | .sequence => "sequence"
  | .map => "map"

/-- Why a JSON text has no value of the wanted type. -/
inductive DecodeError where
  /-- The text is not JSON, or uses a literal or a nesting that has no value. -/
  | malformed
  /-- Another kind of value was expected. -/
  | invalidType (found : Found) (expected : String)
  /-- The value is of the right kind and out of its range. -/
  | invalidValue (found : Found) (expected : String)
  /-- A member that must be there is not. -/
  | missingField (name : String)
  /-- A member is there twice. -/
  | duplicateField (name : String)
  /-- A name that is none of the expected ones. -/
  | unknownVariant (name : String) (expected : List String)
  /-- An array ends before all fields of a record that must be there. -/
  | invalidLength (length : Nat) (record : String) (fields : Nat)
  /-- A window gives a duration and also a bound. -/
  | lastWithBounds
  /-- A window gives neither a duration nor both bounds. -/
  | incompleteWindow
  /-- An array stands where a single value belongs. -/
  | scalarIsArray
  /-- An object stands where a single value belongs. -/
  | scalarIsObject
  deriving DecidableEq

def backquoted (name : String) : String := "\x60" ++ name ++ "\x60"

def DecodeError.message : DecodeError → String
  | .malformed => "<syntax>"
  | .invalidType found expected => "invalid type: " ++ found.text ++ ", expected " ++ expected
  | .invalidValue found expected => "invalid value: " ++ found.text ++ ", expected " ++ expected
  | .missingField name => "missing field " ++ backquoted name
  | .duplicateField name => "duplicate field " ++ backquoted name
  | .unknownVariant name expected =>
    "unknown variant " ++ backquoted name ++ ", expected " ++
      " or ".intercalate (expected.map backquoted)
  | .invalidLength length record fields =>
    "invalid length " ++ Nat.repr length ++ ", expected struct " ++ record ++ " with " ++
      Nat.repr fields ++ " elements"
  | .lastWithBounds => "time.last cannot be combined with time.start/time.end"
  | .incompleteWindow => "time requires either last or both start and end"
  | .scalarIsArray => "expected a scalar, found an array"
  | .scalarIsObject => "expected a scalar, found an object"

/-! ## Readers -/

/-- A reader of one value inside `level` containers. -/
abbrev Reader (α : Type) := (level : Nat) → Tree → Except DecodeError α

/-- The fault of a tree of the wrong kind. -/
def mismatch (expected : String) : Tree → DecodeError
  | .null => .invalidType .null expected
  | .bool b => .invalidType (.bool b) expected
  | .number (some n) => .invalidType (.number n) expected
  | .string (some s) => .invalidType (.string s) expected
  | .array _ => .invalidType .sequence expected
  | .object _ => .invalidType .map expected
  | .number none | .string none | .broken => .malformed

def readText : Reader String
  | _, .string (some s) => .ok s
  | _, tree => .error (mismatch "a string" tree)

/-- Read an integer between two limits. The expected kind is named in messages. -/
def readInteger (kind : String) (low high : Int) : Reader Int
  | _, .number (some (.integer i h)) =>
    if low ≤ i ∧ i ≤ high then .ok i else .error (.invalidValue (.number (.integer i h)) kind)
  | _, tree => .error (mismatch kind tree)

def readSigned64 : Reader Int := readInteger "i64" (-9223372036854775808) 9223372036854775807

def readUnsigned64 : Reader Nat := fun level tree =>
  (readInteger "usize" 0 18446744073709551615 level tree).map Int.toNat

/-- Read a value that may be absent, written as `null`. -/
def readOptional {α : Type} (read : Reader α) : Reader (Option α)
  | _, .null => .ok none
  | level, tree => (read level tree).map some

/-- Read the items of an array, up to the first fault. -/
def readList {α : Type} (read : Reader α) : Reader (List α)
  | level, .array items =>
    if level < Tree.nestingLimit then items.mapM (read (level + 1)) else .error .malformed
  | _, tree => .error (mismatch "a sequence" tree)

/-- Read the members of an object, in document order, with every key a text. -/
def readMembers {α : Type} (read : Reader α) : Reader (List (String × α))
  | level, .object members =>
    if level < Tree.nestingLimit then
      members.mapM fun (key, value) =>
        match key with
        | some key => (read (level + 1) value).map (key, ·)
        | none => .error .malformed
    else .error .malformed
  | _, tree => .error (mismatch "a map" tree)

/-! ## Records -/

/-- A field of a record `α`. -/
structure Field (α : Type) where
  /-- The name of its member. -/
  name : String
  /-- Whether the record has no value without it. -/
  required : Bool
  /-- Read the field into a record. -/
  fill : Nat → Tree → α → Except DecodeError α

/-- A field whose value is put into the record by `put`. -/
def field {α β : Type} (name : String) (required : Bool) (read : Reader β) (put : β → α → α) :
    Field α :=
  ⟨name, required, fun level tree record => (read level tree).map (put · record)⟩

/-- A record type as JSON sees it. -/
structure Record (α : Type) where
  /-- Its name in messages. -/
  name : String
  /-- Its value when no field is given. -/
  blank : α
  /-- Its fields in declaration order. -/
  fields : List (Field α)

/-- A record while its members are read. -/
structure Gathered (α : Type) where
  /-- The record with the fields that were read. -/
  value : α
  /-- The names of those fields. -/
  seen : List String

/-- Read one member into a record. A known name must not come twice, and an unknown one is
    skipped. -/
def Record.readMember {α : Type} (r : Record α) (level : Nat) (acc : Gathered α)
    (member : Key × Tree) : Except DecodeError (Gathered α) :=
  match member.1 with
  | none => .error .malformed
  | some name =>
    match r.fields.find? (·.name == name) with
    | none => if member.2.intact then .ok acc else .error .malformed
    | some f =>
      if acc.seen.contains name then .error (.duplicateField name)
      else (f.fill level member.2 acc.value).map fun value => ⟨value, name :: acc.seen⟩

/-- The record of the members that were read, unless a required one is missing. -/
def Record.finish {α : Type} (r : Record α) (acc : Gathered α) : Except DecodeError α :=
  match r.fields.find? (fun f => f.required && !acc.seen.contains f.name) with
  | some f => .error (.missingField f.name)
  | none => .ok acc.value

/-- Read the fields of a record from an array, from the field number `index` on. -/
def Record.readItems {α : Type} (r : Record α) (level : Nat) :
    (index : Nat) → List (Field α) → List Tree → α → Except DecodeError α
  | _, [], [], value => .ok value
  | _, [], _ :: _, _ => .error .malformed
  | index, f :: fields, [], value =>
    if f.required then .error (.invalidLength index r.name r.fields.length)
    else r.readItems level (index + 1) fields [] value
  | index, f :: fields, item :: items, value => do
    let value ← f.fill level item value
    r.readItems level (index + 1) fields items value

def Record.read {α : Type} (r : Record α) : Reader α
  | level, .object members =>
    if level < Tree.nestingLimit then do
      let acc ← members.foldlM (r.readMember (level + 1)) ⟨r.blank, []⟩
      r.finish acc
    else .error .malformed
  | level, .array items =>
    if level < Tree.nestingLimit then r.readItems (level + 1) 0 r.fields items r.blank
    else .error .malformed
  | _, tree => .error (mismatch ("struct " ++ r.name) tree)

/-! ## Whole texts -/

/-- Decode a text, given as symbols, that holds one value and nothing after it. -/
def decodeSymbols [FloatReader] {α : Type} (read : Reader α) (text : List Text.Symbol) :
    Except DecodeError α := do
  let (tree, more) := Tree.read text
  let value ← read 0 tree
  if more then .error .malformed else .ok value

def decode [FloatReader] {α : Type} (read : Reader α) (text : String) :
    Except DecodeError α :=
  decodeSymbols read (Text.symbols text)

def decodeBytes [FloatReader] {α : Type} (read : Reader α) (bytes : List UInt8) :
    Except DecodeError α :=
  decodeSymbols read (Text.decodeUtf8 bytes)

end SeriesBroker.Json
