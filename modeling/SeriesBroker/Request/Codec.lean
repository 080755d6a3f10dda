import SeriesBroker.Request.Basic

/-! # Requests as JSON

    The form in which callers write requests and lookups. Members that have no value are left
    out when a request is written, and get their defaults when one is read.
-/

namespace SeriesBroker

open Json (Tree Reader Record field)

/-! ## Writing -/

/-- An optional text as a member. -/
def textMember (key : String) (value : Option String) : List (String × Tree) :=
  Json.optionalMember key (value.map Json.ofText)

def Window.toJson : Window → Tree
  | .last duration => Json.ofMembers [("last", Json.ofText duration)]
  | .between start stop =>
    Json.ofMembers [("start", Json.ofText start), ("end", Json.ofText stop)]

def Column.toJson (c : Column) : Tree :=
  Json.ofMembers <|
    [("name", Json.ofText c.name)] ++ textMember "groupType" c.aggregation ++
      textMember "math" c.math

def Filter.toJson (f : Filter) : Tree :=
  Json.ofMembers <|
    [("column", Json.ofText f.column)] ++ textMember "math" f.math ++
      [("type", Json.ofText f.comparison), ("value", f.value.toJson)]

def Request.toJson (r : Request) : Tree :=
  Json.ofMembers <|
    [("measurement", Json.ofText r.measurement)] ++
      Json.optionalMember "time" (r.window.map Window.toJson) ++
      Json.optionalMember "limit" (r.limit.map fun n => Json.ofInt n.toInt) ++
      [("columns", .array (r.columns.map Column.toJson))] ++
      (if r.filters.isEmpty then [] else [("filters", .array (r.filters.map Filter.toJson))]) ++
      textMember "groupTime" r.interval

def Lookup.toJson (l : Lookup) : Tree :=
  Json.ofMembers <|
    [("measurement", Json.ofText l.measurement), ("columnName", Json.ofText l.column)] ++
      textMember "math" l.math

def batchToJson {α : Type} (toJson : α → Tree) (batch : List α) : Tree :=
  .array (batch.map toJson)

/-! ## Reading -/

def readOptionalText : Reader (Option String) := Json.readOptional Json.readText

/-- The members of a window before it is known which of the two forms they have. -/
structure Window.Bounds where
  last : Option String
  start : Option String
  stop : Option String

/-- A window has a duration alone, or both bounds. -/
def Window.ofBounds : Window.Bounds → Except Json.DecodeError Window
  | ⟨some duration, none, none⟩ => .ok (.last duration)
  | ⟨none, some start, some stop⟩ => .ok (.between start stop)
  | ⟨some _, _, _⟩ => .error .lastWithBounds
  | _ => .error .incompleteWindow

/-- The members of a window. -/
def Window.record : Record Window.Bounds where
  name := "TimeWindowDto"
  blank := ⟨none, none, none⟩
  fields := [
    field "last" false readOptionalText fun v b => { b with last := v },
    field "start" false readOptionalText fun v b => { b with start := v },
    field "end" false readOptionalText fun v b => { b with stop := v }]

def Window.read : Reader Window := fun level tree => do
  let bounds ← Window.record.read level tree
  Window.ofBounds bounds

/-- The members of a column. -/
def Column.record : Record Column where
  name := "Column"
  blank := ⟨"", none, none⟩
  fields := [
    field "name" true Json.readText fun v c => { c with name := v },
    field "groupType" false readOptionalText fun v c => { c with aggregation := v },
    field "math" false readOptionalText fun v c => { c with math := v }]

/-- The members of a filter. -/
def Filter.record : Record Filter where
  name := "Filter"
  blank := ⟨"", none, "", .null⟩
  fields := [
    field "column" false Json.readText fun v f => { f with column := v },
    field "math" false readOptionalText fun v f => { f with math := v },
    field "type" false Json.readText fun v f => { f with comparison := v },
    field "value" false Scalar.read fun v f => { f with value := v }]

def readLimit : Reader Int64 := fun level tree =>
  (Json.readSigned64 level tree).map Int64.ofInt

/-- The members of a request. -/
def Request.record : Record Request where
  name := "RequestElement"
  blank := Request.blank
  fields := [
    field "measurement" false Json.readText fun v r => { r with measurement := v },
    field "time" false (Json.readOptional Window.read) fun v r => { r with window := v },
    field "limit" false (Json.readOptional readLimit) fun v r => { r with limit := v },
    field "columns" false (Json.readList Column.record.read) fun v r => { r with columns := v },
    field "filters" false (Json.readList Filter.record.read) fun v r => { r with filters := v },
    field "groupTime" false readOptionalText fun v r => { r with interval := v }]

/-- The members of a lookup. -/
def Lookup.record : Record Lookup where
  name := "MeasurementColumnPair"
  blank := ⟨"", "", none⟩
  fields := [
    field "measurement" true Json.readText fun v l => { l with measurement := v },
    field "columnName" true Json.readText fun v l => { l with column := v },
    field "math" false readOptionalText fun v l => { l with math := v }]

def readRequests : Reader (List Request) := Json.readList Request.record.read

def readLookups : Reader (List Lookup) := Json.readList Lookup.record.read

/-! ## Directions -/

def Direction.names : List String := ["asc", "desc"]

def Direction.ofName (name : String) : Except Json.DecodeError Direction :=
  if name = "asc" then .ok .ascending
  else if name = "desc" then .ok .descending
  else .error (.unknownVariant name Direction.names)

/-- The fault of a token of the wrong kind. -/
def tokenMismatch (expected : String) : Json.Token → Json.DecodeError
  | .null => .invalidType .null expected
  | .bool b => .invalidType (.bool b) expected
  | .number (some n) => .invalidType (.number n) expected
  | .string (some s) => .invalidType (.string s) expected
  | .openArray => .invalidType .sequence expected
  | .openObject => .invalidType .map expected
  | _ => .malformed

/-- What follows the name of a direction inside an object: `null` as the value, and the end. -/
def readUnitMember : List Json.Token → Except Json.DecodeError (List Json.Token)
  | .colon :: .null :: .closeObject :: rest => .ok rest
  | .colon :: .null :: _ => .error .malformed
  | .colon :: token :: _ => .error (tokenMismatch "unit" token)
  | _ => .error .malformed

/-- Read a direction: its name, or an object with its name as the only key and `null` as the
    value. Anything else is no beginning of a direction. -/
def Direction.readTokens :
    List Json.Token → Except Json.DecodeError (Direction × List Json.Token)
  | .string (some name) :: rest => (Direction.ofName name).map (·, rest)
  | .openObject :: .string (some name) :: rest => do
    let direction ← Direction.ofName name
    let rest ← readUnitMember rest
    pure (direction, rest)
  | .openObject :: token :: _ => .error (tokenMismatch "variant identifier" token)
  | _ => .error .malformed

def Direction.decode [Json.FloatReader] (text : String) : Except Json.DecodeError Direction := do
  let (direction, rest) ← Direction.readTokens (Json.scan (Text.symbols text))
  if rest.isEmpty then pure direction else .error .malformed

def Direction.toJson (d : Direction) : Tree := Json.ofText d.name

end SeriesBroker
