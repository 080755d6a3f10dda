import SeriesBroker.Request.Codec
import SeriesBroker.SortedMap

/-! # Answers of the store

    The store answers a query with an envelope: one result per statement, each with its series,
    and errors of single statements or of the whole query. An absent list of series is told
    from an empty one.
-/

namespace SeriesBroker

open Json (Tree Reader Record field)

/-- A row of values, the timestamp first. -/
abbrev Row := List Scalar

/-- Rows with a name and with names for their columns. -/
structure Series where
  name : String
  /-- What the rows have in common, if the query groups by tags. -/
  tags : Option (SortedMap String)
  columns : List String
  /-- The rows in the order of the store. -/
  rows : List Row
  deriving DecidableEq

structure StatementResult where
  /-- The number of the statement in its query. -/
  statement : UInt64
  /-- The series that were found, absent if nothing matched. -/
  found : Option (List Series)
  error : Option String
  deriving DecidableEq

structure Envelope where
  /-- One result per statement, in order. -/
  results : List StatementResult
  /-- An error of the whole query. -/
  error : Option String
  deriving DecidableEq

namespace Series

/-- The place of a column. -/
def columnIndex? (s : Series) (name : String) : Option Nat := s.columns.idxOf? name

/-- The series of a measurement. -/
def find? (all : List Series) (name : String) : Option Series := all.find? (·.name == name)

end Series

namespace StatementResult

/-- The result of a statement that matched nothing. -/
def empty (statement : UInt64) : StatementResult := ⟨statement, none, none⟩

/-- The series of a result, none if the list is absent. -/
def series (r : StatementResult) : List Series := r.found.getD []

end StatementResult

namespace Envelope

def empty : Envelope := ⟨[], none⟩

/-- The first error: that of the query, or else that of the first statement that has one. -/
def firstError? (e : Envelope) : Option String :=
  e.error <|> e.results.findSome? (·.error)

end Envelope

/-! ## Writing -/

def rowToJson (row : Row) : Tree := .array (row.map Scalar.toJson)

def rowsToJson (rows : List Row) : Tree := .array (rows.map rowToJson)

def tagsToJson (tags : SortedMap String) : Tree :=
  Json.ofMembers (tags.entries.map fun (key, value) => (key, Json.ofText value))

def Series.toJson (s : Series) : Tree :=
  Json.ofMembers <|
    [("name", Json.ofText s.name)] ++ Json.optionalMember "tags" (s.tags.map tagsToJson) ++
      [("columns", .array (s.columns.map Json.ofText)), ("values", rowsToJson s.rows)]

def StatementResult.toJson (r : StatementResult) : Tree :=
  Json.ofMembers <|
    [("statement_id", Json.ofInt r.statement.toNat)] ++
      Json.optionalMember "series" (r.found.map (batchToJson Series.toJson)) ++
      textMember "error" r.error

def Envelope.toJson (e : Envelope) : Tree :=
  Json.ofMembers <|
    [("results", batchToJson StatementResult.toJson e.results)] ++ textMember "error" e.error

/-! ## Reading -/

/-- Read tags. Of a repeated key the last value counts. -/
def readTags : Reader (SortedMap String) := fun level tree =>
  (Json.readMembers Json.readText level tree).map SortedMap.ofList

def readRows : Reader (List Row) := Json.readList (Json.readList Scalar.read)

/-- The members of a series. -/
def Series.record : Record Series where
  name := "Series"
  blank := ⟨"", none, [], []⟩
  fields := [
    field "name" false Json.readText fun v s => { s with name := v },
    field "tags" false (Json.readOptional readTags) fun v s => { s with tags := v },
    field "columns" false (Json.readList Json.readText) fun v s => { s with columns := v },
    field "values" false readRows fun v s => { s with rows := v }]

def readSeries : Reader (List Series) := Json.readList Series.record.read

/-- Read the number of a statement. -/
def readStatementId : Reader UInt64 := fun level tree =>
  (Json.readUnsigned64 level tree).map UInt64.ofNat

/-- The members of a result. -/
def StatementResult.record : Record StatementResult where
  name := "StatementResult"
  blank := .empty 0
  fields := [
    field "statement_id" false readStatementId fun v r => { r with statement := v },
    field "series" false (Json.readOptional readSeries) fun v r => { r with found := v },
    field "error" false readOptionalText fun v r => { r with error := v }]

def readResults : Reader (List StatementResult) := Json.readList StatementResult.record.read

/-- The members of an envelope. -/
def Envelope.record : Record Envelope where
  name := "QueryResponse"
  blank := .empty
  fields := [
    field "results" false readResults fun v e => { e with results := v },
    field "error" false readOptionalText fun v e => { e with error := v }]

def Envelope.read : Reader Envelope := Envelope.record.read

end SeriesBroker
