import SeriesBroker.Request.WellFormed
import SeriesBroker.Statement.Piece

/-! # Queries from requests

    Each request becomes one `SELECT` statement, and a batch becomes its statements in order,
    parted by semicolons:

        SELECT mean("c1")*2, "c2" FROM "m1" WHERE "c3" > 5 AND time > now() - 1d GROUP BY time(1h)

    Requests are expected to be well formed. Of one that is not, unknown aggregations and
    comparisons and missing operands are reported, and everything else is written as it is.
-/

namespace SeriesBroker

/-! ## Faults -/

/-- Why a request has no statement. -/
inductive CompileFault where
  | unknownAggregation (tag : String)
  | unknownComparison (sign : String)
  | missingFilterValue (column : String)
  /-- A fault that someone else found, in their words. -/
  | reported (text : String)
  deriving DecidableEq

def CompileFault.message : CompileFault → String
  | .unknownAggregation tag => "unknown group type " ++ Text.quoted tag
  | .unknownComparison sign => "unknown filter operator " ++ Text.quoted sign
  | .missingFilterValue column => "filter on " ++ Text.quoted column ++ " has no value"
  | .reported text => text

/-- Why requests or lookups do not become a query. -/
inductive QueryError where
  /-- A member of the batch is not well formed. -/
  | invalid (fault : BatchFault)
  /-- A request has no statement. -/
  | uncompilable (fault : CompileFault)
  deriving DecidableEq

def QueryError.message : QueryError → String
  | .invalid fault => "Invalid request: " ++ fault.message
  | .uncompilable fault => "Compile error: " ++ fault.message

namespace Statement

/-! ## Clauses -/

/-- Arithmetic after a column, if there is any. -/
def mathPieces (before : String) : Option String → List Piece
  | some math => [.words (before ++ math)]
  | none => []

/-- A column that may be aggregated. -/
def fieldPieces (name : String) : Option Aggregation → List Piece
  | none => [.name name]
  | some ⟨summary, false⟩ => [.words (summary.name ++ "("), .name name, .words ")"]
  | some ⟨summary, true⟩ =>
    [.words ("difference(" ++ summary.name ++ "("), .name name, .words "))"]

/-- What a column selects. -/
def columnPieces (c : Column) : Except CompileFault (List Piece) :=
  match c.aggregation with
  | none => .ok (fieldPieces c.name none ++ mathPieces "" c.math)
  | some tag =>
    match Aggregation.ofTag? tag with
    | some a => .ok (fieldPieces c.name (some a) ++ mathPieces "" c.math)
    | none => .error (.unknownAggregation tag)

/-- An operand. Only strings are quoted. -/
def operandPieces (column : String) : Scalar → Except CompileFault (List Piece)
  | .null => .error (.missingFilterValue column)
  | .string text => .ok [.literal text]
  | value => .ok [.words value.display]

def filterPieces (f : Filter) : Except CompileFault (List Piece) :=
  match Comparison.ofSign? f.comparison with
  | none => .error (.unknownComparison f.comparison)
  | some comparison => do
    let operand ← operandPieces f.column f.value
    pure ([.name f.column] ++ mathPieces " " f.math ++
      [.words (" " ++ comparison.sign ++ " ")] ++ operand)

def windowPieces : Window → List Piece
  | .last duration => [.words ("time > now() - " ++ duration)]
  | .between start stop =>
    [.words "time > ", .literal start, .words " AND time < ", .literal stop]

/-- The conditions on rows, the window last. -/
def wherePieces (conditions : List (List Piece)) : List Piece :=
  if conditions.isEmpty then [] else .words " WHERE " :: joinPieces " AND " conditions

/-- Rows are grouped, or else put in order. -/
def orderWords (direction : Direction) : Option String → String
  | some interval => " GROUP BY time(" ++ interval ++ ")"
  | none => " ORDER BY time " ++ direction.keyword

/-- The greatest number of rows. -/
def limitPieces : Option Int64 → List Piece
  | some n => [.words (" LIMIT " ++ String.ofList (Json.intText n.toInt))]
  | none => []

/-! ## Statements -/

def requestPieces (direction : Direction) (r : Request) : Except CompileFault (List Piece) := do
  let columns ← r.columns.mapM columnPieces
  let filters ← r.filters.mapM filterPieces
  let conditions := filters ++ (r.window.map windowPieces).toList
  pure ([.words "SELECT "] ++ joinPieces ", " columns ++ [.words " FROM ", .name r.measurement] ++
    wherePieces conditions ++ [.words (orderWords direction r.interval)] ++ limitPieces r.limit)

def batchPieces (direction : Direction) (batch : List Request) :
    Except CompileFault (List Piece) := do
  let statements ← batch.mapM (requestPieces direction)
  pure (joinPieces "; " statements)

def ofRequest (direction : Direction) (r : Request) : Except CompileFault String :=
  (requestPieces direction r).map render

def ofBatch (direction : Direction) (batch : List Request) : Except CompileFault String :=
  (batchPieces direction batch).map render

/-! ## Cutting a batch into statements

    The statements of a batch are parted by a semicolon and a space. Cutting a text there gives
    the pieces back, wherever in the text the two characters stand.
-/

/-- Cut a text at every semicolon that a space follows. -/
def cutChars : List Char → List (List Char)
  | [] => [[]]
  | ';' :: ' ' :: rest => [] :: cutChars rest
  | c :: rest =>
    match cutChars rest with
    | [] => [[c]]
    | first :: others => (c :: first) :: others

/-- The pieces of a text between semicolons that a space follows. -/
def cut (text : String) : List String := (cutChars text.toList).map String.ofList

end Statement

end SeriesBroker
