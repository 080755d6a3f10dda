import SeriesBroker.Store.Envelope

/-! # Shapes of an answer

    The rows of a batch are given back in one of two shapes: request by request, or as one
    table. The shape is chosen by a parameter.
-/

namespace SeriesBroker

inductive Shape where
  | perQuery
  | table
  deriving DecidableEq

namespace Shape

def name : Shape → String
  | .perQuery => "per_query"
  | .table => "table"

/-- The shape that a parameter asks for: a table if it says so, in any case and with blanks
    around it, and one list per request otherwise. -/
def ofParameter (text : Option String) : Shape :=
  match text with
  | some text => if Text.lowerAscii (Text.trim text) = "table" then .table else .perQuery
  | none => .perQuery

end Shape

/-- Why results have no shape. -/
inductive ShapeError where
  /-- A statement returned more than one series. -/
  | multipleSeries (statement found : Nat)
  /-- There are more or fewer results than requests. -/
  | statementCount (expected actual : Nat)
  /-- A row does not start with a timestamp. -/
  | invalidTimestamp (statement : Nat) (text : String)
  deriving DecidableEq

def ShapeError.message : ShapeError → String
  | .multipleSeries statement found =>
    "statement " ++ Nat.repr statement ++ " returned " ++ Nat.repr found ++
      " series, expected at most one"
  | .statementCount expected actual =>
    "expected " ++ Nat.repr expected ++ " statement results, got " ++ Nat.repr actual
  | .invalidTimestamp statement text =>
    "statement " ++ Nat.repr statement ++ " returned an invalid timestamp '" ++ text ++ "'"

inductive Shaped where
  | perQuery (rows : List (List Row))
  | table (rows : List Row)
  deriving DecidableEq

def Shaped.toJson : Shaped → Json.Tree
  | .perQuery rows => .array (rows.map rowsToJson)
  | .table rows => rowsToJson rows

/-- The answer to no requests. -/
def Shaped.empty : Shape → Shaped
  | .perQuery => .perQuery []
  | .table => .table []

/-! ## One list of rows per statement -/

/-- The rows of the only series of a statement, none if it has no series. -/
def statementRows (statement : Nat) (r : StatementResult) : Except ShapeError (List Row) :=
  match r.series with
  | [] => .ok []
  | [series] => .ok series.rows
  | several => .error (.multipleSeries statement several.length)

/-- The rows of each statement, the first of them being number `statement`. -/
def perQueryFrom (statement : Nat) :
    List StatementResult → Except ShapeError (List (List Row))
  | [] => .ok []
  | result :: rest => do
    let rows ← statementRows statement result
    let others ← perQueryFrom (statement + 1) rest
    pure (rows :: others)

def perQuery (results : List StatementResult) : Except ShapeError (List (List Row)) :=
  perQueryFrom 0 results

end SeriesBroker
