import SeriesBroker.Request.Basic
import SeriesBroker.Shape.Basic
import SeriesBroker.Time.Rfc3339

/-! # The table of a batch

    All series of a batch are joined on equal instants. A row of the table has the timestamp
    first and then one block of cells per request; a request without a row at that instant has
    a block of nulls:

        series 0 (c1):      t3 a   t1 b
        series 1 (c2, c3):  t2 x y t1 z w

        [t3, a, null, null]
        [t2, null, x, y]
        [t1, b, z, w]

    Key idea: every series is sorted newest first. The first series is emptied row by row, and
    each row takes along the first row of the same instant from each later series. When the
    first series is empty the next one is emptied in the same way, so no row is used twice and
    none is left.
-/

namespace SeriesBroker

/-! ## Binary search

    The place where a sorted sequence stops to satisfy a condition. The search halves the range
    in which that place can lie, so it looks at few elements.
-/

/-- The first number from `low` on, and below `high`, that does not satisfy `holds`, if the
    numbers that do come before those that do not; `high` if all of them do. -/
def firstFailure (holds : Nat → Bool) (low high : Nat) : Nat :=
  if low < high then
    let middle := low + (high - low) / 2
    if holds middle then firstFailure holds (middle + 1) high
    else firstFailure holds low middle
  else low
termination_by high - low

/-- The place where an array stops to satisfy a condition, if it starts by doing so. -/
def partitionPoint {α : Type} (holds : α → Bool) (items : Array α) : Nat :=
  firstFailure (fun i => items[i]?.any holds) 0 items.size

/-! ## Joining -/

namespace Table

/-- A row with its timestamp read. -/
structure TimedRow where
  instant : Instant
  cells : List Scalar
  deriving DecidableEq

/-- The text of a first cell that is no timestamp. -/
def badStamp : Row → String
  | [] => ""
  | cell :: _ => cell.display

def timedRow (statement : Nat) (row : Row) : Except ShapeError TimedRow :=
  let bad := ShapeError.invalidTimestamp statement (badStamp row)
  match row with
  | .string text :: cells =>
    match Timestamp.ofText? text with
    | some instant => .ok ⟨instant, cells⟩
    | none => .error bad
  | _ => .error bad

def newerOrSame (a b : TimedRow) : Bool := !a.instant.before b.instant

/-- The rows of a series, newest first. Rows of one instant keep their order. -/
def timedSeries (statement : Nat) (rows : List Row) : Except ShapeError (Array TimedRow) := do
  let rows ← rows.mapM (timedRow statement)
  pure (rows.mergeSort newerOrSame).toArray

/-- The series of a batch, the first of them being number `statement`. -/
def timedFrom (statement : Nat) : List (List Row) → Except ShapeError (List (Array TimedRow))
  | [] => .ok []
  | rows :: rest => do
    let series ← timedSeries statement rows
    let others ← timedFrom (statement + 1) rest
    pure (series :: others)

/-! ## The join -/

/-- Rows of one instant, at most one per series. -/
structure Joined where
  instant : Instant
  parts : List (Option TimedRow)
  deriving DecidableEq

/-- Take the first row of an instant out of a series that is sorted newest first. -/
def takeAt (instant : Instant) (series : Array TimedRow) :
    Option TimedRow × Array TimedRow :=
  let place := partitionPoint (fun row => instant.before row.instant) series
  match series[place]? with
  | some row =>
    if row.instant = instant then (some row, series.eraseIdxIfInBounds place) else (none, series)
  | none => (none, series)

/-- Join each row of a series with the rows of its instant in the later series. Answers what is
    left of those as well. -/
def drain : List TimedRow → List (Array TimedRow) → List Joined × List (Array TimedRow)
  | [], later => ([], later)
  | row :: rows, later =>
    let taken := later.map (takeAt row.instant)
    let (joined, left) := drain rows (taken.map (·.2))
    (⟨row.instant, some row :: taken.map (·.1)⟩ :: joined, left)

theorem length_drain (rows : List TimedRow) (later : List (Array TimedRow)) :
    (drain rows later).2.length = later.length := by
  induction rows generalizing later with
  | nil => rfl
  | cons row rows ih => simp [drain, ih]

/-- Join all series, after `before` others that are empty by now. -/
def joinFrom (before : Nat) : List (Array TimedRow) → List Joined
  | [] => []
  | series :: later =>
    let drained := drain series.toList later
    drained.1.map (fun j => ⟨j.instant, List.replicate before none ++ j.parts⟩) ++
      joinFrom (before + 1) drained.2
termination_by series => series.length
decreasing_by exact Nat.lt_succ_of_le (Nat.le_of_eq (length_drain series.toList later))

def Joined.newerOrSame (a b : Joined) : Bool := !a.instant.before b.instant

/-- The joined rows, newest first. -/
def join (series : List (Array TimedRow)) : List Joined :=
  (joinFrom 0 series).mergeSort Joined.newerOrSame

/-! ## Cells -/

/-- A block of exactly `width` cells: surplus cells are dropped, missing ones are null. -/
def block (width : Nat) (part : Option TimedRow) : List Scalar :=
  match part with
  | some row => List.rightpad width .null (row.cells.take width)
  | none => List.replicate width .null

/-- A row of the table, for series with the given widths. -/
def Joined.row (widths : List Nat) (j : Joined) : Row :=
  .string (Timestamp.toText j.instant) :: (List.zipWith block widths j.parts).flatten

end Table

/-- The table of a batch, newest rows first. -/
def table (requests : List Request) (data : List (List Row)) : Except ShapeError (List Row) :=
  if requests.length ≠ data.length then .error (.statementCount requests.length data.length)
  else do
    let series ← Table.timedFrom 0 data
    pure ((Table.join series).map (Table.Joined.row (requests.map (·.columns.length))))

/-! ## Shaping the results of a batch -/

/-- The results of a batch in a shape. There has to be one result per request, and each has to
    have one series at most. -/
def shapeResults (shape : Shape) (requests : List Request) (results : List StatementResult) :
    Except ShapeError Shaped :=
  if results.length ≠ requests.length then
    .error (.statementCount requests.length results.length)
  else do
    let rows ← perQuery results
    match shape with
    | .perQuery => pure (.perQuery rows)
    | .table => (table requests rows).map .table

end SeriesBroker
