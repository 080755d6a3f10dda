import SeriesBroker.SortedMap
import SeriesBroker.Statement.Select

/-! # The query for newest values

    A batch of lookups becomes one statement that selects the newest row of each measurement:

        SELECT "c1"+5 AS "c1+5", "c2" FROM "m1", "m2" ORDER BY time DESC LIMIT 1

    Each combination of a column and its arithmetic is selected once. Arithmetic gets a name of
    its own, made of the column and the arithmetic, so that each lookup can find its value.
-/

namespace SeriesBroker

/-- What a batch of lookups asks for, without repetition. -/
structure LookupSet where
  /-- The measurements. -/
  measurements : SortedSet
  /-- The columns, each with its steps of arithmetic; the empty one is the bare column. -/
  columns : SortedMap SortedSet
  deriving DecidableEq

namespace LookupSet

def empty : LookupSet := ⟨SortedMap.empty, SortedMap.empty⟩

/-- Add a lookup. An empty name of a measurement or column asks for nothing. -/
def add (s : LookupSet) (l : Lookup) : LookupSet where
  measurements :=
    if l.measurement.isEmpty then s.measurements else SortedSet.add s.measurements l.measurement
  columns :=
    if l.column.isEmpty then s.columns
    else s.columns.update l.column fun old =>
      SortedSet.add (old.getD SortedMap.empty) l.suffix

def ofLookups (lookups : List Lookup) : LookupSet := lookups.foldl add empty

/-- Whether there is nothing to select, or nothing to select it from. -/
def isEmpty (s : LookupSet) : Bool := s.measurements.isEmpty || s.columns.isEmpty

/-- The combinations of a column and its arithmetic, in order. -/
def terms (s : LookupSet) : List (String × String) :=
  s.columns.entries.flatMap fun (column, maths) => maths.keys.map (column, ·)

/-- The number of combinations: each column has as many as it has steps of arithmetic. -/
def termCount (s : LookupSet) : Nat :=
  s.columns.values.foldr (fun maths count => maths.keys.length + count) 0

end LookupSet

namespace Statement

/-- A selected combination of a column and its arithmetic. -/
def termPieces (term : String × String) : List Piece :=
  if term.2.isEmpty then [.name term.1]
  else [.name term.1, .words (term.2 ++ " AS "), .name (term.1 ++ term.2)]

def newestPieces (s : LookupSet) : List Piece :=
  [.words "SELECT "] ++ joinPieces ", " (s.terms.map termPieces) ++ [.words " FROM "] ++
    joinPieces ", " (s.measurements.keys.map fun m => [.name m]) ++
    [.words " ORDER BY time DESC LIMIT 1"]

def newest (s : LookupSet) : String := render (newestPieces s)

end Statement

end SeriesBroker
