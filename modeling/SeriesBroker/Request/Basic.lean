import SeriesBroker.Scalar
import SeriesBroker.Text.Basic

/-! # Requests

    A request describes one query against a single measurement: the columns to select, the
    window of time to look at, the conditions on rows, and how rows are grouped or limited. A
    lookup asks for the newest value of one column.

    The fields hold what a caller wrote, right or wrong. Which requests make sense is the
    subject of `SeriesBroker.Request.WellFormed`.
-/

namespace SeriesBroker

/-! ## Operators and functions -/

inductive Comparison where
  | equal
  /-- Written `<>`. -/
  | unequal
  /-- Written `!=`, with the same meaning. -/
  | different
  | greater
  | greaterOrEqual
  | less
  | lessOrEqual
  deriving DecidableEq

namespace Comparison

def sign : Comparison → String
  | .equal => "="
  | .unequal => "<>"
  | .different => "!="
  | .greater => ">"
  | .greaterOrEqual => ">="
  | .less => "<"
  | .lessOrEqual => "<="

def all : List Comparison :=
  [.equal, .unequal, .different, .greater, .greaterOrEqual, .less, .lessOrEqual]

def ofSign? (text : String) : Option Comparison := all.find? (·.sign == text)

end Comparison

/-- The functions that summarise the values of a group. -/
inductive Summary where
  | mean
  | sum
  | count
  | median
  | min
  | max
  | first
  | last
  deriving DecidableEq

namespace Summary

def name : Summary → String
  | .mean => "mean"
  | .sum => "sum"
  | .count => "count"
  | .median => "median"
  | .min => "min"
  | .max => "max"
  | .first => "first"
  | .last => "last"

def all : List Summary := [.mean, .sum, .count, .median, .min, .max, .first, .last]

def ofName? (text : String) : Option Summary := all.find? (·.name == text)

end Summary

/-- How the values of a column are summarised. -/
structure Aggregation where
  /-- The function of each group. -/
  summary : Summary
  /-- Whether the differences of neighbouring groups are taken. -/
  difference : Bool
  deriving DecidableEq

namespace Aggregation

/-- The words before the name of a function whose differences are taken. -/
def differenceMark : String := "difference-"

/-- The tag of an aggregation: `mean`, `difference-mean`, ... -/
def tag (a : Aggregation) : String :=
  if a.difference then differenceMark ++ a.summary.name else a.summary.name

def ofTag? (text : String) : Option Aggregation :=
  let mark := differenceMark.toList
  if mark.isPrefixOf text.toList then
    (Summary.ofName? (String.ofList (text.toList.drop mark.length))).map (⟨·, true⟩)
  else (Summary.ofName? text).map (⟨·, false⟩)

end Aggregation

/-- The order of rows in time. -/
inductive Direction where
  | ascending
  | descending
  deriving DecidableEq

namespace Direction

def name : Direction → String
  | .ascending => "asc"
  | .descending => "desc"

/-- The word for a direction in a query. -/
def keyword : Direction → String
  | .ascending => "ASC"
  | .descending => "DESC"

/-- The direction that a parameter asks for: descending unless it says `asc`, in any case. No
    letter outside ASCII has one of these three letters as its lower case. -/
def ofParameter (text : Option String) : Direction :=
  match text with
  | some text => if Text.lowerAscii text = "asc" then .ascending else .descending
  | none => .descending

end Direction

/-! ## The parts of a request -/

inductive Window where
  /-- The time since a duration ago. -/
  | last (duration : String)
  /-- The time between two timestamps. -/
  | between (start stop : String)
  deriving DecidableEq

/-- A column to select. -/
structure Column where
  /-- The name of the field. -/
  name : String
  /-- The tag of an aggregation. -/
  aggregation : Option String
  /-- Arithmetic that is applied to the value, such as `*1000`. -/
  math : Option String
  deriving DecidableEq

structure Filter where
  /-- The column to compare. -/
  column : String
  /-- Arithmetic that is applied to the column before it is compared. -/
  math : Option String
  /-- The sign of a comparison. -/
  comparison : String
  /-- What the column is compared with. -/
  value : Scalar
  deriving DecidableEq

/-- One query against a single measurement. -/
structure Request where
  measurement : String
  /-- The window of time to look at, all of it if there is none. -/
  window : Option Window
  /-- The greatest number of rows. -/
  limit : Option Int64
  /-- The columns in the order in which they are returned. -/
  columns : List Column
  /-- Conditions that all have to hold. -/
  filters : List Filter
  /-- The length of the intervals that rows are grouped by. -/
  interval : Option String
  deriving DecidableEq

/-- A request for the newest value of a column. -/
structure Lookup where
  measurement : String
  column : String
  /-- Arithmetic that is applied to the value. -/
  math : Option String
  deriving DecidableEq

namespace Lookup

/-- The arithmetic as it is written, nothing if there is none. -/
def suffix (l : Lookup) : String := l.math.getD ""

/-- The name of the column of the answer that holds the value. -/
def resultName (l : Lookup) : String := l.column ++ l.suffix

end Lookup

/-! ## Building requests -/

/-- A column without aggregation and arithmetic. -/
def Column.plain (name : String) : Column := ⟨name, none, none⟩

namespace Request

/-- The request without any content. -/
def blank : Request := ⟨"", none, none, [], [], none⟩

/-- A request for plain columns of a measurement. -/
def ofColumns (measurement : String) (columns : List String) : Request :=
  { blank with measurement, columns := columns.map Column.plain }

def addFilter (r : Request) (f : Filter) : Request := { r with filters := r.filters ++ [f] }

end Request

end SeriesBroker
