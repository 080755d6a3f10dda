import SeriesBroker.Request.Basic
import SeriesBroker.Request.Grammar
import SeriesBroker.Time.Rfc3339

/-! # Well-formed requests

    The rules that a request has to keep before a query is made of it. They are given twice.
    `Request.WellFormed` says which requests keep all rules, in no order. `Request.check` walks
    through the parts of a request and names the first rule that is broken.
-/

namespace SeriesBroker

/-! ## Faults -/

/-- A rule that a request breaks, with the text that breaks it. -/
inductive Fault where
  | emptyMeasurement
  | invalidDuration (text : String)
  | invalidTimestamp (text : String)
  | limitTooSmall
  | limitWithInterval
  | noColumns
  | emptyColumnName
  | unknownAggregation (tag : String)
  | aggregationWithoutWindow (column : String)
  | invalidMath (text : String)
  | emptyFilterColumn
  | unknownComparison (sign : String)
  | missingFilterValue (column : String)
  | invalidInterval (text : String)
  deriving DecidableEq

def Fault.message : Fault → String
  | .emptyMeasurement => "measurement must not be empty"
  | .invalidDuration text => "invalid duration " ++ Text.quoted text
  | .invalidTimestamp text => "invalid timestamp " ++ Text.quoted text
  | .limitTooSmall => "limit must be at least 1"
  | .limitWithInterval => "limit cannot be combined with groupTime"
  | .noColumns => "at least one column is required"
  | .emptyColumnName => "column name must not be empty"
  | .unknownAggregation tag => "unknown group type " ++ Text.quoted tag
  | .aggregationWithoutWindow column =>
    "group type on column " ++ Text.quoted column ++ " requires a time window"
  | .invalidMath text => "invalid math " ++ Text.quoted text
  | .emptyFilterColumn => "filter column must not be empty"
  | .unknownComparison sign => "unknown filter operator " ++ Text.quoted sign
  | .missingFilterValue column => "filter on " ++ Text.quoted column ++ " has no value"
  | .invalidInterval text => "invalid groupTime " ++ Text.quoted text

structure BatchFault where
  /-- The place of the request, counted from zero. -/
  index : Nat
  fault : Fault
  deriving DecidableEq

def BatchFault.message (f : BatchFault) : String :=
  "element " ++ Nat.repr f.index ++ ": " ++ f.fault.message

/-! ## The rules -/

/-- Whether a text is absent or a step of arithmetic. -/
def MathWellFormed (math : Option String) : Prop := ∀ text ∈ math, Arithmetic.accepts text

/-- A window is a duration or has two timestamps. -/
def Window.WellFormed : Window → Prop
  | .last duration => Duration.accepts duration
  | .between start stop =>
    (Timestamp.ofText? start).isSome ∧ (Timestamp.ofText? stop).isSome

/-- A column has a name, and is aggregated in a known way and inside a window only. -/
structure Column.WellFormed (windowed : Bool) (c : Column) : Prop where
  named : c.name ≠ ""
  aggregated : ∀ tag ∈ c.aggregation, windowed ∧ (Aggregation.ofTag? tag).isSome
  math : MathWellFormed c.math

/-- A filter compares a named column with a value in a known way. -/
structure Filter.WellFormed (f : Filter) : Prop where
  named : f.column ≠ ""
  compared : (Comparison.ofSign? f.comparison).isSome
  valued : f.value.isNull = false
  math : MathWellFormed f.math

/-- A request that keeps all rules. -/
structure Request.WellFormed (r : Request) : Prop where
  measured : r.measurement ≠ ""
  window : ∀ w ∈ r.window, w.WellFormed
  limited : ∀ n ∈ r.limit, 1 ≤ n.toInt ∧ r.interval = none
  selected : r.columns ≠ []
  columns : ∀ c ∈ r.columns, c.WellFormed r.window.isSome
  filters : ∀ f ∈ r.filters, f.WellFormed
  grouped : ∀ text ∈ r.interval, Duration.accepts text

/-! ## The check -/

/-- Fail with a fault if a condition holds. -/
def refuseIf (condition : Bool) (fault : Fault) : Except Fault Unit :=
  if condition then .error fault else .ok ()

/-- Check a step of arithmetic, if there is one. -/
def checkMath : Option String → Except Fault Unit
  | some text => refuseIf (!Arithmetic.accepts text) (.invalidMath text)
  | none => .ok ()

/-- Check one end of a window. -/
def checkTimestamp (text : String) : Except Fault Unit :=
  refuseIf (Timestamp.ofText? text).isNone (.invalidTimestamp text)

def Window.check : Window → Except Fault Unit
  | .last duration => refuseIf (!Duration.accepts duration) (.invalidDuration duration)
  | .between start stop => do
    checkTimestamp start
    checkTimestamp stop

def Column.check (windowed : Bool) (c : Column) : Except Fault Unit := do
  refuseIf c.name.isEmpty .emptyColumnName
  match c.aggregation with
  | some tag =>
    refuseIf (!windowed) (.aggregationWithoutWindow c.name)
    refuseIf (Aggregation.ofTag? tag).isNone (.unknownAggregation tag)
  | none => pure ()
  checkMath c.math

def Filter.check (f : Filter) : Except Fault Unit := do
  checkMath f.math
  refuseIf (Comparison.ofSign? f.comparison).isNone (.unknownComparison f.comparison)
  refuseIf f.column.isEmpty .emptyFilterColumn
  refuseIf f.value.isNull (.missingFilterValue f.column)

/-- Check a limit, if there is one. -/
def checkLimit (interval : Option String) : Option Int64 → Except Fault Unit
  | some n => do
    refuseIf (n.toInt < 1) .limitTooSmall
    refuseIf interval.isSome .limitWithInterval
  | none => .ok ()

/-- Check an interval, if there is one. -/
def checkInterval : Option String → Except Fault Unit
  | some text => refuseIf (!Duration.accepts text) (.invalidInterval text)
  | none => .ok ()

/-- Check a request part by part. -/
def Request.check (r : Request) : Except Fault Unit := do
  refuseIf r.measurement.isEmpty .emptyMeasurement
  match r.window with
  | some w => w.check
  | none => pure ()
  checkLimit r.interval r.limit
  refuseIf r.columns.isEmpty .noColumns
  r.columns.forM (Column.check r.window.isSome)
  r.filters.forM Filter.check
  checkInterval r.interval

def Request.isValid (r : Request) : Bool := r.check.isOk

/-! ## Batches -/

/-- Check the members of a batch in turn, the first of them being number `index`. -/
def checkFrom {α : Type} (check : α → Except Fault Unit) (index : Nat) :
    List α → Except BatchFault Unit
  | [] => .ok ()
  | a :: rest =>
    match check a with
    | .ok () => checkFrom check (index + 1) rest
    | .error fault => .error ⟨index, fault⟩

def checkRequests (requests : List Request) : Except BatchFault Unit :=
  checkFrom Request.check 0 requests

/-- Check a batch of lookups: only their arithmetic has rules. -/
def checkLookups (lookups : List Lookup) : Except BatchFault Unit :=
  checkFrom (fun l : Lookup => checkMath l.math) 0 lookups

end SeriesBroker
