import SeriesBroker.Statement.Newest
import SeriesBroker.Store.Basic

/-! # Newest values

    A batch of lookups is resolved with one query, and its answer is mapped back onto each
    lookup in order. A lookup whose measurement is missing, or whose newest row has no textual
    timestamp, has neither time nor value. One whose column alone is missing has a time.
-/

namespace SeriesBroker

structure Sample where
  time : Option String
  value : Option Scalar
  deriving DecidableEq

/-- Nothing was found. -/
def Sample.absent : Sample := ⟨none, none⟩

def Sample.toJson (s : Sample) : Json.Tree :=
  Json.ofMembers [("time", (s.time.map Json.ofText).getD .null),
    ("value", (s.value.map Scalar.toJson).getD .null)]

/-- The newest row of a series, with its timestamp if that is a text. -/
def Series.newest? (s : Series) : Option (Row × String) := do
  let row ← s.rows.head?
  let cell ← row.head?
  let time ← cell.asText?
  pure (row, time)

/-- The sample of a lookup in the series of an answer. -/
def Lookup.resolve (series : List Series) (l : Lookup) : Sample :=
  match Series.find? series l.measurement with
  | none => .absent
  | some found =>
    match found.newest? with
    | none => .absent
    | some (row, time) =>
      ⟨some time, (found.columnIndex? l.resultName).bind fun index => row[index]?⟩

def resolveAll (lookups : List Lookup) (series : List Series) : List Sample :=
  lookups.map (Lookup.resolve series)

/-- The samples of a batch, taken from the answer to its query. -/
def samplesOf (lookups : List Lookup) (answer : Except StoreError Envelope) :
    Except StoreError (List Sample) := do
  let envelope ← answer
  match envelope.results with
  | [] => .error .nullResponse
  | result :: _ => .ok (resolveAll lookups result.series)

namespace Store

/-- The newest values of a batch of lookups. The store is asked once, and not at all if the
    lookups are refused or ask for nothing. -/
def newestValues (s : Store) (database : String) (lookups : List Lookup) :
    Exchange (Except StoreError (List Sample)) :=
  match checkLookups lookups with
  | .error fault => .silent (.error (.query (.invalid fault)))
  | .ok () =>
    let wanted := LookupSet.ofLookups lookups
    if wanted.isEmpty then .silent (.ok (lookups.map fun _ => .absent))
    else
      let exchange := s.execute ⟨database, Statement.newest wanted⟩
      ⟨samplesOf lookups exchange.result, exchange.calls⟩

/-- The sample of a single lookup, which must have a time. -/
def singleSample (samples : List Sample) : Except StoreError Sample :=
  match samples.getLast? with
  | some sample => if sample.time.isSome then .ok sample else .error .nullResponse
  | none => .error .nullResponse

def newestValue (s : Store) (database : String) (lookup : Lookup) :
    Exchange (Except StoreError Sample) :=
  let exchange := s.newestValues database [lookup]
  ⟨exchange.result.bind singleSample, exchange.calls⟩

end Store

end SeriesBroker
