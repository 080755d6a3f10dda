import SeriesBroker.Config.Load

/-! # Failures

    A program that fails tells what it could not do, and then the causes, the nearest one first.
    Several causes are numbered. A cause of several lines stays behind its indentation.
-/

namespace SeriesBroker

/-- What a program could not do, and why. -/
structure Failure where
  message : String
  causes : List String := []
  deriving DecidableEq

namespace Failure

/-- One character of a cause behind an indentation. -/
def indentChar (indentation : List Char) (c : Char) : List Char :=
  if c = '\n' then c :: indentation else [c]

/-- A cause that stands alone. -/
def onlyCause (cause : String) : List Char :=
  let indentation := List.replicate 4 ' '
  '\n' :: indentation ++ cause.toList.flatMap (indentChar indentation)

/-- A cause with its number, which ends in the fifth column. -/
def numberedCause (cause : String × Nat) : List Char :=
  let number := Nat.toDigits 10 cause.2
  '\n' :: List.replicate (5 - number.length) ' ' ++ number ++ [':', ' '] ++
    cause.1.toList.flatMap (indentChar (List.replicate 7 ' '))

def causeLines : List String → List Char
  | [] => []
  | [cause] => "\n\nCaused by:".toList ++ onlyCause cause
  | causes => "\n\nCaused by:".toList ++ causes.zipIdx.flatMap numberedCause

def text (f : Failure) : String :=
  "Error: " ++ f.message ++ String.ofList (causeLines f.causes)

/-- The failure of settings that could not be loaded. -/
def ofLoad (fault : LoadFault) : Failure := ⟨fault.message, []⟩

/-- The failure of a store that cannot be used with its settings. -/
def ofSettings (error : StoreError) : Failure :=
  ⟨"invalid InfluxDB configuration", [error.message]⟩

/-- The failure of a batch that was refused. An invalid one has a cause, which names the
    request. -/
def ofQuery (error : QueryError) : Failure :=
  match error with
  | .invalid fault => ⟨error.message, [fault.message]⟩
  | .uncompilable _ => ⟨error.message, []⟩

def ofStore (error : StoreError) : Failure :=
  match error with
  | .query error => ofQuery error
  | other => ⟨other.message, []⟩

end Failure

end SeriesBroker
