import SeriesBroker.Http.Message
import SeriesBroker.Shape.Basic
import SeriesBroker.Store.Error

/-! # Errors of the HTTP interface

    Every error has a status and a code that a program can read, besides its message.
-/

namespace SeriesBroker.Http

/-- Why a body cannot be used. -/
inductive BodyFault where
  /-- The body does not decode. -/
  | malformed (fault : Json.DecodeError)
  | reported (text : String)
  deriving DecidableEq

def BodyFault.message : BodyFault → String
  | .malformed fault => "malformed request body: " ++ fault.message
  | .reported text => text

/-- An error that is answered. -/
inductive ApiError where
  /-- The header that selects the database is missing or blank. -/
  | missingHeader (name : String)
  | badRequest (fault : BodyFault)
  | query (error : QueryError)
  | store (error : StoreError)
  | shape (error : ShapeError)
  | internal (text : String)
  | io (text : String)
  deriving DecidableEq

namespace ApiError

def message : ApiError → String
  | .missingHeader name => "Missing required header: " ++ name
  | .badRequest fault => "Bad request: " ++ fault.message
  | .query error => "Query error: " ++ error.message
  | .store error => "InfluxDB error: " ++ error.message
  | .shape error => "Format error: " ++ error.message
  | .internal text => "Internal error: " ++ text
  | .io text => "IO error: " ++ text

def status : ApiError → Nat
  | .missingHeader _ => 400
  | .badRequest _ => 400
  | .query (.invalid _) => 400
  | .query (.uncompilable _) => 500
  | .store (.query _) => 400
  | .store (.notFound _) => 404
  | .store (.connection _) => 502
  | .store .nullResponse => 502
  | .store (.answer _) => 500
  | .store (.config _) => 500
  | .shape _ => 500
  | .internal _ => 500
  | .io _ => 500

def code : ApiError → String
  | .missingHeader _ => "MISSING_HEADER"
  | .badRequest _ => "BAD_REQUEST"
  | .query (.invalid _) => "VALIDATION_ERROR"
  | .query (.uncompilable _) => "COMPILE_ERROR"
  | .store (.query _) => "VALIDATION_ERROR"
  | .store (.notFound _) => "NOT_FOUND"
  | .store (.connection _) => "CONNECTION_ERROR"
  | .store .nullResponse => "NULL_RESPONSE"
  | .store (.answer _) => "STORE_ERROR"
  | .store (.config _) => "STORE_ERROR"
  | .shape _ => "FORMAT_ERROR"
  | .internal _ => "INTERNAL_ERROR"
  | .io _ => "IO_ERROR"

/-- An error as JSON, for the request with the given identifier. -/
def toJson (requestId : String) (e : ApiError) : Json.Tree :=
  Json.ofMembers [
    ("error", Json.ofMembers [
      ("code", Json.ofText e.code), ("message", Json.ofText e.message)]),
    ("request_id", Json.ofText requestId)]

/-- The answer to a request that failed. -/
def response (requestId : String) (e : ApiError) : Outgoing :=
  .json e.status (e.toJson requestId).toText

end ApiError

end SeriesBroker.Http
