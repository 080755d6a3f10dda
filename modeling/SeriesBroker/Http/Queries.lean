import SeriesBroker.Http.Error
import SeriesBroker.Http.Form
import SeriesBroker.Shape.Table
import SeriesBroker.Store.Basic

/-! # Running a batch of requests

    The body of a request is a batch, and a header names the database. The store is asked once,
    and only if the header is there and the batch is well formed and not empty.
-/

namespace SeriesBroker.Http

/-! ## Parameters -/

structure Parameters where
  format : Option String
  order : Option String
  deriving DecidableEq

/-- A parameter that is given twice. -/
structure RepeatedParameter where
  name : String
  deriving DecidableEq

/-- Take one pair of the query part. Unknown names are skipped. -/
def Parameters.take (p : Parameters) (pair : String × String) :
    Except RepeatedParameter Parameters :=
  if pair.1 = "format" then
    if p.format.isSome then .error ⟨pair.1⟩ else .ok { p with format := some pair.2 }
  else if pair.1 = "order" then
    if p.order.isSome then .error ⟨pair.1⟩ else .ok { p with order := some pair.2 }
  else .ok p

def Parameters.ofQuery (query : List Char) : Except RepeatedParameter Parameters :=
  (Form.decode query).foldlM Parameters.take ⟨none, none⟩

/-! ## The database -/

/-- Whether a header value can be read as text: visible ASCII, spaces and tabs. -/
def isReadable (value : String) : Bool :=
  value.toList.all fun c => c == '\t' || (0x20 ≤ c.toNat && c.toNat < 0x7f)

/-- The first value of a header. Names do not depend on case. -/
def headerValue? (headers : List (String × String)) (name : String) : Option String :=
  (headers.find? fun h => Text.lowerAscii h.1 == Text.lowerAscii name).map (·.2)

/-- The database that a header selects: its value without blanks around it, if that is text and
    not empty. -/
def database? (headers : List (String × String)) (name : String) : Option String := do
  let value ← headerValue? headers name
  guard (isReadable value)
  let trimmed := Text.trim value
  guard (!trimmed.isEmpty)
  pure trimmed

/-! ## The batch -/

/-- What has to be done for a request. -/
inductive Plan where
  /-- There is nothing to ask the store for. -/
  | nothing
  /-- The requests, and what has to be asked for them. -/
  | ask (requests : List Request) (call : Call)
  deriving DecidableEq

/-- What has to be done for a header and a body. -/
def planBatch [Json.FloatReader] (headers : List (String × String)) (selector : String)
    (direction : Direction) (body : List UInt8) : Except ApiError Plan := do
  let some database := database? headers selector | .error (.missingHeader selector)
  let requests ←
    match Json.decodeBytes readRequests body with
    | .ok requests => pure requests
    | .error fault => .error (.badRequest (.malformed fault))
  match checkRequests requests with
  | .ok () => pure ()
  | .error fault => .error (.query (.invalid fault))
  if requests.isEmpty then pure .nothing
  else
    match Statement.ofBatch direction requests with
    | .ok query => pure (.ask requests ⟨database, query⟩)
    | .error fault => .error (.query (.uncompilable fault))

/-- The results of a batch in their shape. -/
def shapeAnswer (shape : Shape) (requests : List Request)
    (answer : Except StoreError Envelope) : Except ApiError Shaped :=
  match answer with
  | .error error => .error (.store error)
  | .ok envelope =>
    match shapeResults shape requests envelope.results with
    | .ok shaped => .ok shaped
    | .error error => .error (.shape error)

def runBatch [Json.FloatReader] (store : Store) (selector : String) (parameters : Parameters)
    (headers : List (String × String)) (body : List UInt8) : Exchange (Except ApiError Shaped) :=
  let shape := Shape.ofParameter parameters.format
  let direction := Direction.ofParameter parameters.order
  match planBatch headers selector direction body with
  | .error error => .silent (.error error)
  | .ok .nothing => .silent (.ok (.empty shape))
  | .ok (.ask requests call) =>
    let exchange := store.execute call
    ⟨shapeAnswer shape requests exchange.result, exchange.calls⟩

def batchResponse (requestId : String) : Except ApiError Shaped → Outgoing
  | .ok shaped => .json 200 shaped.toJson.toText
  | .error error => error.response requestId

end SeriesBroker.Http
