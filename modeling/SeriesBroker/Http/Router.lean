import SeriesBroker.Http.Queries

/-! # The HTTP interface

    Three paths answer questions about the broker's health and one runs batches of requests.
    Every answer may be read by pages of any origin, and a question which methods are allowed is
    answered before anything else is looked at.
-/

namespace SeriesBroker.Http

/-- What the interface has to know besides the store. -/
structure Interface where
  /-- The header that selects the database. -/
  selector : String
  /-- The greatest length of a body in bytes. -/
  maxBodySize : Nat
  /-- Seconds since the broker was started. -/
  uptime : Nat
  /-- The identifier that is given to the request. -/
  requestId : String

def version : String := "0.1.0"

/-! ## Routes -/

/-- The paths of the interface. -/
inductive Route where
  | queries
  | liveness
  | readiness
  | health
  deriving DecidableEq

/-- The route of a path. Paths are compared as they are written. -/
def Route.ofPath? (path : String) : Option Route :=
  if path = "/queries" then some .queries
  else if path = "/health/live" then some .liveness
  else if path = "/health/ready" then some .readiness
  else if path = "/health" then some .health
  else none

def Route.accepts (route : Route) (method : String) : Bool :=
  match route with
  | .queries => method == "POST"
  | _ => method == "GET" || method == "HEAD"

def Route.allowed : Route → String
  | .queries => "POST"
  | _ => "GET,HEAD"

/-- The path of a target, and its query part without the question mark. A target with a scheme
    has its path after the host. -/
def splitTarget (target : String) : String × List Char :=
  let whole := target.toList.takeWhile (· != '#')
  let own :=
    match whole.span (· != ':') with
    | (_, ':' :: '/' :: '/' :: rest) =>
      if whole.head? = some '/' then whole
      else
        match rest.dropWhile (fun c => c != '/' && c != '?') with
        | '/' :: path => '/' :: path
        | query => '/' :: query
    | _ => whole
  (String.ofList (own.takeWhile (· != '?')), (own.dropWhile (· != '?')).drop 1)

/-! ## Health -/

/-- The state of the broker and its store as JSON. -/
def healthJson (reachable : Bool) (uptime : Nat) : Json.Tree :=
  Json.ofMembers [
    ("status", Json.ofText (if reachable then "healthy" else "unhealthy")),
    ("influx", Json.ofText (if reachable then "ok" else "error")),
    ("uptime_seconds", Json.ofInt uptime),
    ("version", Json.ofText version)]

/-! ## Answers -/

/-- The answer of the route for batches. Parameters and the length of the body are looked at
    before anything that the body holds. -/
def Interface.answerQueries [Json.FloatReader] (i : Interface) (store : Store)
    (query : List Char) (request : Incoming) : Exchange Outgoing :=
  match Parameters.ofQuery query with
  | .error repeated =>
    .silent (.plain 400
      ("Failed to deserialize query string: duplicate field \x60" ++ repeated.name ++ "\x60"))
  | .ok parameters =>
    if i.maxBodySize < request.body.length then
      .silent (.plain 413 "Failed to buffer the request body: length limit exceeded")
    else
      let run := runBatch store i.selector parameters request.headers request.body
      ⟨batchResponse i.requestId run.result, run.calls⟩

/-- The answer of a route that takes the method. -/
def Interface.answerRoute [Json.FloatReader] (i : Interface) (store : Store) (route : Route)
    (query : List Char) (request : Incoming) : Exchange Outgoing :=
  match route with
  | .queries => i.answerQueries store query request
  | .liveness => .silent (.bare 200)
  | .readiness => .silent (.bare (if store.reachable then 200 else 503))
  | .health => .silent (.json 200 (healthJson store.reachable i.uptime).toText)

/-- The header that opens an answer to every origin. -/
def originHeader : String × String := ("access-control-allow-origin", "*")

/-- The answer to the question which methods and headers are allowed. -/
def preflight (route : Option Route) : Outgoing :=
  (Outgoing.bare 200).withHeaders <|
    [originHeader, ("access-control-allow-methods", "*"), ("access-control-allow-headers", "*")] ++
      (route.map fun r => ("allow", r.allowed)).toList

/-- The answer to a request. A request for the head of an answer gets it without its body. -/
def Interface.answer [Json.FloatReader] (i : Interface) (store : Store)
    (request : Incoming) : Exchange Outgoing :=
  let (path, query) := splitTarget request.target
  let route := Route.ofPath? path
  if request.method = "OPTIONS" then .silent (preflight route)
  else
    match route with
    | none => .silent ((Outgoing.bare 404).withHeaders [originHeader])
    | some route =>
      if route.accepts request.method then
        let exchange := i.answerRoute store route query request
        let body := if request.method = "HEAD" then "" else exchange.result.body
        ⟨{ exchange.result with body }.withHeaders [originHeader], exchange.calls⟩
      else .silent ((Outgoing.bare 405).withHeaders [originHeader, ("allow", route.allowed)])

end SeriesBroker.Http
