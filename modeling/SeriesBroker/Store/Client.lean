import SeriesBroker.Store.Basic
import SeriesBroker.Url.Read

/-! # Talking to the store

    The store is asked over HTTP, below the path of a configured URL. This module makes the
    URLs of requests, and says what becomes of a request when no connection can be made.
-/

namespace SeriesBroker

structure StoreSettings where
  /-- The base URL. -/
  url : String
  username : Option String
  password : Option String
  /-- The time that a request may take, in milliseconds. -/
  timeout : UInt64
  deriving DecidableEq

/-- The settings of a store on the own machine. -/
def StoreSettings.standard : StoreSettings := ⟨"http://localhost:8086", none, none, 30000⟩

/-- A way to the store, with its URL read. -/
structure Client where
  settings : StoreSettings
  base : Url

namespace Client

/-- The client of some settings. Its URL has to have a place for a path. -/
def ofSettings [Url.NameReader] (settings : StoreSettings) : Except StoreError Client :=
  match Url.ofText settings.url with
  | .error fault => .error (.config (.invalidUrl settings.url fault))
  | .ok base =>
    if base.isUndivided then .error (.config (.undividedUrl settings.url))
    else .ok ⟨settings, base⟩

/-- The URL of an endpoint as a text: the base URL without slashes at its end, a slash and the
    name of the endpoint. -/
def endpoint (c : Client) (name : String) : String :=
  String.ofList (Text.dropEnd (· == '/') c.base.text ++ '/' :: name.toList)

/-- What becomes of a request for an endpoint with some parameters, when no connection can be
    made. There is none at all without a host, or for a scheme other than those of HTTP. -/
def failure [Url.NameReader] (c : Client) (name : String) (pairs : List (String × String)) :
    ConnectionFault :=
  match Url.ofText (c.endpoint name) with
  | .error fault => .reported ("builder error: " ++ fault.message)
  | .ok url =>
    if (url.host.getD []).isEmpty then .unbuildable (String.ofList url.text)
    else
      let url := url.withoutUserinfo
      let url := if pairs.isEmpty then url else url.addPairs pairs
      let text := String.ofList url.text
      let isHttp := url.scheme = "http".toList ∨ url.scheme = "https".toList
      if isHttp ∧ text.utf8ByteSize ≤ 65534 then .unsent text else .unbuildable text

/-- What becomes of a query. -/
def queryFailure [Url.NameReader] (c : Client) (call : Call) : ConnectionFault :=
  c.failure "query" [("db", call.database), ("q", call.query)]

/-- What becomes of a ping. -/
def pingFailure [Url.NameReader] (c : Client) : ConnectionFault := c.failure "ping" []

/-- The store of a client when no connection can be made. -/
def offline [Url.NameReader] (c : Client) : Store where
  answer call := .error (.connection (c.queryFailure call))
  reachable := false

end Client

end SeriesBroker
