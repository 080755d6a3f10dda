import SeriesBroker.Json.Write

/-! # Log events

    What the broker reports about its own work: how important it is, which part of the broker
    speaks, a message, and details with names. An event becomes one line, either for people or
    as an object for machines.
-/

namespace SeriesBroker.Log

inductive Level where
  | error
  | warn
  | info
  | debug
  | trace
  deriving DecidableEq

namespace Level

/-- The name in a line. -/
def name : Level → String
  | error => "ERROR"
  | warn => "WARN"
  | info => "INFO"
  | debug => "DEBUG"
  | trace => "TRACE"

/-- All levels, the most important one first. -/
def all : List Level := [error, warn, info, debug, trace]

/-- How much has to be asked for until events of a level are shown. -/
def verbosity : Level → Nat
  | error => 1
  | warn => 2
  | info => 3
  | debug => 4
  | trace => 5

end Level

/-- The parts of the broker that speak. -/
inductive Part where
  /-- The program as a whole. -/
  | broker
  /-- The reader of settings. -/
  | config
  /-- The way to the store. -/
  | client
  /-- The HTTP interface. -/
  | api
  deriving DecidableEq

/-- The name of a part. The names of the parts begin with that of the whole. -/
def Part.name : Part → String
  | .broker => "influx_broker"
  | .config => "influx_broker::config"
  | .client => "influx_broker::influx::client"
  | .api => "influx_broker::api"

structure Event where
  level : Level
  part : Part
  message : String
  /-- Further facts, each with its name. -/
  details : List (String × String) := []
  deriving DecidableEq

/-- The names of everything that an event holds. -/
def Event.names (e : Event) : List String := "message" :: e.details.map (·.1)

/-! ## Lines -/

/-- How events are written. -/
inductive Form where
  | pretty
  | json
  deriving DecidableEq

def Form.name : Form → String
  | .pretty => "pretty"
  | .json => "json"

/-- One character of a message for people. Controls that a terminal would obey are written as
    escapes. -/
def shownChar (c : Char) : List Char :=
  if c ∈ ['\x07', '\x08', '\x0c', '\x1b', '\x7f'] then
    ['\\', 'x'] ++ Text.byteLower c.toNat
  else if 0x80 ≤ c.toNat ∧ c.toNat ≤ 0x9f then
    ['\\', 'u', '\x7b'] ++ Nat.toDigits 16 c.toNat ++ ['\x7d']
  else [c]

/-- A detail after a message. -/
def shownDetail (detail : String × String) : String := " " ++ detail.1 ++ "=" ++ detail.2

/-- What an event says in a form. For people the details follow the message; in an object they
    are members beside it. -/
def Event.text (e : Event) : Form → String
  | .pretty =>
    String.ofList (e.message.toList.flatMap shownChar) ++ String.join (e.details.map shownDetail)
  | .json => e.message

def Event.toJson (e : Event) : Json.Tree :=
  Json.ofMembers [("level", Json.ofText e.level.name),
    ("fields", Json.ofMembers (("message", Json.ofText e.message) ::
      e.details.map fun (name, text) => (name, Json.ofText text))),
    ("target", Json.ofText e.part.name)]

def Event.line (e : Event) : Form → String
  | .pretty => e.level.name ++ " " ++ e.part.name ++ ": " ++ e.text .pretty
  | .json => e.toJson.toText

end SeriesBroker.Log
