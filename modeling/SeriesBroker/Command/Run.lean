import SeriesBroker.Command.Failure
import SeriesBroker.Command.Help
import SeriesBroker.Command.Invocation
import SeriesBroker.Config.Template
import SeriesBroker.Log.Filter
import SeriesBroker.Shape.Table
import SeriesBroker.Statement.Select
import SeriesBroker.Store.Newest
import SeriesBroker.Store.Tags

/-! # Running commands

    A command reads what it needs from its surroundings, does its work in one go and prints the
    result, or fails and prints nothing. The store is only looked for when everything else is
    known to be in order.
-/

namespace SeriesBroker

/-- What is left when a program has run. -/
structure Outcome where
  /-- Nought if all went well, one if the program failed, two if it was called wrongly. -/
  exitCode : Nat
  /-- The text on the standard output. -/
  output : String
  /-- The text on the standard error output. -/
  complaint : String
  /-- The log. -/
  events : List Log.Event
  deriving DecidableEq

/-- What a command came to: a text to print or a failure, with the log. -/
abbrev Report := Logged (Except Failure String)

namespace Command

/-! ## Requests -/

/-- The failure of a source that could not be read. -/
def readFailure (source : String) (fault : FileFault) : Failure :=
  ⟨"reading " ++ source, [fault.message]⟩

/-- The failure of a text that holds no requests. -/
def decodeFailure (fault : Json.DecodeError) : Failure :=
  ⟨"request elements must be a JSON array", [fault.message]⟩

/-- The well-formed requests in what was read from a source. -/
def batchOf [Json.FloatReader] (source : String) (content : Except FileFault String) :
    Except Failure (List Request) :=
  match content with
  | .error fault => .error (readFailure source fault)
  | .ok text =>
    match Json.decode readRequests text with
    | .error fault => .error (decodeFailure fault)
    | .ok batch =>
      match checkRequests batch with
      | .error fault => .error (.ofQuery (.invalid fault))
      | .ok () => .ok batch

def compiled (order : String) (batch : List Request) : Except Failure String :=
  match Statement.ofBatch (.ofParameter (some order)) batch with
  | .error fault => .error (.ofQuery (.uncompilable fault))
  | .ok text => .ok text

/-- The pieces of a batch's text, each in a line of its own. -/
def statementLines (text : String) : String :=
  String.join ((Statement.cut text).map (· ++ "\n"))

/-- What compiling prints. -/
def compileOutput (order : String) (batch : List Request) : Except Failure String :=
  (compiled order batch).map statementLines

/-! ## Lookups -/

def lookupOf (word : String) : Except Failure Lookup :=
  match Lookup.ofText? word with
  | some lookup => .ok lookup
  | none =>
    .error ⟨"invalid pair " ++ Text.quoted word ++ ", expected measurement:column[:math]", []⟩

def sampleJson (lookup : Lookup) (sample : Sample) : Json.Tree :=
  Json.ofMembers [("column", Json.ofText lookup.resultName),
    ("measurement", Json.ofText lookup.measurement),
    ("time", (sample.time.map Json.ofText).getD .null),
    ("value", (sample.value.map Scalar.toJson).getD .null)]

def samplesOutput (lookups : List Lookup) (samples : List Sample) : String :=
  (Json.Tree.array (List.zipWith sampleJson lookups samples)).toPrettyText ++ "\n"

/-! ## Tags -/

/-- What is printed for the tags of a measurement. -/
def tagsOutput (measurement : String) (tags : TagValues) : String :=
  if tags.isEmpty then "No tags on " ++ measurement ++ "\n"
  else
    String.join (tags.entries.map fun (key, values) =>
      key ++ ": " ++ String.intercalate ", " values ++ "\n")

/-! ## The store -/

/-- The report of a query that is sent. -/
def sentEvent (call : Call) : Log.Event :=
  ⟨.debug, .client, "Executing InfluxQL", [("db", call.database), ("query", call.query)]⟩

/-- The report of a store that could not be reached. -/
def unreachedEvent (fault : ConnectionFault) : Log.Event :=
  ⟨.warn, .client, "InfluxDB transport failure", [("error", fault.message)]⟩

/-- The log of calls to the store and of their outcome. -/
def callEvents {α : Type} (exchange : Exchange (Except StoreError α)) : List Log.Event :=
  exchange.calls.map sentEvent ++
    match exchange.result with
    | .error (.connection fault) => [unreachedEvent fault]
    | _ => []

/-- The report on calls to the store, of which the result is printed. -/
def reportOf {α : Type} (exchange : Exchange (Except StoreError α))
    (print : α → Except Failure String) : Report :=
  let value :=
    match exchange.result with
    | .error error => .error (.ofStore error)
    | .ok value => print value
  ⟨value, callEvents exchange⟩

/-- The client for settings, of which the URL may be replaced. -/
def clientOf [Url.NameReader] (storeUrl : Option String) (settings : Config) :
    Except Failure Client :=
  let store := { settings.store with url := storeUrl.getD settings.store.url }
  match Client.ofSettings store.effective with
  | .error error => .error (.ofSettings error)
  | .ok client => .ok client

def answerOutput (shape : String) (batch : List Request) (answer : Envelope) :
    Except Failure String :=
  match shapeResults (.ofParameter (some shape)) batch answer.results with
  | .error error => .error ⟨error.message, []⟩
  | .ok shaped => .ok (shaped.toJson.toPrettyText ++ "\n")

section

variable [Json.FloatReader] [Url.NameReader] {m : Type → Type} [Monad m]

def settingsFor (s : Surroundings m) (i : Invocation) :
    m (Logged (Except LoadFault Config)) :=
  match i.config with
  | some path => Config.load s path
  | none => do
    let loaded ← Config.loadStandard s
    pure ⟨.ok loaded.value, loaded.events⟩

/-- Load the settings, make a client with them, and go on with it. -/
def withClient (s : Surroundings m) (i : Invocation) (go : Client → Report) : m Report := do
  let loaded ← settingsFor s i
  match loaded.value with
  | .error fault => pure ⟨.error (.ofLoad fault), loaded.events⟩
  | .ok settings =>
    match clientOf i.storeUrl settings with
    | .error failure => pure ⟨.error failure, loaded.events⟩
    | .ok client =>
      let report := go client
      pure ⟨report.value, loaded.events ++ report.events⟩

/-- Read a batch of well-formed requests from a file or from the standard input. -/
def readBatch (s : Surroundings m) (input : Option String) :
    m (Except Failure (List Request)) := do
  match input with
  | some path => pure (batchOf (Text.quoted path) (← s.read path))
  | none => pure (batchOf "stdin" (← s.input))

/-! ## Commands -/

/-- Run a batch. One without requests never gets to the store. -/
def runBatch (s : Surroundings m) (i : Invocation) (database shape order : String)
    (batch : List Request) : m Report :=
  if batch.isEmpty then pure (.silent (.ok "[]\n"))
  else
    match compiled order batch with
    | .error failure => pure (.silent (.error failure))
    | .ok text =>
      withClient s i fun client =>
        reportOf ((s.reach client).execute ⟨database, text⟩) (answerOutput shape batch)

def runLatest (s : Surroundings m) (i : Invocation) (database : String) (words : List String) :
    m Report :=
  match words.mapM lookupOf with
  | .error failure => pure (.silent (.error failure))
  | .ok lookups =>
    withClient s i fun client =>
      reportOf ((s.reach client).newestValues database lookups) fun samples =>
        .ok (samplesOutput lookups samples)

/-- Print the standard document, or write it to a file. -/
def runConfig (s : Surroundings m) (output : Option String) : m Report :=
  match output with
  | none => pure (.silent (.ok template))
  | some path => do
    match ← s.write path template with
    | .error fault => pure (.silent (.error ⟨fault.message, []⟩))
    | .ok () => pure (.silent (.ok ("Config written to " ++ Text.quoted path ++ "\n")))

def report (s : Surroundings m) (i : Invocation) : m Report :=
  match i.command with
  | .compile input order => do
    let batch ← readBatch s input
    pure (.silent (batch.bind (compileOutput order)))
  | .query database input shape order => do
    match ← readBatch s input with
    | .error failure => pure (.silent (.error failure))
    | .ok batch => runBatch s i database shape order batch
  | .latest database words => runLatest s i database words
  | .tags database measurement =>
    withClient s i fun client =>
      reportOf ((s.reach client).tags database measurement) fun tags =>
        .ok (tagsOutput measurement tags)
  | .config output => runConfig s output

end

/-! ## Outcomes -/

/-- The outcome of words that are no invocation. -/
def refused : Refusal → Outcome
  | .misuse => ⟨2, "", "error: unexpected or missing argument\n\n" ++ usageLine, []⟩
  | .help => ⟨0, helpText, "", []⟩
  | .version => ⟨0, versionLine, "", []⟩

/-- The filter of the log of an invocation, which is empty unless a log is asked for. -/
def logOf (i : Invocation) (events : List Log.Event) : List Log.Event :=
  if i.verbose then events.filter (Log.Filter.ofLevel "debug").shows else []

def reported (i : Invocation) (r : Report) : Outcome :=
  match r.value with
  | .ok output => ⟨0, output, "", logOf i r.events⟩
  | .error failure => ⟨1, "", failure.text ++ "\n", logOf i r.events⟩

def run [Json.FloatReader] [Url.NameReader] {m : Type → Type} [Monad m] (s : Surroundings m)
    (words : List String) : m Outcome :=
  match read words with
  | .error refusal => pure (refused refusal)
  | .ok invocation => do pure (reported invocation (← report s invocation))

end Command

end SeriesBroker
