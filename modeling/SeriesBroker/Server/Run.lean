import SeriesBroker.Command.Run

/-! # The life of the server

    The server loads its settings, looks once whether the store answers, listens, and stops in
    good order when it is told to. That the store does not answer keeps it from nothing. It
    logs each step, from the moment on when the settings of the log are known.
-/

namespace SeriesBroker.Server

/-- Why the server cannot listen. -/
inductive ListenFault where
  | addressInUse
  | addressUnavailable
  | reported (text : String)
  deriving DecidableEq

def ListenFault.message : ListenFault → String
  | .addressInUse => "Address already in use (os error 98)"
  | .addressUnavailable => "Cannot assign requested address (os error 99)"
  | .reported text => text

/-- What is left when the server has run. -/
structure Outcome where
  /-- Nought if the server was told to stop, one if it failed. -/
  exitCode : Nat
  /-- Whether it got so far as to wait for being told to stop. -/
  served : Bool
  /-- The text on the standard error output. -/
  complaint : String
  /-- The log, and the form in which it is written. -/
  events : List Log.Event
  form : Log.Form
  deriving DecidableEq

/-! ## The log -/

/-- The filter of the log. A variable wins over the settings, if it can be read. -/
def filterOf (environment : Lookups) (l : LogSettings) : Log.Filter :=
  ((environment "RUST_LOG").bind Log.Filter.ofText?).getD (.ofLevel l.level)

def formOf (l : LogSettings) : Log.Form := if l.isJson then .json else .pretty

/-- An event at the level of information. -/
def told (part : Log.Part) (message : String) : Log.Event := ⟨.info, part, message, []⟩

def startEvent : Log.Event := told .broker ("Starting influx-broker v" ++ Http.version)

/-- What is logged about the store. -/
def storeEvents [Url.NameReader] (client : Client) (reachable : Bool) : List Log.Event :=
  told .broker ("InfluxDB at " ++ client.settings.url) ::
    if reachable then [told .broker "InfluxDB connection verified"]
    else
      let fault := client.pingFailure
      [Command.unreachedEvent fault,
        ⟨.warn, .broker, "InfluxDB not available: " ++ (StoreError.connection fault).message ++
          " (queries will fail until it is)", []⟩]

/-- What is logged about the header that selects the database. -/
def selectorEvent (a : ApiSettings) : Log.Event :=
  told .broker ("Database selector header: " ++ a.selector)

/-- What is logged from listening to the end. -/
def servingEvents (address : String) : List Log.Event := [
  told .api ("Query broker listening on " ++ address),
  told .api "Shutdown signal received, starting graceful shutdown",
  told .api "Query broker shut down gracefully",
  told .broker "influx-broker stopped"]

/-! ## Running -/

def listenFailure (fault : ListenFault) : Failure :=
  ⟨"server failed", ["IO error: " ++ fault.message, fault.message]⟩

/-- The outcome of a server with some settings. -/
def outcome (environment : Lookups) (l : LogSettings) (failure : Option Failure)
    (events : List Log.Event) : Outcome where
  exitCode := if failure.isSome then 1 else 0
  served := failure.isNone
  complaint := (failure.map fun f => f.text ++ "\n").getD ""
  events := events.filter (filterOf environment l).shows
  form := formOf l

/-- Run the server until it is told to stop. The last argument listens on an address, and comes
    back when that is over. -/
def run [Url.NameReader] {m : Type → Type} [Monad m] (s : Surroundings m)
    (listen : String → m (Except ListenFault Unit)) : m Outcome := do
  let settings := (← Config.loadStandard s).value
  let outcome := outcome s.environment settings.log
  match Client.ofSettings settings.store.effective with
  | .error error => pure (outcome (some (.ofSettings error)) [startEvent])
  | .ok client =>
    let reachable := (s.reach client).reachable
    let events := startEvent :: storeEvents client reachable ++ [selectorEvent settings.api]
    match ← listen settings.api.address with
    | .error fault => pure (outcome (some (listenFailure fault)) events)
    | .ok () => pure (outcome none (events ++ servingEvents settings.api.address))

end SeriesBroker.Server
