import SeriesBroker.Store.Client
import SeriesBroker.Text.Basic

/-! # Settings

    What a person can set: where the HTTP interface listens and what it takes, how the store is
    reached, and what is logged in which form. Everything has a standard setting.
-/

namespace SeriesBroker

structure ApiSettings where
  /-- The host to listen on. -/
  host : String
  port : UInt16
  /-- The header that selects the database. -/
  selector : String
  /-- The greatest length of a body in bytes. -/
  maxBodySize : UInt64
  deriving DecidableEq

namespace ApiSettings

def standard : ApiSettings := ⟨"0.0.0.0", 8082, "X-UserId", 10485760⟩

def address (a : ApiSettings) : String := a.host ++ ":" ++ toString a.port.toNat

end ApiSettings

structure LogSettings where
  /-- The least important level that is shown. -/
  level : String
  /-- The name of a form. -/
  form : String
  deriving DecidableEq

namespace LogSettings

def standard : LogSettings := ⟨"info", "pretty"⟩

/-- Whether the log is for machines. Any other form than theirs is the one for people. -/
def isJson (l : LogSettings) : Bool := Text.lowerAscii l.form == "json"

end LogSettings

/-- The settings of the store as its client takes them: a user without a name is none. -/
def StoreSettings.effective (s : StoreSettings) : StoreSettings :=
  { s with username := s.username.filter (!·.isEmpty) }

structure Config where
  api : ApiSettings
  store : StoreSettings
  log : LogSettings
  deriving DecidableEq

def Config.standard : Config := ⟨.standard, .standard, .standard⟩

end SeriesBroker
