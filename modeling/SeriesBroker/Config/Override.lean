import SeriesBroker.Config.Basic
import SeriesBroker.Text.Basic

/-! # Overriding settings

    Settings may be given one by one as texts with names, and these win over those of a
    document. A number that cannot be read is left out of account, and is reported. The size of
    bodies cannot be overridden.
-/

namespace SeriesBroker

/-- A way to look up the text of a setting by its name. -/
abbrev Lookups := String → Option String

/-- The port that a text writes. -/
def portOf? (text : String) : Option UInt16 :=
  (Text.unsignedBelow? 65536 text).map UInt16.ofNat

/-- The time in milliseconds that a text writes. -/
def timeoutOf? (text : String) : Option UInt64 :=
  (Text.unsignedBelow? 18446744073709551616 text).map UInt64.ofNat

/-- The texts that ask for debugging. -/
def affirmations : List String := ["1", "true", "yes"]

/-- Override the settings of the HTTP interface. -/
def ApiSettings.override (texts : Lookups) (a : ApiSettings) : ApiSettings where
  host := (texts "API_HOST").getD a.host
  port := ((texts "API_PORT").bind portOf?).getD a.port
  selector := (texts "USER_HEADER").getD a.selector
  maxBodySize := a.maxBodySize

/-- Override the settings of the store. -/
def StoreSettings.override (texts : Lookups) (s : StoreSettings) : StoreSettings where
  url := (texts "INFLUX_URL").getD s.url
  username := (texts "INFLUX_USER").or s.username
  password := (texts "INFLUX_PASSWORD").or s.password
  timeout := ((texts "INFLUX_TIMEOUT_MS").bind timeoutOf?).getD s.timeout

/-- Override the settings of the log. Debugging wins over a level. -/
def LogSettings.override (texts : Lookups) (l : LogSettings) : LogSettings where
  level :=
    if (texts "DEBUG").any affirmations.contains then "debug"
    else (texts "LOG_LEVEL").getD l.level
  form := (texts "LOG_FORMAT").getD l.form

def Config.override (texts : Lookups) (c : Config) : Config where
  api := c.api.override texts
  store := c.store.override texts
  log := c.log.override texts

/-- A text that is left out of account. -/
structure IgnoredSetting where
  name : String
  text : String
  deriving DecidableEq

/-- The report of a text that is left out of account. -/
def IgnoredSetting.message (i : IgnoredSetting) : String :=
  "Ignoring invalid " ++ i.name ++ " " ++ Text.quoted i.text

/-- The setting of a name, if it has a text that cannot be read. -/
def ignoredSetting? {α : Type} (texts : Lookups) (read : String → Option α) (name : String) :
    Option IgnoredSetting := do
  let text ← texts name
  if (read text).isSome then none else some ⟨name, text⟩

/-- The settings that are left out of account. -/
def ignoredSettings (texts : Lookups) : List IgnoredSetting :=
  (ignoredSetting? texts portOf? "API_PORT").toList ++
    (ignoredSetting? texts timeoutOf? "INFLUX_TIMEOUT_MS").toList

/-- The names of all settings that can be given as texts. -/
def settingNames : List String :=
  ["API_HOST", "API_PORT", "USER_HEADER", "INFLUX_URL", "INFLUX_USER", "INFLUX_PASSWORD",
    "INFLUX_TIMEOUT_MS", "LOG_LEVEL", "LOG_FORMAT", "DEBUG"]

end SeriesBroker
