import SeriesBroker.Config.Document
import SeriesBroker.Surroundings

/-! # Loading settings

    Settings come from a named file, or from the first of the standard files that is there and
    can be used, and else are the standard ones. In every case the variables of the environment
    override them.
-/

namespace SeriesBroker

/-- Why settings could not be loaded from a file. -/
inductive LoadFault where
  | unreadable (path : String) (fault : FileFault)
  /-- The file is no TOML document, or its settings do not fit. -/
  | unusable (path : String)
  deriving DecidableEq

def LoadFault.message : LoadFault → String
  | .unreadable path fault =>
    "Failed to read config file " ++ Text.quoted path ++ ": " ++ fault.message
  | .unusable path => "Failed to parse config file " ++ Text.quoted path ++ ": TOML parse error"

/-! ## Paths -/

/-- The folder of a user's settings. A variable names it if its path leads from the root. -/
def settingsFolder? (environment : Lookups) : Option String :=
  match (environment "XDG_CONFIG_HOME").filter isAbsolutePath with
  | some folder => some folder
  | none => ((environment "HOME").filter (!·.isEmpty)).map (joinPath · ".config")

/-- The standard files: that of the user, that of the machine, and that of the folder in which
    one works. -/
def standardFiles (environment : Lookups) : List String :=
  let own := (settingsFolder? environment).map fun folder =>
    joinPath (joinPath folder "influx-broker") "config.toml"
  own.toList ++ ["/etc/influx-broker/config.toml", "./config.toml"]

/-- The names of the variables that matter. -/
def variableNames : List String :=
  ["XDG_CONFIG_HOME", "HOME", "RUST_LOG"] ++ settingNames.map settingVariable

/-! ## Events -/

/-- The reports of settings that are left out of account. -/
def ignoredEvents (texts : Lookups) : List Log.Event :=
  (ignoredSettings texts).map fun i => ⟨.warn, .config, i.message, []⟩

/-- The report of a file that is used. -/
def loadedEvent (path : String) : Log.Event :=
  ⟨.info, .config, "Loaded config from " ++ Text.quoted path, []⟩

/-- The report of a file that cannot be used. -/
def failedEvent (path : String) (fault : LoadFault) : Log.Event :=
  ⟨.warn, .config,
    "Failed to load config from " ++ Text.quoted path ++ ": " ++ fault.message, []⟩

/-- The report of standard settings. -/
def standardEvent : Log.Event :=
  ⟨.info, .config, "Using default config with environment overrides", []⟩

/-! ## Loading -/

def Config.ofFile (path : String) (text : Except FileFault String) : Except LoadFault Config :=
  match text with
  | .error fault => .error (.unreadable path fault)
  | .ok text =>
    match Config.ofText? text with
    | some config => .ok config
    | none => .error (.unusable path)

section

variable {m : Type → Type} [Monad m]

def Config.load (s : Surroundings m) (path : String) :
    m (Logged (Except LoadFault Config)) := do
  match Config.ofFile path (← s.read path) with
  | .error fault => pure (.silent (.error fault))
  | .ok config => pure ⟨.ok (config.override s.settings), ignoredEvents s.settings⟩

/-- Load settings from the first of some files that is there and can be used. -/
def Config.loadFirst (s : Surroundings m) : List String → m (Logged Config)
  | [] =>
    pure ⟨Config.standard.override s.settings, standardEvent :: ignoredEvents s.settings⟩
  | path :: others => do
    if ← s.isThere path then
      let loaded ← Config.load s path
      match loaded.value with
      | .ok config => pure ⟨config, loaded.events ++ [loadedEvent path]⟩
      | .error fault =>
        let next ← Config.loadFirst s others
        pure ⟨next.value, loaded.events ++ failedEvent path fault :: next.events⟩
    else Config.loadFirst s others

def Config.loadStandard (s : Surroundings m) : m (Logged Config) :=
  Config.loadFirst s (standardFiles s.environment)

end

end SeriesBroker
