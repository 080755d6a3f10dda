import SeriesBroker.Config.Override
import SeriesBroker.Files.Tree
import SeriesBroker.Log.Event

/-! # Surroundings

    What a command finds around itself: the variables of its environment, its standard input, a
    disk, a network. A command is written once for all surroundings, in a monad of which it
    only knows these operations, so that it can be run on a real disk and on a file tree in
    memory alike.
-/

namespace SeriesBroker

structure Surroundings (m : Type → Type) where
  /-- The variables of the environment. -/
  environment : Lookups
  /-- The standard input. -/
  input : m (Except FileFault String)
  /-- Whether there is anything at a path. -/
  isThere : String → m Bool
  /-- Read the file at a path. -/
  read : String → m (Except FileFault String)
  /-- Write a file at a path, making the folders on the way to it. -/
  write : String → String → m (Except FileFault Unit)
  /-- Reach the store with a client. -/
  reach : Client → Store

/-- The variable of a setting. -/
def settingVariable (name : String) : String := "INFLUX_BROKER_" ++ name

/-- The settings that the variables give. -/
def Surroundings.settings {m : Type → Type} (s : Surroundings m) : Lookups :=
  fun name => s.environment (settingVariable name)

/-- A value, with what was logged on the way to it. -/
structure Logged (α : Type) where
  value : α
  events : List Log.Event

/-- A value on the way to which nothing was logged. -/
def Logged.silent {α : Type} (value : α) : Logged α := ⟨value, []⟩

/-! ## Surroundings in memory -/

/-- Write a file in a tree that is the state. A tree in which it cannot be written stays as it
    is. -/
def writeInState (path text : String) : StateM FileTree (Except FileFault Unit) := do
  match (← get).write path text with
  | .ok t =>
    set t
    pure (.ok ())
  | .error fault => pure (.error fault)

/-- Surroundings with a file tree for a disk, and no network. -/
def Surroundings.inMemory [Url.NameReader] (environment : Lookups) (input : String) :
    Surroundings (StateM FileTree) where
  environment
  input := pure (.ok input)
  isThere path := do pure ((← get).isThere path)
  read path := do pure ((← get).read path)
  write := writeInState
  reach := Client.offline

end SeriesBroker
