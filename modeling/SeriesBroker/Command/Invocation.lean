import SeriesBroker.Command.Words
import SeriesBroker.Request.Basic

/-! # Invocations

    What a command line asks for: one of five commands with its operands and options, and
    options that every command takes. These may stand before the name of the command or after
    it, and after it they win.
-/

namespace SeriesBroker

inductive Command where
  /-- Print the statements of a batch of requests. -/
  | compile (input : Option String) (order : String)
  /-- Run a batch of requests and print what it yields. -/
  | query (database : String) (input : Option String) (shape order : String)
  /-- Print the newest values of columns. -/
  | latest (database : String) (lookups : List String)
  /-- Print the tags of a measurement. -/
  | tags (database measurement : String)
  /-- Print a document with the standard settings, or write it to a file. -/
  | config (output : Option String)
  deriving DecidableEq

/-- A command with the options that every command takes. -/
structure Invocation where
  command : Command
  /-- The file with the settings. -/
  config : Option String
  /-- The URL of the store. -/
  storeUrl : Option String
  /-- Whether to show a log. -/
  verbose : Bool
  deriving DecidableEq

namespace Command

/-! ## Options -/

/-- The options that every command takes. -/
def commonOptions : List OptionRule := [
  ⟨"config", some 'c', .path⟩,
  ⟨"influx-url", none, .text⟩,
  ⟨"verbose", some 'v', .switch⟩,
  ⟨"help", some 'h', .help⟩]

/-- The options before the name of a command. -/
def leadingOptions : List OptionRule := commonOptions ++ [⟨"version", some 'V', .version⟩]

def orderOption : OptionRule := ⟨"order", some 'o', .text⟩

def databaseOption : OptionRule := ⟨"db", some 'd', .text⟩

/-- The options of a command of its own. -/
def ownOptions : String → List OptionRule
  | "compile" => [orderOption]
  | "query" => [databaseOption, ⟨"format", some 'f', .text⟩, orderOption]
  | "latest" => [databaseOption]
  | "tags" => [databaseOption]
  | "config" => [⟨"output", some 'o', .path⟩]
  | _ => []

def names : List String := ["compile", "query", "latest", "tags", "config"]

/-! ## Commands -/

/-- The order of rows, the latest one first if nothing else is asked for. -/
def orderOf (f : Found) : String := (f.value? orderOption.long).getD "desc"

/-- The only operand, which names a file. -/
def fileOperand? : List String → Option (Option String)
  | [] => some none
  | [word] => if word.isEmpty then none else some (some word)
  | _ => none

/-- The command of a name, with its options and operands. -/
def ofFound? (name : String) (f : Found) : Option Command :=
  match name with
  | "compile" => do
    let input ← fileOperand? f.operands
    pure (.compile input (orderOf f))
  | "query" => do
    let database ← f.value? databaseOption.long
    let input ← fileOperand? f.operands
    pure (.query database input ((f.value? "format").getD "per_query") (orderOf f))
  | "latest" => do
    let database ← f.value? databaseOption.long
    if f.operands.isEmpty then none else some (.latest database f.operands)
  | "tags" => do
    let database ← f.value? databaseOption.long
    match f.operands with
    | [measurement] => some (.tags database measurement)
    | _ => none
  | "config" => if f.operands.isEmpty then some (.config (f.value? "output")) else none
  | _ => none

/-- The invocation of a command, with what was found before its name and after it. -/
def invocationOf? (name : String) (before after : Found) : Option Invocation := do
  let command ← ofFound? name after
  let common (long : String) : Option String := (after.value? long).or (before.value? long)
  pure ⟨command, common "config", common "influx-url", (common "verbose").isSome⟩

/-- The outcome of asking for help on a command by its name. -/
def helpOn : List String → Refusal
  | [] => .help
  | [name] => if names.contains name || name == "help" then .help else .misuse
  | _ => .misuse

def read (words : List String) : Except Refusal Invocation := do
  let (before, rest) ← readWords leadingOptions true (.nothing, none) words
  match rest with
  | [] => .error .misuse
  | name :: rest =>
    if name = "help" then .error (helpOn rest)
    else if !names.contains name then .error .misuse
    else do
      let rules := commonOptions ++ ownOptions name
      let (after, _) ← readWords rules false (.nothing, none) rest
      match invocationOf? name before after with
      | some invocation => .ok invocation
      | none => .error .misuse

end Command

/-! ## Lookups on a command line

    A lookup is written as a measurement and a column, and a calculation if there is one, with
    colons between them. Only the first two colons part; further ones belong to the calculation.
-/

/-- The text before the first colon, and the text after it if there is one. -/
def splitAtColon (text : List Char) : List Char × Option (List Char) :=
  match text.dropWhile (· != ':') with
  | [] => (text, none)
  | _ :: rest => (text.takeWhile (· != ':'), some rest)

/-- The lookup that a text writes. The measurement and the column must not be empty, and an
    empty calculation is none. -/
def Lookup.ofText? (text : String) : Option Lookup :=
  match splitAtColon text.toList with
  | (_, none) => none
  | (measurement, some rest) =>
    let (column, math) := splitAtColon rest
    if measurement.isEmpty || column.isEmpty then none
    else
      some ⟨String.ofList measurement, String.ofList column,
        (math.filter (!·.isEmpty)).map String.ofList⟩

end SeriesBroker
