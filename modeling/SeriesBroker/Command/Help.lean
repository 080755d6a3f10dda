import SeriesBroker.Command.Invocation
import SeriesBroker.Http.Router

/-! # Help for the command line -/

namespace SeriesBroker.Command

def programName : String := "influx-broker-cli"

/-- The line that shows the version. -/
def versionLine : String := programName ++ " " ++ Http.version ++ "\n"

/-- The line that shows how the program is called. -/
def usageLine : String := "Usage: " ++ programName ++ " [OPTIONS] <COMMAND>\n"

/-- What every command is for, by its name. -/
def summaries : List (String × String) := [
  ("compile", "Print the InfluxQL for a JSON array of request elements"),
  ("query", "Run a JSON array of request elements against a database"),
  ("latest", "Latest value of measurement columns"),
  ("tags", "List tag keys and values of a measurement"),
  ("config", "Generate default config file"),
  ("help", "Print this message or the help of the given subcommand(s)")]

/-- A text filled up with blanks to a width. -/
def padded (width : Nat) (text : String) : String :=
  text ++ String.ofList (List.replicate (width - text.length) ' ')

def helpText : String :=
  "Compile and run InfluxQL query batches\n\n" ++ usageLine ++ "\nCommands:\n" ++
    String.join (summaries.map fun (name, summary) =>
      "  " ++ padded 9 name ++ summary ++ "\n") ++
    "\nOptions:\n" ++
    "  -c, --config <CONFIG>          Config file (default: standard locations)\n" ++
    "      --influx-url <INFLUX_URL>  InfluxDB URL, overrides the config\n" ++
    "  -v, --verbose                  Log debug output to stderr\n" ++
    "  -h, --help                     Print help\n" ++
    "  -V, --version                  Print version\n"

end SeriesBroker.Command
