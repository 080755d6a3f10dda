/-! # A document with the standard settings

    The document names every setting, explains it in a comment and gives its standard. A person
    who wants other settings starts from it.
-/

namespace SeriesBroker

/-- The lines before the sections: which texts override the settings. -/
def templateHead : List String := [
  "# Influx Broker Configuration",
  "#",
  "# Environment variables override these settings:",
  "# - INFLUX_BROKER_API_HOST",
  "# - INFLUX_BROKER_API_PORT",
  "# - INFLUX_BROKER_USER_HEADER",
  "# - INFLUX_BROKER_INFLUX_URL",
  "# - INFLUX_BROKER_INFLUX_USER",
  "# - INFLUX_BROKER_INFLUX_PASSWORD",
  "# - INFLUX_BROKER_INFLUX_TIMEOUT_MS",
  "# - INFLUX_BROKER_LOG_LEVEL",
  "# - INFLUX_BROKER_LOG_FORMAT",
  "# - INFLUX_BROKER_DEBUG (forces debug logging)",
  ""]

/-- The lines of the section about the HTTP interface. -/
def templateApi : List String := [
  "[api]",
  "# API server host",
  "host = \"0.0.0.0\"",
  "",
  "# API server port",
  "port = 8082",
  "",
  "# Request header naming the database to query",
  "user_header = \"X-UserId\"",
  "",
  "# Maximum request body size (bytes)",
  "max_body_size = 10485760",
  ""]

/-- The lines of the section about the store. -/
def templateStore : List String := [
  "[influx]",
  "# InfluxDB 1.x base URL",
  "url = \"http://localhost:8086\"",
  "",
  "# Basic auth credentials, if the server requires them",
  "# username = \"\"",
  "# password = \"\"",
  "",
  "# Per-request timeout (ms)",
  "timeout_ms = 30000",
  ""]

/-- The lines of the section about the log. -/
def templateLog : List String := [
  "[logging]",
  "# Log level: trace, debug, info, warn, error",
  "level = \"info\"",
  "",
  "# Log format: pretty (for development) or json (for production)",
  "format = \"pretty\""]

def template : String :=
  String.join ((templateHead ++ templateApi ++ templateStore ++ templateLog).map (· ++ "\n"))

end SeriesBroker
