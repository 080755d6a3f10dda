import SeriesBroker.Http.Message
import SeriesBroker.Statement.Select
import SeriesBroker.Url.Basic

/-! # Errors of the store

    Whatever goes wrong between the broker and the store ends in one of a few classes. Each
    class knows its causes, and where a cause was found by someone else it keeps their words.
-/

namespace SeriesBroker

/-- Why the store could not be reached. -/
inductive ConnectionFault where
  /-- A request could not be sent. -/
  | unsent (url : String)
  /-- No request can be made of the URL. -/
  | unbuildable (url : String)
  | reported (text : String)
  deriving DecidableEq

def ConnectionFault.message : ConnectionFault → String
  | .unsent url => "error sending request for url (" ++ url ++ ")"
  | .unbuildable url => "builder error for url (" ++ url ++ ")"
  | .reported text => text

/-- Why the store's address cannot be used. -/
inductive ConfigFault where
  /-- The address is no URL. -/
  | invalidUrl (url : String) (fault : UrlFault)
  /-- The URL has no place for a path. -/
  | undividedUrl (url : String)
  | reported (text : String)
  deriving DecidableEq

def ConfigFault.message : ConfigFault → String
  | .invalidUrl url fault => "invalid url " ++ Text.quoted url ++ ": " ++ fault.message
  | .undividedUrl url => "invalid url " ++ Text.quoted url
  | .reported text => text

/-- How the store's answer to a lookup of tags differs from what was expected. -/
inductive TagFault where
  | manyResults
  | manySeries
  | notTexts
  | notPairs
  deriving DecidableEq

def TagFault.message : TagFault → String
  | .manyResults => "more than one result"
  | .manySeries => "more than one series"
  | .notTexts => "tag key and value must be strings"
  | .notPairs => "not 2 values per row"

/-- What is wrong with an answer of the store. -/
inductive AnswerFault where
  /-- The store says so. -/
  | reported (text : String)
  /-- A successful answer is no envelope. -/
  | undecodable (fault : Json.DecodeError)
  /-- An answer with a status of failure is no envelope; the text is its body. -/
  | failed (status : Nat) (text : String)
  /-- An envelope without errors came with a status of failure. -/
  | unexpectedStatus (status : Nat)
  /-- A list of tags does not have the expected form. -/
  | unexpectedTags (fault : TagFault)
  deriving DecidableEq

def AnswerFault.message : AnswerFault → String
  | .reported text => text
  | .undecodable fault => "undecodable response: " ++ fault.message
  | .failed status text => Http.statusText status ++ ": " ++ text
  | .unexpectedStatus status => "unexpected status " ++ Http.statusText status
  | .unexpectedTags fault => "unexpected response length (" ++ fault.message ++ ")"

inductive StoreError where
  /-- The store could not be reached. -/
  | connection (fault : ConnectionFault)
  /-- The answer has no envelope. -/
  | nullResponse
  /-- A database or a measurement does not exist. -/
  | notFound (text : String)
  /-- Anything else that is wrong with an answer. -/
  | answer (fault : AnswerFault)
  /-- Lookups were refused before the store was asked. -/
  | query (error : QueryError)
  /-- There is no way to talk to the store. -/
  | config (fault : ConfigFault)
  deriving DecidableEq

def StoreError.message : StoreError → String
  | .connection fault => "communication with InfluxDB failed: " ++ fault.message
  | .nullResponse => "NULL response"
  | .notFound text => "not found: " ++ text
  | .answer fault => "InfluxDB error: " ++ fault.message
  | .query error => error.message
  | .config fault => "Invalid InfluxDB configuration: " ++ fault.message

end SeriesBroker
