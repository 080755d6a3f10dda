import SeriesBroker.Config.Basic
import SeriesBroker.Toml.Read

/-! # Settings in a document

    A TOML document holds the settings in three sections. What it does not name keeps its
    standard setting, and what it names besides is left out of account. A section may also be an
    array that gives its settings by their place.
-/

namespace SeriesBroker

open Toml (Value)

/-- A section of a document: the value of a setting, by its place and its name. -/
abbrev Section := Nat → String → Option Value

namespace Section

/-- The section that a value is. A date is one in which nothing is set. -/
def ofValue : Value → Option Section
  | .table _ entries => some fun _ name => entries.lookup name
  | .array items => some fun place _ => items[place]?
  | .date => some fun _ _ => none
  | _ => none

/-- A setting that is a text. -/
def text (s : Section) (place : Nat) (name : String) (standard : String) : Option String :=
  match s place name with
  | none => some standard
  | some (.text value) => some value
  | some _ => none

/-- A setting that is a text or nothing. -/
def optionalText (s : Section) (place : Nat) (name : String) (standard : Option String) :
    Option (Option String) :=
  match s place name with
  | none => some standard
  | some (.text value) => some (some value)
  | some _ => none

/-- A setting that is a number below a bound. -/
def number (s : Section) (bound : Nat) (place : Nat) (name : String) (standard : Nat) :
    Option Nat :=
  match s place name with
  | none => some standard
  | some (.integer value) => if 0 ≤ value ∧ value < bound then some value.toNat else none
  | some _ => none

end Section

/-- The settings of the HTTP interface in a section. -/
def ApiSettings.ofSection (s : Section) : Option ApiSettings := do
  let standard := ApiSettings.standard
  let host ← s.text 0 "host" standard.host
  let port ← s.number 65536 1 "port" standard.port.toNat
  let selector ← s.text 2 "user_header" standard.selector
  let maxBodySize ← s.number 18446744073709551616 3 "max_body_size" standard.maxBodySize.toNat
  pure ⟨host, UInt16.ofNat port, selector, UInt64.ofNat maxBodySize⟩

/-- The settings of the store in a section. -/
def StoreSettings.ofSection (s : Section) : Option StoreSettings := do
  let standard := StoreSettings.standard
  let url ← s.text 0 "url" standard.url
  let username ← s.optionalText 1 "username" standard.username
  let password ← s.optionalText 2 "password" standard.password
  let timeout ← s.number 18446744073709551616 3 "timeout_ms" standard.timeout.toNat
  pure ⟨url, username, password, UInt64.ofNat timeout⟩

/-- The settings of the log in a section. -/
def LogSettings.ofSection (s : Section) : Option LogSettings := do
  let standard := LogSettings.standard
  let level ← s.text 0 "level" standard.level
  let form ← s.text 1 "format" standard.form
  pure ⟨level, form⟩

/-- The settings of a section that may be missing. -/
def readSection {α : Type} (entries : Toml.Entries) (name : String)
    (ofSection : Section → Option α) (standard : α) : Option α :=
  match entries.lookup name with
  | none => some standard
  | some value => (Section.ofValue value).bind ofSection

def Config.ofText? (text : String) : Option Config := do
  let entries ← Toml.read text
  let api ← readSection entries "api" ApiSettings.ofSection .standard
  let store ← readSection entries "influx" StoreSettings.ofSection .standard
  let log ← readSection entries "logging" LogSettings.ofSection .standard
  pure ⟨api, store, log⟩

end SeriesBroker
