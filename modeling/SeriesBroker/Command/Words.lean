/-! # The words of a command line

    A command line is a list of words. A word with two dashes before it, or one dash and letters,
    gives options; an option may want a value, which is attached to it or is the next word. The
    other words are operands, and after a word of two dashes alone every word is one.

    Words are read from left to right, and the first thing that settles the outcome does: a word
    that fits nowhere, or an option that asks for help or for the version.
-/

namespace SeriesBroker.Command

/-- What an option wants. -/
inductive OptionKind where
  /-- No value. -/
  | switch
  /-- Any value. -/
  | text
  /-- A value that is not empty. -/
  | path
  /-- To show help. -/
  | help
  /-- To show the version. -/
  | version
  deriving DecidableEq

structure OptionRule where
  /-- The name after two dashes. -/
  long : String
  /-- The letter after one dash. -/
  short : Option Char
  kind : OptionKind

def OptionRule.hasValue (o : OptionRule) : Bool := o.kind == .text || o.kind == .path

/-- Why no command is run. -/
inductive Refusal where
  /-- The words do not fit. -/
  | misuse
  /-- Help is asked for. -/
  | help
  /-- The version is asked for. -/
  | version
  deriving DecidableEq

/-- What was found in a list of words. -/
structure Found where
  /-- The values of the options that were given, by their long names. -/
  values : List (String × String)
  operands : List String

namespace Found

def nothing : Found := ⟨[], []⟩

def value? (f : Found) (long : String) : Option String := f.values.lookup long

def addOperand (f : Found) (word : String) : Found := { f with operands := f.operands ++ [word] }

/-- Give an option, which may be done once. -/
def give (f : Found) (o : OptionRule) (value : String) : Except Refusal Found :=
  match o.kind with
  | .help => .error .help
  | .version => .error .version
  | kind =>
    if (f.value? o.long).isSome || (kind == .path && value.isEmpty) then .error .misuse
    else .ok { f with values := f.values ++ [(o.long, value)] }

end Found

/-- What was found, and the option that waits for its value. -/
abbrev Progress := Found × Option OptionRule

/-- Read the option of a word with two dashes, of which the rest is given. -/
def readLong (rules : List OptionRule) (found : Found) (text : List Char) :
    Except Refusal Progress :=
  let name := String.ofList (text.takeWhile (· != '='))
  match rules.find? (·.long == name), text.dropWhile (· != '=') with
  | none, _ => .error .misuse
  | some o, [] =>
    if o.hasValue then .ok (found, some o)
    else do
      let found ← found.give o ""
      pure (found, none)
  | some o, _ :: value =>
    if o.hasValue then do
      let found ← found.give o (String.ofList value)
      pure (found, none)
    else .error .misuse

/-- Read the options of a word with one dash, of which the rest is given. An option with a value
    takes all letters after it, without an equals sign before them. -/
def readShort (rules : List OptionRule) (found : Found) : List Char → Except Refusal Progress
  | [] => .ok (found, none)
  | c :: text =>
    match rules.find? (·.short == some c) with
    | none => .error .misuse
    | some o =>
      if o.hasValue then
        match text with
        | [] => .ok (found, some o)
        | '=' :: value => do
          let found ← found.give o (String.ofList value)
          pure (found, none)
        | value => do
          let found ← found.give o (String.ofList value)
          pure (found, none)
      else do
        let found ← found.give o ""
        readShort rules found text

/-- Read words. Where only options are expected, the first other word ends the reading, and it
    is given back with the words after it. -/
def readWords (rules : List OptionRule) (optionsOnly : Bool) :
    Progress → List String → Except Refusal (Found × List String)
  | (found, none), [] => .ok (found, [])
  | (_, some _), [] => .error .misuse
  | (found, waiting), word :: rest =>
    match word.toList, waiting with
    | ['-', '-'], none =>
      if optionsOnly then .error .misuse
      else .ok (rest.foldl Found.addOperand found, [])
    | '-' :: '-' :: text, none => do
      let progress ← readLong rules found text
      readWords rules optionsOnly progress rest
    | '-' :: c :: text, none => do
      let progress ← readShort rules found (c :: text)
      readWords rules optionsOnly progress rest
    | '-' :: _ :: _, some _ => .error .misuse
    | _, some o => do
      let found ← found.give o word
      readWords rules optionsOnly (found, none) rest
    | _, none =>
      if optionsOnly then .ok (found, word :: rest)
      else readWords rules optionsOnly (found.addOperand word, none) rest

end SeriesBroker.Command
