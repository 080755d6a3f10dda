import SeriesBroker.Log.Event
import SeriesBroker.Text.Basic

/-! # Log filters

    A filter is a list of directives, parted by commas. A directive may name a part of the
    program, a span, and details that an event has to hold, and gives the least important level
    that is shown: `part[span{detail}]=level`, of which every piece but one may be left
    out. Of the directives that speak about an event the most specific one decides.
-/

namespace SeriesBroker.Log

/-- Where a filter draws the line. -/
inductive Threshold where
  /-- Nothing is shown. -/
  | off
  /-- A level and the more important ones are shown. -/
  | upTo (level : Level)
  deriving DecidableEq

namespace Threshold

/-- How verbose the shown events may be. -/
def verbosity : Threshold → Nat
  | off => 0
  | upTo level => level.verbosity

def all : List Threshold := off :: Level.all.map upTo

/-- The name in a directive. -/
def name : Threshold → String
  | off => "off"
  | upTo level => Text.lowerAscii level.name

/-- The threshold of a name in any case, or of its number. Nothing stands for errors alone. -/
def ofText? (text : String) : Option Threshold :=
  match Text.unsigned? text with
  | some number => all.find? (·.verbosity == number)
  | none =>
    if text.isEmpty then some (upTo .error)
    else all.find? (·.name == Text.lowerAscii text)

/-- The threshold after the equals sign of a directive, where nothing stands for everything. -/
def ofSetting? (text : List Char) : Option Threshold :=
  if text.isEmpty then some (upTo .trace) else ofText? (String.ofList text)

end Threshold

structure Directive where
  /-- How the names of the parts begin that it speaks about. -/
  part : Option String
  /-- The span in which events have to happen. -/
  span : Option String
  /-- The details that events have to hold. -/
  details : List String
  /-- Whether it also asks for values of details. -/
  hasValues : Bool
  threshold : Threshold

namespace Directive

/-! ## Reading -/

/-- Read what follows a part and a span: nothing, or a threshold. -/
def readSetting (part span : Option String) (details : List String) (hasValues : Bool) :
    List Char → Option Directive
  | [] => some ⟨part, span, details, hasValues, .upTo .trace⟩
  | '=' :: text => do
    let threshold ← Threshold.ofSetting? text
    pure ⟨part, span, details, hasValues, threshold⟩
  | _ => none

/-- Read what follows the opening bracket of a span. -/
def readSpan (part : Option String) (text : List Char) : Option Directive :=
  let isName (c : Char) : Bool := c != ']' && c != '\x7b'
  let name := text.takeWhile isName
  match text.dropWhile isName with
  | ']' :: rest => readSetting part (some (String.ofList name)) [] false rest
  | '\x7b' :: rest =>
    let detail := rest.takeWhile (· != '\x7d')
    let span := if name.isEmpty then none else some (String.ofList name)
    match rest.dropWhile (· != '\x7d') with
    | '\x7d' :: ']' :: rest =>
      if detail.isEmpty then none
      else
        readSetting part span [String.ofList (detail.takeWhile (· != '='))]
          (detail.contains '=') rest
    | _ => none
  | _ => none

/-- Whether a directive may begin with a character. Letters and digits outside ASCII may begin
    one too. -/
def beginsName (c : Char) : Bool :=
  c.isAlphanum || c == '-' || c == ':' || c == '_' || 0x80 ≤ c.toNat

/-- A directive without an equals sign and a bracket: a threshold, or the name of a part. -/
def ofWord (word : String) : Directive :=
  match Threshold.ofText? word with
  | some threshold => ⟨none, none, [], false, threshold⟩
  | none => ⟨some word, none, [], false, .upTo .trace⟩

def ofText? (text : String) : Option Directive :=
  let text := (Text.trim text).toList
  let isName (c : Char) : Bool := c != '=' && c != '['
  let name := String.ofList (text.takeWhile isName)
  match text with
  | [] => none
  | '[' :: rest => readSpan none rest
  | c :: _ =>
    if !beginsName c then none
    else
      match text.dropWhile isName with
      | [] => some (ofWord name)
      | '[' :: rest => readSpan (some name) rest
      | rest => readSetting (some name) none [] false rest

/-! ## Deciding -/

/-- Whether a directive speaks about an event outside of all spans. -/
def speaksAbout (d : Directive) (e : Event) : Bool :=
  d.span.isNone && !d.hasValues &&
    (d.part.all fun start => start.toList.isPrefixOf e.part.name.toList) &&
    d.details.all fun name => e.names.contains name

/-- Whether a directive is at least as specific as another one. -/
def atLeastAsSpecific (d other : Directive) : Bool :=
  let extent (d : Directive) : Nat := (d.part.map fun start => start.length + 1).getD 0
  extent other < extent d ||
    (extent other == extent d && other.details.length ≤ d.details.length)

/-- The more specific one of two directives, and of equals the later one. -/
def prevailing (best : Option Directive) (d : Directive) : Option Directive :=
  match best with
  | none => some d
  | some best => if d.atLeastAsSpecific best then some d else some best

end Directive

structure Filter where
  directives : List Directive

namespace Filter

/-- The directives that are used where there are none. -/
def orErrors (directives : List Directive) : Filter :=
  ⟨if directives.isEmpty then [⟨none, none, [], false, .upTo .error⟩] else directives⟩

/-- The texts of the directives of a filter. -/
def pieces (text : String) : List String := (text.splitOn ",").filter (!·.isEmpty)

/-- Read a filter of which every directive has to be understood. -/
def ofText? (text : String) : Option Filter :=
  ((pieces text).mapM Directive.ofText?).map orErrors

def shows (f : Filter) (e : Event) : Bool :=
  match (f.directives.filter (·.speaksAbout e)).foldl Directive.prevailing none with
  | some d => e.level.verbosity ≤ d.threshold.verbosity
  | none => false

/-- The filter of a configured level, which is about the whole broker. If the level is not
    understood, nothing is shown. -/
def ofLevel (level : String) : Filter :=
  ⟨(pieces (Part.broker.name ++ "=" ++ level)).filterMap Directive.ofText?⟩

end Filter

end SeriesBroker.Log
