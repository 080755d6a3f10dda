import SeriesBroker.Text.Pattern

/-! # Arithmetic and durations

    The two forms of text that go into a query as they are: a step of arithmetic (`*1000`,
    `-0.5`) and a duration (`15m`). Both are made of ASCII characters and the micro sign only.
-/

namespace SeriesBroker

open Text (Pattern)

namespace Arithmetic

def operators : List Char := ['+', '-', '*', '/']

/-- `[+\-*/][0-9]+(\.[0-9]+)?` -/
def pattern : Pattern :=
  .seq (.oneOf operators) (.seq .digits (.optional (.seq (.oneOf ['.']) .digits)))

/-- Whether a text is an operator with a number. -/
def accepts (text : String) : Bool := pattern.accepts text.toList

end Arithmetic

namespace Duration

/-- The units, from nanoseconds to weeks. Microseconds have two names. -/
def units : List String := ["ns", "u", "\u00b5", "ms", "s", "m", "h", "d", "w"]

/-- `[0-9]+(ns|u|\u00b5|ms|s|m|h|d|w)` -/
def pattern : Pattern := .seq .digits (.anyOf (units.map .word))

/-- Whether a text is digits with a unit. -/
def accepts (text : String) : Bool := pattern.accepts text.toList

end Duration

end SeriesBroker
