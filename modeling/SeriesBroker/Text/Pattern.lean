/-! # Patterns

    A pattern says which texts are of some form. Whether a text is one of them is found from its
    front to its end: a pattern and the next character make the pattern of what may follow, and
    at the end the pattern that is left has to allow the empty text.
-/

namespace SeriesBroker.Text

inductive Pattern where
  | nothing
  /-- The empty text. -/
  | empty
  /-- One character out of some. -/
  | oneOf (set : List Char)
  | seq (first second : Pattern)
  | either (first second : Pattern)
  /-- Any number of texts of a form one after the other. -/
  | many (item : Pattern)
  deriving DecidableEq

namespace Pattern

def atLeastOne (item : Pattern) : Pattern := .seq item (.many item)

def optional (item : Pattern) : Pattern := .either .empty item

/-- A text as it stands. -/
def word (text : String) : Pattern :=
  text.toList.foldr (fun c rest => .seq (.oneOf [c]) rest) .empty

def anyOf (patterns : List Pattern) : Pattern := patterns.foldr .either .nothing

/-- `[0-9]+` -/
def digits : Pattern := .atLeastOne (.oneOf "0123456789".toList)

/-! ## Matching -/

def allowsEmpty : Pattern → Bool
  | nothing | oneOf _ => false
  | empty | many _ => true
  | seq first second => first.allowsEmpty && second.allowsEmpty
  | either first second => first.allowsEmpty || second.allowsEmpty

/-- A sequence without parts that are of no use, so that patterns do not grow with each
    character. -/
def joined : Pattern → Pattern → Pattern
  | nothing, _ => nothing
  | empty, second => second
  | first, second => seq first second

/-- A choice without parts that are of no use. -/
def choice : Pattern → Pattern → Pattern
  | nothing, second => second
  | first, nothing => first
  | first, second => either first second

/-- What may follow a character at the front. -/
def after (c : Char) : Pattern → Pattern
  | nothing | empty => nothing
  | oneOf set => if set.contains c then empty else nothing
  | seq first second =>
    let rest := joined (first.after c) second
    if first.allowsEmpty then choice rest (second.after c) else rest
  | either first second => choice (first.after c) (second.after c)
  | many item => joined (item.after c) (many item)

/-- Whether a whole text is of the form. -/
def accepts (p : Pattern) (text : List Char) : Bool :=
  (text.foldl (fun p c => p.after c) p).allowsEmpty

end Pattern

end SeriesBroker.Text
