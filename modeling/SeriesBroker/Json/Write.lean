import SeriesBroker.Json.Tree

/-! # Writing JSON

    Trees are written in one line without spaces, or indented by two spaces per level. Strings
    escape the quotation mark, the backslash and the controls below U+0020, and nothing else.
-/

namespace SeriesBroker.Json

/-! ## Strings -/

def escapeChar (c : Char) : List Char :=
  if c = '"' then ['\\', '"']
  else if c = '\\' then ['\\', '\\']
  else if c = '\x08' then ['\\', 'b']
  else if c = '\t' then ['\\', 't']
  else if c = '\n' then ['\\', 'n']
  else if c = '\x0c' then ['\\', 'f']
  else if c = '\r' then ['\\', 'r']
  else if c.toNat < 0x20 then ['\\', 'u', '0', '0'] ++ Text.byteLower c.toNat
  else [c]

def stringLiteral (text : String) : List Char :=
  '"' :: text.toList.flatMap escapeChar ++ ['"']

namespace Tree

/-- The text of a value that has no parts. -/
def leafText : Tree → List Char
  | .null => ['n', 'u', 'l', 'l']
  | .bool true => ['t', 'r', 'u', 'e']
  | .bool false => ['f', 'a', 'l', 's', 'e']
  | .number (some n) => n.text
  | .string (some s) => stringLiteral s
  | _ => []

def keyText (key : Key) : List Char := stringLiteral (key.getD "")

/-! ## Compact form -/

mutual

/-- A tree without spaces. -/
def compact : Tree → List Char
  | .array items => '[' :: compactItems items ++ [']']
  | .object members => '\x7b' :: compactMembers members ++ ['\x7d']
  | leaf => leaf.leafText

/-- The items of an array, parted by commas. -/
def compactItems : List Tree → List Char
  | [] => []
  | [item] => item.compact
  | item :: rest => item.compact ++ ',' :: compactItems rest

/-- The members of an object, parted by commas. -/
def compactMembers : List (Key × Tree) → List Char
  | [] => []
  | [(key, value)] => keyText key ++ ':' :: value.compact
  | (key, value) :: rest => keyText key ++ ':' :: value.compact ++ ',' :: compactMembers rest

end

/-! ## Indented form -/

/-- A line break and the indentation of a level. -/
def indent (level : Nat) : List Char := '\n' :: List.replicate (2 * level) ' '

mutual

/-- A tree with each item and each member on a line of its own. -/
def pretty (level : Nat) : Tree → List Char
  | .array [] => ['[', ']']
  | .array items => '[' :: prettyItems (level + 1) items ++ indent level ++ [']']
  | .object [] => ['\x7b', '\x7d']
  | .object members => '\x7b' :: prettyMembers (level + 1) members ++ indent level ++ ['\x7d']
  | leaf => leaf.leafText

/-- The lines of the items of an array. -/
def prettyItems (level : Nat) : List Tree → List Char
  | [] => []
  | [item] => indent level ++ item.pretty level
  | item :: rest => indent level ++ item.pretty level ++ ',' :: prettyItems level rest

/-- The lines of the members of an object. -/
def prettyMembers (level : Nat) : List (Key × Tree) → List Char
  | [] => []
  | [(key, value)] => indent level ++ keyText key ++ ':' :: ' ' :: value.pretty level
  | (key, value) :: rest =>
    indent level ++ keyText key ++ ':' :: ' ' :: value.pretty level ++
      ',' :: prettyMembers level rest

end

def toText (tree : Tree) : String := String.ofList tree.compact

def toPrettyText (tree : Tree) : String := String.ofList (tree.pretty 0)

end Tree

/-! ## Shorthands for encoders -/

def ofText (text : String) : Tree := .string (some text)

def ofInt (value : Int) : Tree := .number (Number.ofInt? value)

/-- An object with keys that are texts. -/
def ofMembers (members : List (String × Tree)) : Tree :=
  .object (members.map fun (key, value) => (some key, value))

/-- A member that is left out when it has no value. -/
def optionalMember (key : String) (value : Option Tree) : List (String × Tree) :=
  match value with
  | some tree => [(key, tree)]
  | none => []

end SeriesBroker.Json
