import SeriesBroker.Toml.Number
import SeriesBroker.Toml.Text

/-! # Reading TOML

    A document is read line by line: headers of tables, and keys with their values. Values in
    brackets may run over several lines.
-/

namespace SeriesBroker.Toml

/-! ## Blanks and comments -/

/-- Drop spaces and tabs. -/
def dropBlanks (text : List Char) : List Char := text.dropWhile isBlank

def readLineBreak : List Char → Option (List Char)
  | '\n' :: rest => some rest
  | '\r' :: '\n' :: rest => some rest
  | _ => none

/-- Drop a comment, if there is one, up to the end of its line. -/
def dropComment : List Char → List Char
  | '#' :: rest => rest.dropWhile isPlain
  | rest => rest

/-- Read the rest of a line: blanks, a comment and the break. -/
def readLineEnd (text : List Char) : Option (List Char) :=
  match dropComment (dropBlanks text) with
  | [] => some []
  | rest => readLineBreak rest

/-- Drop blanks, comments and line breaks. The first argument bounds the number of lines. -/
def dropSpace : Nat → List Char → List Char
  | 0, text => text
  | lines + 1, text =>
    let rest := dropComment (dropBlanks text)
    match readLineBreak rest with
    | some rest => dropSpace lines rest
    | none => rest

/-- Drop everything that may stand between the values of an array. -/
def dropBetween (text : List Char) : List Char := dropSpace text.length text

/-! ## Keys -/

/-- Whether a character may stand in a key without quotation marks. -/
def isKeyChar (c : Char) : Bool := c.isAlphanum || c == '-' || c == '_'

/-- Read a key without dots. -/
def readSimpleKey (text : List Char) : Option (String × List Char) :=
  match text with
  | '"' :: _ => readQuoted text
  | '\'' :: _ => readQuoted text
  | _ =>
    let key := text.takeWhile isKeyChar
    if key.isEmpty then none else some (String.ofList key, text.dropWhile isKeyChar)

/-- Read the keys after a first one. The first argument bounds their number. -/
def readMoreKeys : Nat → List String → List Char → Option (List String × List Char)
  | 0, _, _ => none
  | keys + 1, collected, text =>
    match dropBlanks text with
    | '.' :: rest => do
      let (key, rest) ← readSimpleKey (dropBlanks rest)
      readMoreKeys keys (key :: collected) rest
    | rest => some (collected.reverse, rest)

/-- The greatest depth of keys and of values. -/
def depthLimit : Nat := 80

/-- Read a key: a path of keys that lead to it, and the key itself. -/
def readKey (text : List Char) : Option (List String × String × List Char) := do
  let (first, rest) ← readSimpleKey text
  let (keys, rest) ← readMoreKeys depthLimit [first] rest
  pure (keys.dropLast, keys.getLast?.getD first, rest)

/-! ## Values -/

/-- Read a value that has no parts. -/
def readSimple (text : List Char) : Option (Value × List Char) :=
  match text with
  | '"' :: _ => (readText text).map fun (s, rest) => (.text s, rest)
  | '\'' :: _ => (readText text).map fun (s, rest) => (.text s, rest)
  | 't' :: 'r' :: 'u' :: 'e' :: rest => some (.boolean true, rest)
  | 'f' :: 'a' :: 'l' :: 's' :: 'e' :: rest => some (.boolean false, rest)
  | _ =>
    match readMoment text with
    | some rest => some (.date, rest)
    | none => readNumber text

/-- Read the items of an array after its bracket. The first argument bounds their number. -/
def readItems (read : List Char → Option (Value × List Char)) :
    Nat → List Value → List Char → Option (Value × List Char)
  | 0, _, _ => none
  | items + 1, collected, text =>
    match dropBetween text with
    | ']' :: rest => some (.array collected.reverse, rest)
    | text => do
      let (value, rest) ← read text
      match dropBetween rest with
      | ',' :: rest => readItems read items (value :: collected) rest
      | ']' :: rest => some (.array (value :: collected).reverse, rest)
      | _ => none

/-- Read a key with its value into a table. -/
def readPair (read : List Char → Option (Value × List Char))
    (add : List String → String → Value → Option Entries) (text : List Char) :
    Option (Entries × List Char) := do
  let (path, key, rest) ← readKey text
  match dropBlanks rest with
  | '=' :: rest =>
    let (value, rest) ← read (dropBlanks rest)
    let entries ← add path key value
    pure (entries, rest)
  | _ => none

/-- Read the pairs of a table in braces. The first argument bounds their number. -/
def readPairs (read : List Char → Option (Value × List Char)) :
    Nat → Entries → List Char → Option (Value × List Char)
  | 0, _, _ => none
  | pairs + 1, entries, text => do
    let add (path : List String) (key : String) (value : Value) : Option Entries :=
      Entries.addAt path key value .braces entries
    let (entries, rest) ← readPair read add (dropBlanks text)
    match dropBlanks rest with
    | ',' :: rest => readPairs read pairs entries rest
    | '\x7d' :: rest => some (.table .braces entries, rest)
    | _ => none

/-- Read a table after its brace. -/
def readBraces (read : List Char → Option (Value × List Char)) (text : List Char) :
    Option (Value × List Char) :=
  match dropBlanks text with
  | '\x7d' :: rest => some (.table .braces [], rest)
  | text => readPairs read (text.length + 1) [] text

/-- Read a value. The first argument bounds the depth of brackets and braces. -/
def readValue : Nat → List Char → Option (Value × List Char)
  | 0, _ => none
  | depth + 1, text =>
    match text with
    | '[' :: rest => readItems (readValue depth) (rest.length + 1) [] rest
    | '\x7b' :: rest => readBraces (readValue depth) rest
    | text => readSimple text

/-! ## Documents -/

/-- A document while it is read. -/
structure Draft where
  entries : Entries
  /-- The path of the table that is being filled. -/
  current : List String

/-- Add a value to the table that is being filled. -/
def Draft.add (d : Draft) (path : List String) (key : String) (value : Value) :
    Option Entries :=
  Entries.changeAt false (fun _ entries => Entries.addAt path key value .header entries)
    d.current .header d.entries

/-- Read a header after its brackets, and open the table that it names. -/
def readHeader (d : Draft) (openBy : List String → String → Entries → Option Entries)
    (closing : List Char) (text : List Char) : Option (Draft × List Char) := do
  let (path, key, rest) ← readKey (dropBlanks text)
  let rest := dropBlanks rest
  guard (closing.isPrefixOf rest)
  let entries ← openBy path key d.entries
  pure (⟨entries, path ++ [key]⟩, rest.drop closing.length)

/-- Read what stands in a line that is neither empty nor a comment. -/
def readLine (d : Draft) (text : List Char) : Option (Draft × List Char) :=
  match text with
  | '[' :: '[' :: rest => readHeader d Entries.openTables [']', ']'] rest
  | '[' :: rest => readHeader d Entries.openTable [']'] rest
  | text => do
    let (entries, rest) ← readPair (readValue depthLimit) d.add text
    pure ({ d with entries }, rest)

/-- Read lines up to the end. The first argument bounds their number. -/
def readLines : Nat → Draft → List Char → Option Entries
  | 0, _, _ => none
  | lines + 1, d, text =>
    match dropBlanks text with
    | [] => some d.entries
    | '#' :: _ | '\n' :: _ | '\r' :: _ => do
      let rest ← readLineEnd text
      readLines lines d rest
    | text => do
      let (d, rest) ← readLine d text
      let rest ← readLineEnd rest
      readLines lines d rest

def dropMark : List Char → List Char
  | '\ufeff' :: rest => rest
  | rest => rest

def read (text : String) : Option Entries :=
  let text := dropMark text.toList
  readLines (text.length + 1) ⟨[], []⟩ text

end SeriesBroker.Toml
