/-! # Pieces of a query

    A query is put together from pieces: words of the query language, names and string
    literals. Only when all pieces are known are they written, so what a caller sent can stand
    in a query as a word (arithmetic, durations, numbers) or as a quoted text, and there is no
    third way.
-/

namespace SeriesBroker.Statement

/-! ## Quoted names and literals

    A query quotes the names of measurements and columns with double quotes and strings with
    single ones. Inside, a backslash stands before each backslash and before each mark of the
    same kind, so a quoted text ends at its first mark that has no backslash before it.
-/

/-- A text with a backslash before each backslash and each mark. -/
def escape (mark : Char) (text : List Char) : List Char :=
  text.flatMap fun c => if c = '\\' ∨ c = mark then ['\\', c] else [c]

/-- A text between two marks. -/
def quoteWith (mark : Char) (text : String) : String :=
  String.ofList (mark :: escape mark text.toList ++ [mark])

/-- A name in double quotes. -/
def quoteName (name : String) : String := quoteWith '"' name

/-- A string in single quotes. -/
def quoteLiteral (text : String) : String := quoteWith '\'' text

/-! ### Reading back -/

/-- Read up to the closing mark: the character after a backslash stands for itself. Answers the
    text and what follows the mark. -/
def readEscaped (mark : Char) : List Char → Option (List Char × List Char)
  | [] => none
  | '\\' :: c :: rest => (readEscaped mark rest).map fun (text, rest) => (c :: text, rest)
  | c :: rest =>
    if c = mark then some ([], rest)
    else (readEscaped mark rest).map fun (text, rest) => (c :: text, rest)

/-- Read a quoted text from its opening mark. -/
def readQuoted (mark : Char) : List Char → Option (List Char × List Char)
  | c :: rest => if c = mark then readEscaped mark rest else none
  | [] => none

/-! ## Pieces -/

inductive Piece where
  /-- Words and signs of the query language. -/
  | words (text : String)
  /-- The name of a measurement or a column. -/
  | name (text : String)
  /-- A string. -/
  | literal (text : String)
  deriving DecidableEq

def Piece.text : Piece → String
  | .words text => text
  | .name text => quoteName text
  | .literal text => quoteLiteral text

def render (pieces : List Piece) : String := String.join (pieces.map Piece.text)

/-- Lists of pieces with the same words between every two of them. -/
def joinPieces (words : String) (parts : List (List Piece)) : List Piece :=
  List.intercalate [.words words] parts

end SeriesBroker.Statement
