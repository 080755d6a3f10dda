/-! # TOML documents

    A document is a table of values. Tables come into being in different ways, and the way
    decides how a table may be extended: a table with a header of its own is complete, one that
    is only implied by the header of a table inside it may still get its own header, and one
    that was made by a dotted key may only be extended by further dotted keys. A table written
    in braces is never extended.
-/

namespace SeriesBroker.Toml

/-- How a table came into being. -/
inductive Origin where
  /-- By a header of its own, or as the document. -/
  | header
  /-- By the header of a table inside it. -/
  | implied
  /-- By a dotted key. -/
  | dotted
  /-- In braces. -/
  | braces
  deriving DecidableEq

/-- A value. Floats and dates are told from other values and not kept. -/
inductive Value where
  | text (value : String)
  | integer (value : Int)
  | float
  | boolean (value : Bool)
  | date
  | array (items : List Value)
  | table (origin : Origin) (entries : List (String × Value))
  /-- An array of tables that have headers. -/
  | tables (tables : List (List (String × Value)))

abbrev Entries := List (String × Value)

namespace Entries

/-- Put a value in the place of the one that a key has, or at the end. -/
def put (entries : Entries) (key : String) (value : Value) : Entries :=
  if entries.any (·.1 == key) then
    entries.map fun entry => if entry.1 = key then (key, value) else entry
  else entries ++ [(key, value)]

/-- Change the table at the end of a path, making the tables on the way that are missing. A
    path of dotted keys does not lead into a table with a header. Of an array of tables the
    last one is meant. -/
def changeAt (dotted : Bool) (change : Origin → Entries → Option Entries) :
    (path : List String) → Origin → Entries → Option Entries
  | [], origin, entries => change origin entries
  | key :: path, _, entries =>
    match entries.lookup key with
    | none => do
      let origin := if dotted then Origin.dotted else Origin.implied
      let inner ← changeAt dotted change path origin []
      pure (entries.put key (.table origin inner))
    | some (.table origin inner) =>
      if origin = .braces ∨ (dotted ∧ origin = .header) then none
      else do
        let inner ← changeAt dotted change path origin inner
        pure (entries.put key (.table origin inner))
    | some (.tables tables) =>
      match tables.reverse with
      | [] => none
      | last :: others => do
        let last ← changeAt dotted change path .header last
        pure (entries.put key (.tables (last :: others).reverse))
    | some _ => none

/-- Add a value under a key that is not there yet. A table of dotted keys takes only dotted
    keys, and no other table takes them. -/
def add (dotted : Bool) (key : String) (value : Value) (origin : Origin) (entries : Entries) :
    Option Entries :=
  if (origin = .dotted) ≠ (dotted = true) then none
  else if entries.any (·.1 == key) then none
  else some (entries ++ [(key, value)])

def addAt (path : List String) (key : String) (value : Value) (origin : Origin)
    (entries : Entries) : Option Entries :=
  changeAt true (add (!path.isEmpty) key value) path origin entries

/-- Open a table by its header. -/
def openTable (path : List String) (key : String) (entries : Entries) : Option Entries :=
  changeAt false (fun _ parent =>
    match parent.lookup key with
    | none => some (parent ++ [(key, .table .header [])])
    | some (.table .implied inner) => some (parent.put key (.table .header inner))
    | some _ => none) path .header entries

/-- Open a further table of an array of tables. -/
def openTables (path : List String) (key : String) (entries : Entries) : Option Entries :=
  changeAt false (fun _ parent =>
    match parent.lookup key with
    | none => some (parent ++ [(key, .tables [[]])])
    | some (.tables tables) => some (parent.put key (.tables (tables ++ [[]])))
    | some _ => none) path .header entries

end Entries

end SeriesBroker.Toml
