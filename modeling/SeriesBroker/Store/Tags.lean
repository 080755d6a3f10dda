import SeriesBroker.Statement.Piece
import SeriesBroker.Store.Basic

/-! # Tags

    The store lists the tags of a measurement as one series of pairs of a key and a value. They
    are collected by key, the values of a key in the order of the rows.
-/

namespace SeriesBroker

/-- The tags of a measurement: the values of each key. -/
abbrev TagValues := SortedMap (List String)

def tagQuery (measurement : String) : String :=
  Statement.render [.words "SHOW TAG VALUES FROM ", .name measurement,
    .words " WITH KEY =~ /.*/"]

/-- An error about the form of the answer. -/
def tagError (fault : TagFault) : StoreError := .answer (.unexpectedTags fault)

/-- The key and the value of a row. -/
def tagOfRow : Row → Except StoreError (String × String)
  | [.string key, .string value] => .ok (key, value)
  | [_, _] => .error (tagError .notTexts)
  | _ => .error (tagError .notPairs)

/-- Add a value to those of a key. -/
def TagValues.push (tags : TagValues) (tag : String × String) : TagValues :=
  SortedMap.update tags tag.1 fun old => old.getD [] ++ [tag.2]

/-- The rows of the answer, of which there may be one result with one series at most. -/
def tagRows (envelope : Envelope) : Except StoreError (List Row) :=
  match envelope.results with
  | [] => .ok []
  | [result] =>
    match result.series with
    | [] => .ok []
    | [series] => .ok series.rows
    | _ => .error (tagError .manySeries)
  | _ => .error (tagError .manyResults)

def tagsOf (envelope : Envelope) : Except StoreError TagValues := do
  let rows ← tagRows envelope
  let tags ← rows.mapM tagOfRow
  pure (tags.foldl TagValues.push SortedMap.empty)

def Store.tags (s : Store) (database measurement : String) :
    Exchange (Except StoreError TagValues) :=
  let exchange := s.execute ⟨database, tagQuery measurement⟩
  ⟨exchange.result.bind tagsOf, exchange.calls⟩

end SeriesBroker
