import SeriesBroker.Proofs.Request.Check
import SeriesBroker.Proofs.Request.Keywords
import SeriesBroker.Proofs.Steps
import SeriesBroker.Statement.Select

/-! # Well-formed requests have a statement

    A statement can fail to be made in three ways: an aggregation or a comparison is unknown, or
    a filter has no operand. A well-formed request has none of these faults, and its pieces can
    be written down without failure (`Request.pieces`). So a batch that passes the check always
    becomes a query, and its text is known piece by piece (`ofBatch_of_check`).
-/

namespace SeriesBroker

open Statement (Piece)

/-! ### The pieces of a well-formed request -/

/-- The aggregation of a column, if its tag names one. -/
def Column.aggregation? (c : Column) : Option Aggregation := c.aggregation.bind Aggregation.ofTag?

/-- The pieces of a column, whose tag names an aggregation if it has one. -/
def Column.pieces (c : Column) : List Piece :=
  Statement.fieldPieces c.name c.aggregation? ++ Statement.mathPieces "" c.math

/-- The piece of an operand that is not null. -/
def Scalar.piece : Scalar → Piece
  | .string text => .literal text
  | value => .words value.display

/-- The pieces of a filter, whose comparison is written as the sign it was given by. -/
def Filter.pieces (f : Filter) : List Piece :=
  [.name f.column] ++ Statement.mathPieces " " f.math ++
    [.words (" " ++ f.comparison ++ " "), f.value.piece]

/-- The conditions of a request, the window last. -/
def Request.conditions (r : Request) : List (List Piece) :=
  r.filters.map Filter.pieces ++ (r.window.map Statement.windowPieces).toList

def Request.pieces (direction : Direction) (r : Request) : List Piece :=
  [.words "SELECT "] ++ Statement.joinPieces ", " (r.columns.map Column.pieces) ++
    [.words " FROM ", .name r.measurement] ++ Statement.wherePieces r.conditions ++
    [.words (Statement.orderWords direction r.interval)] ++ Statement.limitPieces r.limit

namespace Statement

/-! ### Success -/

theorem columnPieces_of_wellFormed {windowed : Bool} {c : Column} (h : c.WellFormed windowed) :
    columnPieces c = .ok c.pieces := by
  obtain ⟨name, aggregation, math⟩ := c
  cases aggregation with
  | none => rfl
  | some tag =>
    obtain ⟨a, ha⟩ := Option.isSome_iff_exists.1 (h.aggregated tag rfl).2
    have hpieces : Column.aggregation? ⟨name, some tag, math⟩ = some a := ha
    simp only [columnPieces, ha, Column.pieces, hpieces]

theorem operandPieces_of_some {column : String} {value : Scalar} (h : value.isNull = false) :
    operandPieces column value = .ok [value.piece] := by
  cases value with
  | null => cases h
  | bool b => rfl
  | number n => rfl
  | string text => rfl

theorem filterPieces_of_wellFormed {f : Filter} (h : f.WellFormed) :
    filterPieces f = .ok f.pieces := by
  obtain ⟨c, hc⟩ := Option.isSome_iff_exists.1 h.compared
  have hsign := Comparison.sign_of_ofSign? hc
  simp only [filterPieces, hc, operandPieces_of_some h.valued, hsign, Filter.pieces]
  simp only [bind, Except.bind, pure, Except.pure, List.append_assoc, List.cons_append,
    List.nil_append]

/-- A well-formed request has a statement. -/
theorem requestPieces_of_wellFormed {r : Request} (h : r.WellFormed) (direction : Direction) :
    requestPieces direction r = .ok (r.pieces direction) := by
  have hcolumns := mapM_eq_ok fun c hc => columnPieces_of_wellFormed (h.columns c hc)
  have hfilters := mapM_eq_ok fun f hf => filterPieces_of_wellFormed (h.filters f hf)
  rw [requestPieces, hcolumns, hfilters]
  rfl

theorem ofRequest_of_wellFormed {r : Request} (h : r.WellFormed) (direction : Direction) :
    ofRequest direction r = .ok (render (r.pieces direction)) := by
  rw [ofRequest, requestPieces_of_wellFormed h]
  rfl

def queryPieces (direction : Direction) (batch : List Request) : List Piece :=
  joinPieces "; " (batch.map (Request.pieces direction))

/-- A batch that passes the check becomes a query. -/
theorem ofBatch_of_check {batch : List Request} (h : checkRequests batch = .ok ())
    (direction : Direction) :
    ofBatch direction batch = .ok (render (queryPieces direction batch)) := by
  have hbatch := mapM_eq_ok fun r hr =>
    requestPieces_of_wellFormed (checkRequests_eq_ok.1 h r hr) direction
  rw [ofBatch, batchPieces, hbatch]
  rfl

/-! ### Texts -/

@[simp] theorem Piece.text_words (text : String) : (Piece.words text).text = text := rfl

@[simp] theorem Piece.text_name (text : String) : (Piece.name text).text = quoteName text := rfl

@[simp] theorem Piece.text_literal (text : String) :
    (Piece.literal text).text = quoteLiteral text := rfl

theorem render_append (ps qs : List Piece) : render (ps ++ qs) = render ps ++ render qs := by
  rw [render, List.map_append, String.join_append]
  rfl

theorem render_words (text : String) : render [.words text] = text := by
  simp [render]

/-- The characters of a list of pieces. -/
def written (pieces : List Piece) : List Char := pieces.flatMap fun p => p.text.toList

@[simp] theorem written_nil : written [] = [] := rfl

@[simp] theorem written_cons (p : Piece) (ps : List Piece) :
    written (p :: ps) = p.text.toList ++ written ps := by
  simp [written]

@[simp] theorem written_append (ps qs : List Piece) :
    written (ps ++ qs) = written ps ++ written qs := by
  simp [written]

/-- The text of pieces has their characters. -/
theorem toList_render (ps : List Piece) : (render ps).toList = written ps := by
  rw [render, String.toList_join, List.flatMap_map]
  rfl

/-- What is read off joined pieces one by one is read off the parts, with what the words give
    between every two of them. -/
theorem flatMap_joinPieces {α : Type} (f : Piece → List α) (words : String)
    (parts : List (List Piece)) :
    (joinPieces words parts).flatMap f =
      List.intercalate (f (.words words)) (parts.map fun ps => ps.flatMap f) := by
  induction parts with
  | nil => rfl
  | cons part parts ih =>
    cases parts with
    | nil => simp [joinPieces]
    | cons next parts =>
      have hcons : joinPieces words (part :: next :: parts) =
          part ++ [.words words] ++ joinPieces words (next :: parts) :=
        List.intercalate_cons_cons
      rw [hcons, List.flatMap_append, List.flatMap_append, ih, List.map_cons, List.map_cons,
        List.map_cons, List.intercalate_cons_cons]
      simp

theorem written_joinPieces (words : String) (parts : List (List Piece)) :
    written (joinPieces words parts) = List.intercalate words.toList (parts.map written) :=
  flatMap_joinPieces _ words parts

theorem toList_orderWords_none (direction : Direction) :
    (orderWords direction none).toList = " ORDER BY time ".toList ++ direction.keyword.toList := by
  unfold orderWords
  rw [String.toList_append]

theorem toList_orderWords_some (direction : Direction) (interval : String) :
    (orderWords direction (some interval)).toList =
      " GROUP BY time(".toList ++ (interval.toList ++ [')']) := by
  unfold orderWords
  rw [String.toList_append, String.toList_append, List.append_assoc]
  rfl

end Statement

end SeriesBroker
