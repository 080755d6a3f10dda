import SeriesBroker.Proofs.Statement.Compile

/-! # Scanning a query for its tokens

    Whoever reads a query first parts it into quoted tokens and the rest. A scan does this from
    left to right: outside a token a quotation mark of either kind opens one, inside a backslash
    takes the next character as it is, and the first other mark of the same kind closes it.

    The key fact is `scan_render`: if no word of a list of pieces has a quotation mark, the scan
    finds each name and each literal as one token with the text it was made of, whatever that
    text is, and each word outside of all tokens.
-/

namespace SeriesBroker.Statement

/-! ### The scan -/

/-- Where a scan stands. -/
inductive Place where
  | outside
  /-- In a token, with the mark that opened it and what was read of it. -/
  | inside (mark : Char) (read : List Char)
  /-- Right after a backslash in a token. -/
  | escaped (mark : Char) (read : List Char)
  deriving DecidableEq

/-- The text outside of all tokens. Each token has left a gap, `none`, in its place. -/
abbrev Frame := List (Option Char)

/-- What a scan has found so far. -/
structure Scan where
  place : Place
  frame : Frame
  /-- The tokens that were closed, each without its marks and escapes. -/
  tokens : List String
  deriving DecidableEq

namespace Scan

def start : Scan := ⟨.outside, [], []⟩

def step (s : Scan) (c : Char) : Scan :=
  match s.place with
  | .outside =>
    if c = '"' ∨ c = '\'' then { s with place := .inside c [] }
    else { s with frame := s.frame ++ [some c] }
  | .inside mark read =>
    if c = '\\' then { s with place := .escaped mark read }
    else if c = mark then ⟨.outside, s.frame ++ [none], s.tokens ++ [String.ofList read]⟩
    else { s with place := .inside mark (read ++ [c]) }
  | .escaped mark read => { s with place := .inside mark (read ++ [c]) }

end Scan

def scan (text : String) : Scan := text.toList.foldl Scan.step .start

/-! ### One piece -/

/-- What a piece leaves outside of all tokens. -/
def Piece.frame : Piece → Frame
  | .words text => text.toList.map some
  | .name _ => [none]
  | .literal _ => [none]

/-- The token that a piece is read as, if it is quoted. -/
def Piece.tokens : Piece → List String
  | .words _ => []
  | .name text => [text]
  | .literal text => [text]

@[simp] theorem Piece.frame_words (text : String) :
    (Piece.words text).frame = text.toList.map some := rfl

@[simp] theorem Piece.frame_name (text : String) : (Piece.name text).frame = [none] := rfl

@[simp] theorem Piece.frame_literal (text : String) : (Piece.literal text).frame = [none] := rfl

@[simp] theorem Piece.tokens_words (text : String) : (Piece.words text).tokens = [] := rfl

@[simp] theorem Piece.tokens_name (text : String) : (Piece.name text).tokens = [text] := rfl

@[simp] theorem Piece.tokens_literal (text : String) : (Piece.literal text).tokens = [text] := rfl

/-- No quotation mark stands outside of the tokens. -/
def Unquoted (frame : Frame) : Prop := ∀ c ∈ frame, c ≠ some '"' ∧ c ≠ some '\''

instance (frame : Frame) : Decidable (Unquoted frame) := List.decidableBAll _ frame

/-- Text without quotation marks is passed over. -/
theorem foldl_step_outside {text : List Char} (h : Unquoted (text.map some)) (frame : Frame)
    (tokens : List String) :
    text.foldl Scan.step ⟨.outside, frame, tokens⟩ =
      ⟨.outside, frame ++ text.map some, tokens⟩ := by
  induction text generalizing frame with
  | nil => simp
  | cons c text ih =>
    have hc := h (some c) List.mem_cons_self
    have hmark : ¬ (c = '"' ∨ c = '\'') := by simpa using hc
    have hstep : Scan.step ⟨.outside, frame, tokens⟩ c =
        ⟨.outside, frame ++ [some c], tokens⟩ := by
      simp only [Scan.step, if_neg hmark]
    rw [List.foldl_cons, hstep, ih fun d hd => h d (List.mem_cons_of_mem _ hd)]
    simp

/-- Inside a token an escaped text is read back, and the mark after it closes the token. The
    mark must not be the backslash, for a scan takes that one as an escape first. -/
theorem foldl_step_escape {mark : Char} (hmark : mark ≠ '\\') (text read : List Char)
    (frame : Frame) (tokens : List String) :
    (escape mark text ++ [mark]).foldl Scan.step ⟨.inside mark read, frame, tokens⟩ =
      ⟨.outside, frame ++ [none], tokens ++ [String.ofList (read ++ text)]⟩ := by
  induction text generalizing read with
  | nil => simp [escape, Scan.step, hmark]
  | cons c text ih =>
    have hescape : escape mark (c :: text) ++ [mark] =
        (if c = '\\' ∨ c = mark then ['\\', c] else [c]) ++ (escape mark text ++ [mark]) := by
      simp [escape]
    -- Escaped or not, the character is added to what was read.
    have hread : (if c = '\\' ∨ c = mark then ['\\', c] else [c]).foldl Scan.step
        ⟨.inside mark read, frame, tokens⟩ = ⟨.inside mark (read ++ [c]), frame, tokens⟩ := by
      by_cases hc : c = '\\' ∨ c = mark
      · simp [hc, Scan.step]
      · obtain ⟨hslash, hother⟩ := not_or.1 hc
        simp [hslash, hother, Scan.step]
    rw [hescape, List.foldl_append, hread, ih]
    simp

/-- A quoted text is read as one token. -/
theorem foldl_step_quoteWith {mark : Char} (hmark : mark = '"' ∨ mark = '\'') (text : String)
    (frame : Frame) (tokens : List String) :
    (quoteWith mark text).toList.foldl Scan.step ⟨.outside, frame, tokens⟩ =
      ⟨.outside, frame ++ [none], tokens ++ [text]⟩ := by
  have hslash : mark ≠ '\\' := by
    rintro rfl
    revert hmark
    decide
  have hopen : Scan.step ⟨.outside, frame, tokens⟩ mark = ⟨.inside mark [], frame, tokens⟩ := by
    simp only [Scan.step, if_pos hmark]
  rw [quoteWith, String.toList_ofList, List.cons_append, List.foldl_cons, hopen,
    foldl_step_escape hslash]
  simp

/-- A piece is read as what it is: a quoted one as a token, words as text outside. -/
theorem foldl_step_piece {p : Piece} (h : Unquoted p.frame) (frame : Frame)
    (tokens : List String) :
    p.text.toList.foldl Scan.step ⟨.outside, frame, tokens⟩ =
      ⟨.outside, frame ++ p.frame, tokens ++ p.tokens⟩ := by
  cases p with
  | words text =>
    rw [Piece.text, foldl_step_outside h]
    simp
  | name text => exact foldl_step_quoteWith (.inl rfl) text frame tokens
  | literal text => exact foldl_step_quoteWith (.inr rfl) text frame tokens

/-! ### Lists of pieces -/

/-- What pieces leave outside of all tokens. -/
def frameOf (pieces : List Piece) : Frame := pieces.flatMap Piece.frame

/-- The texts of the pieces that are quoted. -/
def tokensOf (pieces : List Piece) : List String := pieces.flatMap Piece.tokens

@[simp] theorem frameOf_append (ps qs : List Piece) :
    frameOf (ps ++ qs) = frameOf ps ++ frameOf qs := by
  simp [frameOf]

@[simp] theorem frameOf_cons (p : Piece) (ps : List Piece) :
    frameOf (p :: ps) = p.frame ++ frameOf ps := by
  simp [frameOf]

@[simp] theorem frameOf_nil : frameOf [] = [] := rfl

@[simp] theorem tokensOf_append (ps qs : List Piece) :
    tokensOf (ps ++ qs) = tokensOf ps ++ tokensOf qs := by
  simp [tokensOf]

@[simp] theorem tokensOf_cons (p : Piece) (ps : List Piece) :
    tokensOf (p :: ps) = p.tokens ++ tokensOf ps := by
  simp [tokensOf]

@[simp] theorem tokensOf_nil : tokensOf [] = [] := rfl

theorem frameOf_joinPieces (words : String) (parts : List (List Piece)) :
    frameOf (joinPieces words parts) =
      List.intercalate (words.toList.map some) (parts.map frameOf) :=
  flatMap_joinPieces _ words parts

/-- With nothing between them, lists are just put one after another. -/
theorem intercalate_nil_eq_flatten {α : Type} (l : List (List α)) :
    List.intercalate [] l = l.flatten := by
  induction l with
  | nil => rfl
  | cons a l ih =>
    cases l with
    | nil => simp
    | cons b l => rw [List.intercalate_cons_cons, ih, List.append_nil, ← List.flatten_cons]

/-- The words between parts are no tokens. -/
theorem tokensOf_joinPieces (words : String) (parts : List (List Piece)) :
    tokensOf (joinPieces words parts) = parts.flatMap tokensOf := by
  have hjoin : tokensOf (joinPieces words parts) =
      List.intercalate [] (parts.map tokensOf) := flatMap_joinPieces _ words parts
  rw [hjoin, intercalate_nil_eq_flatten, List.flatMap_def]

/-- The scan of pieces that starts outside of all tokens ends there, and finds each piece as
    what it is. -/
theorem foldl_step_pieces {ps : List Piece} (h : Unquoted (frameOf ps)) (frame : Frame)
    (tokens : List String) :
    (written ps).foldl Scan.step ⟨.outside, frame, tokens⟩ =
      ⟨.outside, frame ++ frameOf ps, tokens ++ tokensOf ps⟩ := by
  -- Each piece is scanned from outside of all tokens, and leaves the scan there again.
  induction ps generalizing frame tokens with
  | nil => simp
  | cons p ps ih =>
    have hp : Unquoted p.frame := fun c hc => h c (by simp [hc])
    have hps : Unquoted (frameOf ps) := fun c hc => h c (by simp [hc])
    rw [written_cons, List.foldl_append, foldl_step_piece hp, ih hps]
    simp

/-- **Quoted texts are contained.** If no word has a quotation mark, the tokens of a text are
    the names and literals it was made of. -/
theorem scan_render {ps : List Piece} (h : Unquoted (frameOf ps)) :
    scan (render ps) = ⟨.outside, frameOf ps, tokensOf ps⟩ := by
  rw [scan, toList_render, Scan.start, foldl_step_pieces h]
  simp

-- A mark of the other kind and an escaped one do not close a token.
example : scan "\"it's\" > 'a\\'; b'" =
    ⟨.outside, [none, some ' ', some '>', some ' ', none], ["it's", "a'; b"]⟩ := by
  decide

end SeriesBroker.Statement
